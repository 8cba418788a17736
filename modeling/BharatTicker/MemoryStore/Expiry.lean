/-
  File:      BharatTicker/MemoryStore/Expiry.lean
  Subject:   WHAT COMES BACK AFTER A KEY HAS EXPIRED (`get`, `set`, `incr`, `expire`, `hset`,
             `hgetall`).

  An expired key stays in the dictionaries until `_expired` is asked about it; `set`, `hset` and
  `expire` do not ask. The store is run on a clock, beside marks on all that was written before an
  expiry instant of its key that the clock has reached:

  * `MarkedStore`, `step` -- the store with these marks;
  * `NothingStale`, `HonestExpire` -- no read returns what is marked, and `expire` finds no key that
    is gone;
  * `KeepsBuried` -- the steps that bring nothing back; `step_buried` -- one step;
  * `nothing_resurrected_iff` -- whole runs.
-/
import BharatTicker.Basis.Run
import BharatTicker.MemoryStore

namespace BharatTicker

-- the concrete runs below compute with rationals
unseal Rat.add Rat.mul Rat.sub Rat.inv

namespace MemoryStore

open Basis

/-! ## 1. The store on a clock -/

/-- The store, the time, and for every key: whether its value, a field of its hash, was written
    before an expiry instant of the key that has been reached, and whether nothing has been written
    to it since. -/
structure MarkedStore where
  store : MemoryStore := {}
  now : ℚ := 0
  staleValue : String → Bool := fun _ => false
  staleField : String → String → Bool := fun _ _ => false
  gone : String → Bool := fun _ => false

/-- `clock`: time goes on to `t`. -/
inductive KeyAction where
  | clock (t : ℚ)
  | set (key : String) (value : Value) (ex : Option Int)
  | incr (key : String)
  | hset (key : String) (items : Hash)
  | expire (key : String) (ttl : Int)
  | get (key : String)
  | hgetall (key : String)

namespace MarkedStore

/-- The keys for which `passed` holds reach their expiry instant: whatever they hold is marked. -/
def reach (passed : String → Bool) (s : MarkedStore) : MarkedStore :=
  { s with
    staleValue := fun key => passed key || s.staleValue key
    staleField := fun key field => passed key || s.staleField key field
    gone := fun key => passed key || s.gone key }

/-- A key that was just given an expiry instant in the past reaches it at once. -/
def reachIfDead (key : String) (s : MarkedStore) : MarkedStore :=
  s.reach fun k => k = key && s.store.dead key s.now

def wroteValue (key : String) (s : MarkedStore) : MarkedStore :=
  { s with
    staleValue := Function.update s.staleValue key false
    gone := Function.update s.gone key false }

def wroteFields (key : String) (fields : List String) (s : MarkedStore) : MarkedStore :=
  { s with
    staleField := Function.update s.staleField key fun field =>
      s.staleField key field && !fields.contains field
    gone := Function.update s.gone key (s.gone key && fields.isEmpty) }

/-- Between `now` and `t` the expiry instant of the key comes. -/
def passes (key : String) (t : ℚ) (s : MarkedStore) : Bool :=
  match s.store.expiry key with
  | some e => s.now < e && e ≤ t
  | none => false

def step (s : MarkedStore) : KeyAction → Option MarkedStore
  | .clock t =>
    if s.now ≤ t then some { s.reach (fun key => s.passes key t) with now := t } else none
  | .set key value ex =>
    let s := { s with store := (s.store.set key value ex s.now).2 }
    some ((s.wroteValue key).reachIfDead key)
  | .incr key =>
    let (result, store) := s.store.incr key s.now
    let s := { s with store := store }
    match result with
    | .ok _ => some (s.wroteValue key)
    | .error _ => some s
  | .hset key items =>
    let s := { s with store := (s.store.hset key items).2 }
    some (s.wroteFields key (Dict.keys items))
  | .expire key ttl =>
    let (set, store) := s.store.expire key ttl s.now
    let s := { s with store := store }
    if set then some (s.reachIfDead key) else some s
  | .get key => some { s with store := (s.store.get key s.now).2 }
  | .hgetall key => some { s with store := (s.store.hgetall key s.now).2 }

/-! ## 2. What is asked of the store -/

/-- No `get` and no `hgetall` returns what was written before an expiry instant that has been
    reached. -/
def NothingStale (s : MarkedStore) : Prop :=
  ∀ key, (∀ v, (s.store.get key s.now).1 = some v → s.staleValue key = false) ∧
    ∀ field v, Dict.get? (s.store.hgetall key s.now).1 field = some v →
      s.staleField key field = false

/-- `expire` on an expired key returns `False`. -/
def HonestExpire (s : MarkedStore) : KeyAction → Prop
  | .expire key ttl => s.gone key = true → (s.store.expire key ttl s.now).1 = false
  | _ => True

/-- The value of the key is marked. -/
def valueStale (key : String) (s : MarkedStore) : Bool :=
  (s.store.kv key).isSome && s.staleValue key

/-- A field in the hash of the key is marked. -/
def hashStale (key : String) (s : MarkedStore) : Bool :=
  (Dict.keys ((s.store.hashes key).getD [])).any fun field => s.staleField key field

/-- A step that brings nothing back. A key whose instant has passed, and that no read has removed,
    is given a new expiry, or none, only when its marked fields have all been written again (for
    `expire`, its value too), and `expire` is called on an expired key only after a read has removed
    it. -/
def KeepsBuried (s : MarkedStore) : KeyAction → Prop
  | .set key _ ex => s.store.dead key s.now = true → 0 ≤ ex.getD 0 → s.hashStale key = false
  | .expire key ttl => (s.gone key = true → s.store.present key = false) ∧
      (s.store.dead key s.now = true → 0 < ttl →
        s.valueStale key = false ∧ s.hashStale key = false)
  | _ => True

/-- The reads of one key return nothing that is marked. -/
def CleanAt (key : String) (s : MarkedStore) : Prop :=
  s.store.dead key s.now = false → s.valueStale key = false ∧ s.hashStale key = false

section Clean

variable {s s' : MarkedStore} {key : String}

theorem hashStale_eq_false : s.hashStale key = false ↔ ∀ field v,
    Dict.get? ((s.store.hashes key).getD []) field = some v → s.staleField key field = false := by
  unfold hashStale
  rw [List.any_eq_false]
  constructor
  · intro h field v hv
    exact Bool.eq_false_iff.mpr (h field (Dict.get?_isSome_iff.mp ⟨v, hv⟩))
  · intro h field hmem
    obtain ⟨v, hv⟩ := Dict.get?_isSome_iff.mpr hmem
    exact Bool.eq_false_iff.mp (h field v hv)

theorem valueStale_eq_false : s.valueStale key = false ↔
    ∀ v, s.store.kv key = some v → s.staleValue key = false := by
  unfold valueStale
  cases h : s.store.kv key with
  | none => simp
  | some v => simp

theorem nothingStale_iff : NothingStale s ↔ ∀ key, CleanAt key s := by
  refine forall_congr' fun key => ?_
  unfold CleanAt
  rw [get_eq, hgetall_eq, valueStale_eq_false, hashStale_eq_false]
  cases h : s.store.dead key s.now with
  | true => simp
  | false => simp

/-- What the reads of a key depend on. -/
structure SameAt (key : String) (s s' : MarkedStore) : Prop where
  now : s'.now = s.now
  kv : s'.store.kv key = s.store.kv key
  hashes : s'.store.hashes key = s.store.hashes key
  expiry : s'.store.expiry key = s.store.expiry key
  staleValue : s'.staleValue key = s.staleValue key
  staleField : s'.staleField key = s.staleField key

theorem SameAt.cleanAt (h : SameAt key s s') (hc : CleanAt key s) : CleanAt key s' := by
  unfold CleanAt valueStale hashStale at *
  rw [dead_congr h.expiry, h.now, h.kv, h.hashes, h.staleValue, h.staleField]
  exact hc

/-- A step on one key leaves the others clean. -/
theorem clean_iff (hclean : ∀ k, CleanAt k s) (hframe : ∀ k, k ≠ key → SameAt k s s') :
    (∀ k, CleanAt k s') ↔ CleanAt key s' := by
  constructor
  · exact fun h => h key
  · intro h k
    by_cases e : k = key
    · rw [e]
      exact h
    · exact (hframe k e).cleanAt (hclean k)

end Clean

/-! ## 3. One step -/

section Step

variable {s s' : MarkedStore} {key k : String}

theorem SameAt.trans {s'' : MarkedStore} (h : SameAt k s s') (h' : SameAt k s' s'') :
    SameAt k s s'' :=
  ⟨h'.now.trans h.now, h'.kv.trans h.kv, h'.hashes.trans h.hashes, h'.expiry.trans h.expiry,
    h'.staleValue.trans h.staleValue, h'.staleField.trans h.staleField⟩

theorem sameAt_reachIfDead (s : MarkedStore) (h : k ≠ key) : SameAt k s (s.reachIfDead key) := by
  refine ⟨rfl, rfl, rfl, rfl, ?_, ?_⟩
  · simp [reachIfDead, reach, h]
  · funext field
    simp [reachIfDead, reach, h]

theorem sameAt_wroteValue (s : MarkedStore) (h : k ≠ key) : SameAt k s (s.wroteValue key) :=
  ⟨rfl, rfl, rfl, rfl, Function.update_of_ne h .., rfl⟩

theorem sameAt_purge (s : MarkedStore) (h : k ≠ key) :
    SameAt k s { s with store := s.store.purge key } :=
  ⟨rfl, Function.update_of_ne h .., Function.update_of_ne h .., Function.update_of_ne h .., rfl,
    rfl⟩

/-- A key that is dead is clean: no read returns anything of it. -/
theorem cleanAt_of_dead (h : s.store.dead key s.now = true) : CleanAt key s := fun hdead => by
  rw [h] at hdead
  cases hdead

/-- A key that is not dead is not reached. -/
theorem reachIfDead_of_alive (h : s.store.dead key s.now = false) :
    (s.reachIfDead key).staleValue key = s.staleValue key ∧
      (s.reachIfDead key).staleField key = s.staleField key := by
  simp [reachIfDead, reach, h]

theorem clock_clean {t : ℚ} (hclean : ∀ k, CleanAt k s) (hs : step s (.clock t) = some s') :
    ∀ k, CleanAt k s' := by
  obtain ⟨hle, e⟩ := Option.ite_none_right_eq_some.mp hs
  cases e
  intro k hdead
  have hdead' : s.store.dead k s.now = false ∧ s.passes k t = false := by
    have hd : s.store.dead k t = false := hdead
    unfold dead at hd ⊢
    unfold passes
    cases he : s.store.expiry k with
    | none => simp
    | some e =>
      rw [he] at hd
      have hlt : t < e := by simpa using hd
      have hnow : s.now < e := hle.trans_lt hlt
      simp [hlt, hnow]
  have hk := hclean k hdead'.1
  unfold valueStale hashStale at hk ⊢
  simpa [reach, hdead'.2] using hk

theorem set_clean {value : Value} {ex : Option Int} (hclean : ∀ k, CleanAt k s)
    (hs : step s (.set key value ex) = some s') :
    (∀ k, CleanAt k s') ↔ KeepsBuried s (.set key value ex) := by
  cases hs
  refine Iff.trans (clean_iff hclean fun k (hk : k ≠ key) => ?_) ?_
  · have hstore : SameAt k s { s with store := (s.store.set key value ex s.now).2 } :=
      ⟨rfl, Function.update_of_ne hk .., rfl, Function.update_of_ne hk .., rfl, rfl⟩
    exact (hstore.trans (sameAt_wroteValue _ hk)).trans (sameAt_reachIfDead _ hk)
  · unfold KeepsBuried
    by_cases hex : 0 ≤ ex.getD 0
    · -- the key is alive again, and its hash is what it was
      have halive : (s.store.set key value ex s.now).2.dead key s.now = false := by
        rw [set_dead]
        exact decide_eq_false (not_lt.mpr hex)
      obtain ⟨hvalue, hfield⟩ := reachIfDead_of_alive
        (s := { s with store := (s.store.set key value ex s.now).2 }.wroteValue key) halive
      unfold CleanAt valueStale hashStale
      rw [hvalue, hfield]
      simp only [hex, true_imp_iff]
      constructor
      · intro h _
        exact (h halive).2
      · intro h _
        refine ⟨by simp [wroteValue], ?_⟩
        by_cases hd : s.store.dead key s.now = true
        · exact h hd
        · exact (hclean key (Bool.eq_false_iff.mpr hd)).2
    · refine iff_of_true (cleanAt_of_dead ?_) fun _ h => absurd h hex
      show (s.store.set key value ex s.now).2.dead key s.now = true
      rw [set_dead]
      exact decide_eq_true (not_le.mp hex)

theorem expire_clean {ttl : Int} (hclean : ∀ k, CleanAt k s)
    (hs : step s (.expire key ttl) = some s') :
    (∀ k, CleanAt k s') ↔ (s.store.dead key s.now = true → 0 < ttl →
      s.valueStale key = false ∧ s.hashStale key = false) := by
  by_cases hpresent : s.store.present key = true
  · have hstore : s.store.expire key ttl s.now = (true,
        { s.store with expiry := Function.update s.store.expiry key (some (s.now + ttl)) }) :=
      if_pos hpresent
    simp only [step, hstore, if_true] at hs
    cases hs
    refine Iff.trans (clean_iff hclean fun k (hk : k ≠ key) => ?_) ?_
    · have hexp : SameAt k s { s with store := { s.store with
          expiry := Function.update s.store.expiry key (some (s.now + ttl)) } } :=
        ⟨rfl, rfl, rfl, Function.update_of_ne hk .., rfl, rfl⟩
      exact hexp.trans (sameAt_reachIfDead _ hk)
    · by_cases hpos : 0 < ttl
      · have hq : (0 : ℚ) < ttl := by exact_mod_cast hpos
        have halive : { s.store with
            expiry := Function.update s.store.expiry key (some (s.now + ttl)) }.dead key s.now =
              false := by
          rw [dead_of_deadline (Function.update_self ..)]
          simpa using hq
        obtain ⟨hvalue, hfield⟩ := reachIfDead_of_alive (s := { s with store := { s.store with
            expiry := Function.update s.store.expiry key (some (s.now + ttl)) } }) halive
        unfold CleanAt valueStale hashStale
        rw [hvalue, hfield]
        constructor
        · exact fun h _ _ => h halive
        · intro h _
          by_cases hd : s.store.dead key s.now = true
          · exact h hd hpos
          · exact hclean key (Bool.eq_false_iff.mpr hd)
      · refine iff_of_true (cleanAt_of_dead ?_) fun _ h => absurd h hpos
        have hq : (ttl : ℚ) ≤ 0 := by exact_mod_cast not_lt.mp hpos
        show MemoryStore.dead key s.now _ = true
        rw [dead_of_deadline (Function.update_self ..)]
        simpa using hq
  · have hstore : s.store.expire key ttl s.now = (false, s.store) := if_neg hpresent
    simp only [step, hstore] at hs
    cases hs
    refine iff_of_true hclean fun _ _ => ?_
    -- there is nothing under the key
    have habsent : s.store.kv key = none ∧ s.store.hashes key = none := by
      simpa [present] using hpresent
    simp [valueStale, hashStale, habsent.1, habsent.2]

theorem incr_clean (hclean : ∀ k, CleanAt k s) (hs : step s (.incr key) = some s') :
    ∀ k, CleanAt k s' := by
  cases hd : s.store.dead key s.now with
  | true =>
    -- everything under the key is removed, and the value is new
    have hincr : s.store.incr key s.now = (.ok 1, { s.store.purge key with
        kv := Function.update (s.store.purge key).kv key (some (.int 1)) }) := by
      simp [incr, expired, hd, pyInt, purge]
    simp only [step, hincr] at hs
    cases hs
    refine (clean_iff hclean fun k (hk : k ≠ key) => ?_).mpr fun _ => ?_
    · have hpurge := sameAt_purge s hk
      exact ⟨rfl, (Function.update_of_ne hk ..).trans hpurge.kv, hpurge.hashes, hpurge.expiry,
        Function.update_of_ne hk .., rfl⟩
    · simp [valueStale, hashStale, wroteValue, purge]
  | false =>
    cases hn : pyInt ((s.store.kv key).getD (.int 0)) with
    | none =>
      have hincr : s.store.incr key s.now = (.error "ValueError", s.store) := by
        simp [incr, expired, hd, hn]
      simp only [step, hincr] at hs
      cases hs
      exact hclean
    | some n =>
      have hincr : s.store.incr key s.now = (.ok (n + 1), { s.store with
          kv := Function.update s.store.kv key (some (.int (n + 1))) }) := by
        simp [incr, expired, hd, hn]
      simp only [step, hincr] at hs
      cases hs
      refine (clean_iff hclean fun k (hk : k ≠ key) => ?_).mpr fun _ => ⟨?_, ?_⟩
      · exact ⟨rfl, Function.update_of_ne hk .., rfl, rfl, Function.update_of_ne hk .., rfl⟩
      · simp [valueStale, wroteValue]
      · exact (hclean key hd).2

theorem hset_clean {items : Hash} (hclean : ∀ k, CleanAt k s)
    (hs : step s (.hset key items) = some s') : ∀ k, CleanAt k s' := by
  cases hs
  refine (clean_iff hclean fun k (hk : k ≠ key) => ?_).mpr fun hd => ⟨?_, ?_⟩
  · exact ⟨rfl, rfl, Function.update_of_ne hk .., rfl, rfl, Function.update_of_ne hk ..⟩
  · exact (hclean key hd).1
  · -- a field is one of the items, or was there before
    have hold := hashStale_eq_false.1 (hclean key hd).2
    refine hashStale_eq_false.2 fun field v hv => ?_
    simp only [wroteFields, hset, Function.update_self, Option.getD_some] at hv ⊢
    by_cases hmem : field ∈ Dict.keys items
    · simp [hmem]
    · rw [Dict.get?_update_of_notMem hmem] at hv
      rw [hold field v hv, Bool.false_and]

/-- A read removes a dead key. -/
theorem read_clean (hclean : ∀ k, CleanAt k s) :
    ∀ k, CleanAt k { s with store := (s.store.expired key s.now).2 } := by
  rw [expired_state]
  split
  · refine (clean_iff hclean fun k (hk : k ≠ key) => ?_).mpr fun _ => ?_
    · exact sameAt_purge s hk
    · simp [valueStale, hashStale, purge]
  · exact hclean

/-- **One step brings nothing back, and `expire` finds no key that is gone, exactly when the step
    keeps buried what is buried.** -/
theorem step_buried {a : KeyAction} (h : NothingStale s) (hs : step s a = some s') :
    NothingStale s' ∧ HonestExpire s a ↔ KeepsBuried s a := by
  rw [nothingStale_iff] at h ⊢
  cases a with
  | clock t => exact iff_of_true ⟨clock_clean h hs, trivial⟩ trivial
  | set key value ex => exact (and_iff_left trivial).trans (set_clean h hs)
  | incr key => exact iff_of_true ⟨incr_clean h hs, trivial⟩ trivial
  | hset key items => exact iff_of_true ⟨hset_clean h hs, trivial⟩ trivial
  | expire key ttl =>
    have hhonest : HonestExpire s (.expire key ttl) ↔
        (s.gone key = true → s.store.present key = false) := by
      show (_ → (s.store.expire key ttl s.now).1 = false) ↔ _
      rw [expire_eq]
    rw [expire_clean h hs, hhonest]
    exact and_comm
  | get key =>
    cases hs
    rw [get_state]
    exact iff_of_true ⟨read_clean h, trivial⟩ trivial
  | hgetall key =>
    cases hs
    rw [hgetall_state]
    exact iff_of_true ⟨read_clean h, trivial⟩ trivial

end Step

/-! ## 4. Runs -/

/-- **Nothing is resurrected exactly in the runs whose steps keep buried what is buried**: at no time
    does a read return what was written before an expiry instant of its key that has been reached,
    and every `expire` of an expired key returns `False`. -/
theorem nothing_resurrected_iff (actions : List KeyAction) (s : MarkedStore)
    (hr : run step {} actions = some s) :
    ((∀ pre, pre <+: actions → ∀ s', run step {} pre = some s' → NothingStale s') ∧
      StepsMeet step HonestExpire {} actions) ↔
    StepsMeet step KeepsBuried {} actions := by
  have h := always_meet_iff (J := fun _ => True) (fun _ _ _ _ _ => trivial)
    (fun s a s' _ hI hs => step_buried hI hs) trivial hr
  have hinit : NothingStale {} := fun key =>
    ⟨fun v hv => (by cases hv), fun field v hv => (by cases hv)⟩
  rw [always_iff] at h
  exact h.trans (and_iff_right hinit)

instance (s : MarkedStore) (a : KeyAction) : Decidable (KeepsBuried s a) :=
  match a with
  | .clock _ => .isTrue trivial
  | .set key _ ex => inferInstanceAs (Decidable (s.store.dead key s.now = true →
      0 ≤ ex.getD 0 → s.hashStale key = false))
  | .incr _ => .isTrue trivial
  | .hset .. => .isTrue trivial
  | .expire key ttl => inferInstanceAs (Decidable
      ((s.gone key = true → s.store.present key = false) ∧
        (s.store.dead key s.now = true → 0 < ttl →
          s.valueStale key = false ∧ s.hashStale key = false)))
  | .get _ => .isTrue trivial
  | .hgetall _ => .isTrue trivial

/-- A hash that is written with all its fields after it has expired, and given a new expiry. -/
def rewrittenRun : List KeyAction :=
  [.hset "k" [("a", "1")], .expire "k" 5, .clock 7, .hset "k" [("a", "2")], .expire "k" 5]

theorem nothing_resurrected_rewritten : ∃ s, run step {} rewrittenRun = some s ∧
    (s.store.hgetall "k" s.now).1 = [("a", "2")] ∧ NothingStale s := by
  have hrun : (run step {} rewrittenRun).map (fun s => (s.store.hgetall "k" s.now).1) =
      some [("a", "2")] := by
    decide
  obtain ⟨s, hs, e⟩ := Option.map_eq_some_iff.mp hrun
  have hmeet : StepsMeet step KeepsBuried {} rewrittenRun := by decide
  exact ⟨s, hs, e, ((nothing_resurrected_iff rewrittenRun s hs).mpr hmeet).1 rewrittenRun
    List.prefix_rfl s hs⟩

/-- A key expires at 5; at 7, with nothing written since, `expire` returns `True`, and `hgetall`
    the field that was written at 0. -/
theorem expired_key_resurrected : ∃ s, run step {} [.hset "k" [("a", "1")], .expire "k" 5, .clock 7]
      = some s ∧
    s.gone "k" = true ∧ s.staleField "k" "a" = true ∧
    (s.store.expire "k" 10 s.now).1 = true ∧
    ((s.store.expire "k" 10 s.now).2.hgetall "k" s.now).1 = [("a", "1")] := by
  have hrun : (run step {} [.hset "k" [("a", "1")], .expire "k" 5, .clock 7]).map (fun s =>
      (s.gone "k", s.staleField "k" "a", (s.store.expire "k" 10 s.now).1,
        ((s.store.expire "k" 10 s.now).2.hgetall "k" s.now).1)) =
      some (true, true, true, [("a", "1")]) := by
    decide
  obtain ⟨s, hs, e⟩ := Option.map_eq_some_iff.mp hrun
  simp only [Prod.mk.injEq] at e
  exact ⟨s, hs, e⟩

end MarkedStore

end MemoryStore

end BharatTicker
