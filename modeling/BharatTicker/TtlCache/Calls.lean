/-
  File:      BharatTicker/TtlCache/Calls.lean
  Subject:   ANY SEQUENCE OF CALLS ON THE TTL CACHE. The counter is the size of what is stored, and
             what leaves for space was put before what stays.

  A history is a list of calls, the newest first, each with its reading of the clock.

  * `TtlCall`, `after` -- the calls, and the cache they leave;
  * `lastPut` -- the newest put of a key, with its place in the history;
  * `CacheInv` -- the dictionary is in the order of the puts, and the counter is its size;
  * `shrink_suffix` -- the loop of `put` drops the first entries, and never the last;
  * `cacheInv_after`, `ttlCache_bounded` -- all histories.
-/
import BharatTicker.TtlCache

namespace BharatTicker

open Basis

namespace TtlCache

universe u v

variable {κ : Type u} {α : Type v}

/-! ## 1. Histories -/

inductive TtlOp (κ : Type u) (α : Type v) where
  | get (key : κ)
  | put (key : κ) (value : α)
  | clear

structure TtlCall (κ : Type u) (α : Type v) where
  op : TtlOp κ α
  time : ℚ

/-- The clock does not run backwards. -/
def ClockOrdered (calls : List (TtlCall κ α)) : Prop :=
  calls.Pairwise fun later earlier => earlier.time ≤ later.time

/-- A put: the number of calls before it, its time and its value. -/
structure PutRecord (α : Type v) where
  place : ℕ
  time : ℚ
  value : α

/-- The keys in the cache. -/
def keys (c : TtlCache κ α) : List κ := c.store.map Prod.fst

/-- The sum of the recorded sizes. -/
def totalSize (store : List (κ × TtlEntry α)) : ℤ := (store.map fun x => (x.2.size : ℤ)).sum

variable [DecidableEq κ]

/-- The newest put of a key since the cache was cleared. -/
def lastPut (key : κ) : List (TtlCall κ α) → Option (PutRecord α)
  | [] => none
  | ⟨.get _, _⟩ :: calls => lastPut key calls
  | ⟨.put k value, t⟩ :: calls =>
    if k = key then some ⟨calls.length, t, value⟩ else lastPut key calls
  | ⟨.clear, _⟩ :: _ => none

section Step

variable (ttl : ℚ) (budget : ℤ) (sizeof : α → ℕ)

def perform (c : TtlCache κ α) (call : TtlCall κ α) : TtlCache κ α :=
  match call.op with
  | .get key => (c.get ttl key call.time).2
  | .put key value => c.put budget sizeof key value call.time
  | .clear => c.clear

/-- The cache after a history. -/
def after : List (TtlCall κ α) → TtlCache κ α
  | [] => {}
  | call :: calls => (after calls).perform ttl budget sizeof call

end Step

/-! ## 2. The loop of `put` -/

section Shrink

variable {c : TtlCache κ α}

/-- The dictionary has one entry for a key, its entries are in the order of their stamps, and the
    counter is its size. -/
structure WellKept (c : TtlCache κ α) : Prop where
  distinct : c.keys.Nodup
  stamps : c.store.Pairwise fun x y => x.2.stamp ≤ y.2.stamp
  counted : c.bytes = totalSize c.store

/-- A key that is not there removes nothing. -/
theorem filter_ne_self {store : List (κ × TtlEntry α)} {key : κ} (h : key ∉ store.map Prod.fst) :
    (store.filter fun x => x.1 ≠ key) = store := by
  refine List.filter_eq_self.mpr fun x hx => ?_
  have hne : x.1 ≠ key := fun e => h (List.mem_map.mpr ⟨x, hx, e⟩)
  simpa using hne

omit [DecidableEq κ] in
/-- The oldest entry is the first: of equal stamps, `min` takes the first. -/
theorem oldest_eq {x : κ × TtlEntry α} {store : List (κ × TtlEntry α)} (hc : c.store = x :: store)
    (h : c.store.Pairwise fun x y => x.2.stamp ≤ y.2.stamp) : c.oldest = some x.1 := by
  rw [hc] at h
  have hmin : (x :: store).argmin (fun x => x.2.stamp) = some x := by
    rw [List.argmin_cons]
    cases hm : store.argmin fun x => x.2.stamp with
    | none => rfl
    | some y => exact if_neg (not_lt.mpr ((List.pairwise_cons.mp h).1 y (List.argmin_mem hm)))
  unfold oldest
  rw [hc, hmin]
  rfl

/-- What is left without a key. -/
theorem evict_store (c : TtlCache κ α) (key : κ) :
    (c.evict key).store = c.store.filter fun x => x.1 ≠ key := by
  unfold evict
  cases he : entryAt c.store key with
  | some e => rfl
  | none => exact (filter_ne_self (entryAt_eq_none.1 he)).symm

theorem totalSize_filter {store : List (κ × TtlEntry α)} (hnodup : (store.map Prod.fst).Nodup)
    {key : κ} {e : TtlEntry α} (he : entryAt store key = some e) :
    totalSize (store.filter fun x => x.1 ≠ key) = totalSize store - e.size := by
  induction store with
  | nil => cases he
  | cons x store ih =>
    obtain ⟨hx, hnodup⟩ := List.nodup_cons.mp hnodup
    rw [entryAt_cons] at he
    by_cases hkey : x.1 = key
    · rw [if_pos hkey] at he
      rw [List.filter_cons_of_neg (by simpa using hkey), filter_ne_self (hkey ▸ hx),
        ← Option.some.inj he]
      simp [totalSize]
    · rw [if_neg hkey] at he
      rw [List.filter_cons_of_pos (by simpa using hkey)]
      have h := ih hnodup he
      simp only [totalSize, List.map_cons, List.sum_cons] at h ⊢
      omega

/-- **A removal keeps the books.** -/
theorem WellKept.evict (h : WellKept c) (key : κ) : WellKept (c.evict key) := by
  have hstore := evict_store c key
  refine ⟨?_, ?_, ?_⟩
  · unfold keys
    rw [hstore]
    exact h.distinct.sublist (List.filter_sublist.map _)
  · rw [hstore]
    exact h.stamps.filter _
  · rw [hstore]
    unfold TtlCache.evict
    cases he : entryAt c.store key with
    | some e =>
      show c.bytes - e.size = _
      rw [h.counted, totalSize_filter h.distinct he]
    | none =>
      have hsame : (c.store.filter fun x => x.1 ≠ key) = c.store := by
        rw [← hstore]
        unfold TtlCache.evict
        rw [he]
      rw [hsame]
      exact h.counted

/-- **The loop drops the first entries, and never the last.** -/
theorem shrink_suffix (budget : ℤ) (n : ℕ) (h : WellKept c) :
    (c.shrink budget n).store <:+ c.store ∧ (c.store ≠ [] → (c.shrink budget n).store ≠ []) ∧
      WellKept (c.shrink budget n) := by
  induction n generalizing c with
  | zero => exact ⟨List.suffix_rfl, id, h⟩
  | succ n ih =>
    unfold shrink
    by_cases hgo : budget < c.bytes ∧ 1 < c.store.length
    · rw [if_pos hgo]
      obtain ⟨x, y, store, hc⟩ : ∃ x y store, c.store = x :: y :: store := by
        rcases hs : c.store with _ | ⟨x, _ | ⟨y, store⟩⟩
        · rw [hs] at hgo
          simp at hgo
        · rw [hs] at hgo
          simp at hgo
        · exact ⟨x, y, store, rfl⟩
      -- the round removes the first entry
      have hevict : (c.evict x.1).store = y :: store := by
        have hnodup := h.distinct
        unfold keys at hnodup
        rw [hc] at hnodup
        obtain ⟨hx, -⟩ := List.nodup_cons.mp hnodup
        rw [evict_store, hc, List.filter_cons_of_neg (by simp), filter_ne_self hx]
      rw [oldest_eq hc h.stamps]
      obtain ⟨hsuffix, hne, hkept⟩ := ih (h.evict x.1)
      rw [hevict] at hsuffix hne
      rw [hc]
      exact ⟨hsuffix.trans (List.suffix_cons x _), fun _ => hne (List.cons_ne_nil _ _), hkept⟩
    · rw [if_neg hgo]
      exact ⟨List.suffix_rfl, id, h⟩

end Shrink

/-! ## 3. All histories -/

section Histories

variable {ttl : ℚ} {budget : ℤ} {sizeof : α → ℕ} {c : TtlCache κ α} {calls : List (TtlCall κ α)}
  {key : κ} {value : α} {now : ℚ}

/-- The cache before the loop of `put`. -/
def inserted (c : TtlCache κ α) (key : κ) (e : TtlEntry α) : TtlCache κ α :=
  ⟨(c.evict key).store ++ [(key, e)], (c.evict key).bytes + e.size⟩

theorem not_mem_evict (c : TtlCache κ α) (key : κ) :
    key ∉ (c.evict key).store.map Prod.fst := by
  rw [evict_store]
  simp

theorem put_eq (budget : ℤ) (sizeof : α → ℕ) (c : TtlCache κ α) (key : κ) (value : α) (now : ℚ) :
    c.put budget sizeof key value now =
      (c.inserted key ⟨now, value, sizeof value⟩).shrink budget
        (c.inserted key ⟨now, value, sizeof value⟩).store.length := by
  have hevict : (if key ∈ c.store.map Prod.fst then c.evict key else c) = c.evict key := by
    by_cases h : key ∈ c.store.map Prod.fst
    · exact if_pos h
    · unfold evict
      rw [if_neg h, entryAt_eq_none.2 h]
  unfold put inserted
  dsimp only
  rw [hevict, assign_of_notMem (not_mem_evict c key)]

/-- A put is among the calls. -/
theorem lastPut_spec {p : PutRecord α} (h : lastPut key calls = some p) :
    p.place < calls.length ∧ ∃ call ∈ calls, call.time = p.time := by
  induction calls with
  | nil => cases h
  | cons call calls ih =>
    have hrest : lastPut key calls = some p →
        p.place < (call :: calls).length ∧ ∃ d ∈ call :: calls, d.time = p.time := by
      intro h
      obtain ⟨hplace, d, hd, ht⟩ := ih h
      exact ⟨Nat.lt_succ_of_lt hplace, d, List.mem_cons_of_mem _ hd, ht⟩
    obtain ⟨op, t⟩ := call
    cases op with
    | get k => exact hrest h
    | put k value =>
      unfold lastPut at h
      split at h
      · cases h
        exact ⟨Nat.lt_succ_self _, _, List.mem_cons_self, rfl⟩
      · exact hrest h
    | clear => cases h

/-- **The invariant**: an entry is the newest put of its key, and an entry before another was put
    before it. -/
structure CacheInv (calls : List (TtlCall κ α)) (c : TtlCache κ α) : Prop where
  kept : WellKept c
  newest : ∀ x ∈ c.store, ∃ p, lastPut x.1 calls = some p ∧ p.time = x.2.stamp ∧
    p.value = x.2.value
  ordered : c.store.Pairwise fun x y => ∀ p q, lastPut x.1 calls = some p →
    lastPut y.1 calls = some q → p.place < q.place

/-- A removal keeps the invariant, and so does a call that puts nothing. -/
theorem CacheInv.evict (h : CacheInv calls c) (key : κ) : CacheInv calls (c.evict key) := by
  have hsub : (c.evict key).store.Sublist c.store := by
    rw [evict_store]
    exact List.filter_sublist
  exact ⟨h.kept.evict key, fun x hx => h.newest x (hsub.subset hx), h.ordered.sublist hsub⟩

/-- **A put, before its loop.** -/
theorem CacheInv.inserted (h : CacheInv calls c) (hnow : ∀ call ∈ calls, call.time ≤ now) :
    CacheInv (⟨.put key value, now⟩ :: calls) (c.inserted key ⟨now, value, sizeof value⟩) := by
  have hold := h.evict key
  have hnot := not_mem_evict c key
  -- the other keys have been put when they had been put before
  have hother : ∀ x ∈ (c.evict key).store,
      lastPut x.1 (⟨.put key value, now⟩ :: calls) = lastPut x.1 calls := by
    intro x hx
    have hne : key ≠ x.1 := fun e => hnot (List.mem_map.mpr ⟨x, hx, e.symm⟩)
    exact if_neg hne
  have hself : lastPut key (⟨.put key value, now⟩ :: calls) = some ⟨calls.length, now, value⟩ :=
    if_pos rfl
  refine ⟨⟨?_, ?_, ?_⟩, ?_, ?_⟩
  · unfold keys TtlCache.inserted
    rw [List.map_append]
    refine List.nodup_append.mpr ⟨hold.kept.distinct, List.nodup_singleton _, ?_⟩
    intro k hk k' hk' e
    rw [e, List.mem_singleton.mp hk'] at hk
    exact hnot hk
  · refine List.pairwise_append.mpr ⟨hold.kept.stamps, List.pairwise_singleton _ _, ?_⟩
    intro x hx y hy
    obtain ⟨p, hp, ht, -⟩ := hold.newest x hx
    obtain ⟨-, call, hcall, hpt⟩ := lastPut_spec hp
    rw [List.mem_singleton.mp hy, ← ht, ← hpt]
    exact hnow call hcall
  · have hcounted := hold.kept.counted
    simp only [TtlCache.inserted, totalSize, List.map_append, List.sum_append] at hcounted ⊢
    simp [hcounted]
  · intro x hx
    rcases List.mem_append.mp hx with hx | hx
    · rw [hother x hx]
      exact hold.newest x hx
    · rw [List.mem_singleton.mp hx]
      exact ⟨_, hself, rfl, rfl⟩
  · refine List.pairwise_append.mpr ⟨?_, List.pairwise_singleton _ _, ?_⟩
    · refine List.Pairwise.imp_of_mem ?_ hold.ordered
      intro x y hx hy hxy
      rwa [hother x hx, hother y hy]
    · intro x hx y hy p q hp hq
      rw [List.mem_singleton.mp hy, hself] at hq
      cases hq
      rw [hother x hx] at hp
      exact (lastPut_spec hp).1

/-- The loop keeps the invariant. -/
theorem CacheInv.shrink (h : CacheInv calls c) (n : ℕ) : CacheInv calls (c.shrink budget n) := by
  obtain ⟨hsuffix, -, hkept⟩ := shrink_suffix budget n h.kept
  exact ⟨hkept, fun x hx => h.newest x (hsuffix.subset hx), h.ordered.sublist hsuffix.sublist⟩

/-- **One call.** -/
theorem CacheInv.perform {call : TtlCall κ α} (h : CacheInv calls c)
    (hnow : ∀ d ∈ calls, d.time ≤ call.time) :
    CacheInv (call :: calls) (c.perform ttl budget sizeof call) := by
  obtain ⟨op, now⟩ := call
  cases op with
  | get key =>
    have hget : (c.get ttl key now).2 = c ∨ (c.get ttl key now).2 = c.evict key := by
      unfold TtlCache.get
      split
      · split
        · exact .inl rfl
        · exact .inr rfl
      · exact .inl rfl
    have hsame : CacheInv calls (c.get ttl key now).2 := by
      rcases hget with e | e
      · rw [e]
        exact h
      · rw [e]
        exact h.evict key
    exact ⟨hsame.kept, hsame.newest, hsame.ordered⟩
  | put key value =>
    show CacheInv _ (c.put budget sizeof key value now)
    rw [put_eq]
    exact (h.inserted hnow).shrink _
  | clear => exact ⟨⟨List.nodup_nil, .nil, rfl⟩, fun x hx => absurd hx List.not_mem_nil, .nil⟩

/-- **Any number of calls.** -/
theorem cacheInv_after (h : ClockOrdered calls) : CacheInv calls (after ttl budget sizeof calls) := by
  induction calls with
  | nil => exact ⟨⟨List.nodup_nil, .nil, rfl⟩, fun x hx => absurd hx List.not_mem_nil, .nil⟩
  | cons call calls ih =>
    obtain ⟨hnow, hrest⟩ := List.pairwise_cons.mp h
    exact (ih hrest).perform hnow

/-- What a put leaves, over the cache before it. -/
structure PutKeeps (budget : ℤ) (sizeof : α → ℕ) (calls : List (TtlCall κ α)) (key : κ) (value : α)
    (now : ℚ) (c c' : TtlCache κ α) : Prop where
  bounded : c'.bytes ≤ budget ∨ c'.store.length = 1
  present : entryAt c'.store key = some ⟨now, value, sizeof value⟩
  /-- What is evicted for space was put before all that remains. -/
  eldest : ∀ k ∈ c.keys, k ≠ key → k ∉ c'.keys → ∀ k' ∈ c'.keys, ∃ p p',
    lastPut k calls = some p ∧ lastPut k' (⟨.put key value, now⟩ :: calls) = some p' ∧
      p.place < p'.place

/-- A put keeps the newest of what it has inserted, and something. -/
theorem put_suffix (h : CacheInv calls c) (hnow : ∀ call ∈ calls, call.time ≤ now) :
    (c.put budget sizeof key value now).store <:+
        (c.inserted key ⟨now, value, sizeof value⟩).store ∧
      (c.put budget sizeof key value now).store ≠ [] := by
  have hin : CacheInv (⟨.put key value, now⟩ :: calls)
      (c.inserted key ⟨now, value, sizeof value⟩) := h.inserted hnow
  obtain ⟨hsuffix, hne, -⟩ :=
    shrink_suffix budget (c.inserted key ⟨now, value, sizeof value⟩).store.length hin.kept
  rw [put_eq]
  exact ⟨hsuffix, hne (by simp [TtlCache.inserted])⟩

/-- The new entry is the last, so the loop has not come to it. -/
theorem mem_put (h : CacheInv calls c) (hnow : ∀ call ∈ calls, call.time ≤ now) :
    (key, (⟨now, value, sizeof value⟩ : TtlEntry α)) ∈ (c.put budget sizeof key value now).store := by
  obtain ⟨⟨evicted, hevicted⟩, hne⟩ : (c.put budget sizeof key value now).store <:+
      (c.inserted key ⟨now, value, sizeof value⟩).store ∧
      (c.put budget sizeof key value now).store ≠ [] := put_suffix h hnow
  have hget : (evicted ++ (c.put budget sizeof key value now).store).getLast? =
      some (key, ⟨now, value, sizeof value⟩) := by
    rw [hevicted]
    exact List.getLast?_concat
  rw [List.getLast?_append_of_ne_nil _ hne] at hget
  exact List.mem_of_getLast? hget

theorem CacheInv.put (h : CacheInv calls c) (hnow : ∀ call ∈ calls, call.time ≤ now) :
    PutKeeps budget sizeof calls key value now c (c.put budget sizeof key value now) := by
  have hin : CacheInv (⟨.put key value, now⟩ :: calls)
      (c.inserted key ⟨now, value, sizeof value⟩) := h.inserted hnow
  have hlast : (key, (⟨now, value, sizeof value⟩ : TtlEntry α)) ∈
      (c.put budget sizeof key value now).store := mem_put h hnow
  obtain ⟨⟨evicted, hevicted⟩, hne⟩ : (c.put budget sizeof key value now).store <:+
      (c.inserted key ⟨now, value, sizeof value⟩).store ∧
      (c.put budget sizeof key value now).store ≠ [] := put_suffix h hnow
  refine ⟨?_, ?_, ?_⟩
  · have hbound := shrink_bounded budget (c.inserted key ⟨now, value, sizeof value⟩).store.length
      (c.inserted key ⟨now, value, sizeof value⟩) (Nat.le_succ _)
    rw [← put_eq] at hbound
    have hpos := List.length_pos_iff.mpr hne
    omega
  · cases he : entryAt (c.put budget sizeof key value now).store key with
    | none => exact absurd (List.mem_map_of_mem hlast) (entryAt_eq_none.1 he)
    | some e =>
      rcases entryAt_put he with ⟨-, rfl⟩ | ⟨hother, -⟩
      · rfl
      · exact absurd rfl hother
  · intro k hk hkey hgone k' hk'
    obtain ⟨x, hx, rfl⟩ := List.mem_map.mp hk
    obtain ⟨y, hy, rfl⟩ := List.mem_map.mp hk'
    have hxin : x ∈ evicted ++ (c.put budget sizeof key value now).store := by
      rw [hevicted]
      refine List.mem_append_left _ ?_
      rw [evict_store]
      exact List.mem_filter.mpr ⟨hx, by simpa using hkey⟩
    have hxe : x ∈ evicted := by
      rcases List.mem_append.mp hxin with hxe | hxc
      · exact hxe
      · exact absurd (List.mem_map_of_mem hxc) hgone
    obtain ⟨p, hp, -⟩ := h.newest x hx
    have hyin : y ∈ (c.inserted key ⟨now, value, sizeof value⟩).store :=
      hevicted ▸ List.mem_append_right evicted hy
    obtain ⟨p', hp', -⟩ := hin.newest y hyin
    have hordered := hin.ordered
    rw [← hevicted] at hordered
    refine ⟨p, p', hp, hp', (List.pairwise_append.mp hordered).2.2 x hxe y hy p p' ?_ hp'⟩
    exact (if_neg (Ne.symm hkey)).trans hp

/-- **The bounds of the cache.** After any calls, the clock not running backwards: the counter is the
    sum of the recorded sizes; a put ends within the budget or with one entry, its own entry is
    there, and what left for space had been put before all that is there; a get finds the newest
    value put for its key, and none that is as old as the TTL. -/
theorem ttlCache_bounded (ttl : ℚ) (budget : ℤ) (sizeof : α → ℕ) (h : ClockOrdered calls) :
    (after ttl budget sizeof calls).bytes = totalSize (after ttl budget sizeof calls).store ∧
    ∀ now, (∀ call ∈ calls, call.time ≤ now) → ∀ key,
      (∀ value, PutKeeps budget sizeof calls key value now (after ttl budget sizeof calls)
        ((after ttl budget sizeof calls).put budget sizeof key value now)) ∧
      ∀ value, ((after ttl budget sizeof calls).get ttl key now).1 = some value →
        ∃ p, lastPut key calls = some p ∧ p.value = value ∧ now - p.time < ttl := by
  have hinv : CacheInv calls (after ttl budget sizeof calls) := cacheInv_after h
  refine ⟨hinv.kept.counted, fun now hnow key => ⟨fun value => hinv.put hnow, ?_⟩⟩
  intro value hget
  obtain ⟨e, he, hfresh, rfl⟩ := get_eq_some.1 hget
  obtain ⟨p, hp, ht, hv⟩ := hinv.newest _ (mem_of_entryAt he)
  exact ⟨p, hp, hv, by rwa [ht]⟩

end Histories

/-- Three lists put at one time, the newest call first. -/
def tiedPuts : List (TtlCall String (List ℕ)) :=
  [⟨.put "INFY" [3], 10⟩, ⟨.put "TCS" [2], 10⟩, ⟨.put "RELIANCE" [1], 10⟩]

def listSize (value : List ℕ) : ℕ := value.length * 450 + 64

theorem ttlCache_bounded_tied :
    (after 30 1100 listSize tiedPuts).keys = ["TCS", "INFY"] ∧
      PutKeeps 1100 listSize tiedPuts "WIPRO" [4] 10 (after 30 1100 listSize tiedPuts)
        ((after 30 1100 listSize tiedPuts).put 1100 listSize "WIPRO" [4] 10) := by
  have hclock : ClockOrdered tiedPuts := by
    unfold ClockOrdered
    decide
  obtain ⟨-, h⟩ := ttlCache_bounded 30 1100 listSize hclock
  exact ⟨by decide, (h 10 (by decide) "WIPRO").1 [4]⟩

end TtlCache

end BharatTicker
