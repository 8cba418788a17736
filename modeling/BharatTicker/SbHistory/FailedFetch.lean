/-
  File:      BharatTicker/SbHistory/FailedFetch.lean
  Subject:   FAILED FETCHES AND THE HISTORY CACHE (`_cached_history`). `get_history` turns an exception
             into an empty list, and the cache keeps that list like any other for its TTL.

  A call is one step: the cache is asked at one reading of the clock and written at another. What the
  upstream fetch would end in is the call's input, whether it is made or not.

  * `CachedCall`, `cachedHistory`, `step` -- the function, and sequences of calls;
  * `Remembers` -- what a call returns when the upstream has bars;
  * `FailureForgotten` -- the condition; `failure_not_remembered_iff` -- all sequences;
  * `outage_remembered` -- bars that are not served.
-/
import BharatTicker.Basis.Run
import BharatTicker.History
import BharatTicker.SbHistory

namespace BharatTicker

open Basis

-- the concrete runs below compute with rationals
unseal Rat.add Rat.mul Rat.sub Rat.inv

/-! ## 1. Calls -/

/-- What is cached; `fetch` is a ghost: how the fetch ended that it comes from. -/
structure FetchedRows where
  rows : List HistoryRow
  fetch : Except String (List HistoryRow)

/-- A call: when the cache is asked, how the fetch ends if it is made, and when it is over. -/
structure CachedCall where
  key : HistoryKey
  askedAt : ℚ
  upstream : Except String (List HistoryRow)
  answeredAt : ℚ

/-- A fetch that was made, and when it was over. -/
structure HistoryFetch where
  key : HistoryKey
  stamp : ℚ
  outcome : Except String (List HistoryRow)

/-- `_HIST_CACHE`, the clock, and a ghost: the fetches made. -/
structure CachedHistory where
  cache : TtlCache HistoryKey FetchedRows := {}
  now : ℚ := 0
  fetches : List HistoryFetch := []

inductive CachedAction where
  | call (c : CachedCall)
  /-- `sb_cache_clear`. -/
  | clear

namespace CachedHistory

variable (cfg : HistorySettings)

/-- `_cached_history`. -/
def cachedHistory (c : CachedCall) (s : CachedHistory) : List HistoryRow × CachedHistory :=
  match s.cache.get cfg.histTtl c.key c.askedAt with
  | (some hit, cache) => (hit.rows, { s with cache := cache, now := c.askedAt })
  | (none, cache) =>
    let rows := fromUpstream none c.upstream
    (rows,
      { s with
        cache := cache.put cfg.histBudget (fun x => sizeofList x.rows.length) c.key
          ⟨rows, c.upstream⟩ c.answeredAt
        now := c.answeredAt
        fetches := s.fetches ++ [⟨c.key, c.answeredAt, c.upstream⟩] })

/-- A call at times that are not before the last one's. -/
def step (s : CachedHistory) : CachedAction → Option CachedHistory
  | .call c =>
    if s.now ≤ c.askedAt ∧ c.askedAt ≤ c.answeredAt then some (s.cachedHistory cfg c).2 else none
  | .clear => some { s with cache := s.cache.clear }

/-! ## 2. The law and the condition -/

/-- The entry that a call finds. -/
def found (c : CachedCall) (s : CachedHistory) : Option FetchedRows :=
  (s.cache.get cfg.histTtl c.key c.askedAt).1

/-- Of a call made when the upstream has bars: it returns those, or those of an earlier fetch of the
    key that succeeded, within the TTL; and never what a failure left. -/
structure Remembers (s : CachedHistory) (c : CachedCall) (bars : List HistoryRow) : Prop where
  bars : (s.cachedHistory cfg c).1 = bars ∨ ∃ f ∈ s.fetches, f.key = c.key ∧
    c.askedAt - f.stamp < cfg.histTtl ∧ f.outcome = .ok (s.cachedHistory cfg c).1
  genuine : ∀ hit, s.found cfg c = some hit → ∀ e, hit.fetch ≠ .error e

/-- Every call made when the upstream has bars meets the law. -/
def NotRemembered (s : CachedHistory) : CachedAction → Prop
  | .call c => ∀ bars, c.upstream = .ok bars → bars ≠ [] → s.Remembers cfg c bars
  | .clear => True

/-- **The condition.** A call made when the upstream has bars does not find the entry of its key left,
    less than the TTL ago, by a fetch that raised. -/
def FailureForgotten (s : CachedHistory) : CachedAction → Prop
  | .call c => ∀ bars, c.upstream = .ok bars → bars ≠ [] →
      ∀ e, entryAt s.cache.store c.key = some e → c.askedAt - e.stamp < cfg.histTtl →
        ∃ rows, e.value.fetch = .ok rows
  | .clear => True

/-- Every entry is what `get_history` made of a fetch of its key. -/
def EntriesFetched (s : CachedHistory) : Prop :=
  ∀ key e, entryAt s.cache.store key = some e →
    (⟨key, e.stamp, e.value.fetch⟩ : HistoryFetch) ∈ s.fetches ∧
      e.value.rows = fromUpstream none e.value.fetch

/-! ## 3. One call -/

section Call

variable {cfg} {s s' : CachedHistory} {c : CachedCall} {a : CachedAction}

theorem cachedHistory_hit {hit : FetchedRows} (h : s.found cfg c = some hit) :
    (s.cachedHistory cfg c).1 = hit.rows := by
  unfold found at h
  unfold cachedHistory
  split
  · rename_i hit' cache e
    rw [e] at h
    cases h
    rfl
  · rename_i cache e
    rw [e] at h
    cases h

theorem cachedHistory_miss (h : s.found cfg c = none) :
    (s.cachedHistory cfg c).1 = fromUpstream none c.upstream := by
  unfold found at h
  unfold cachedHistory
  split
  · rename_i hit cache e
    rw [e] at h
    cases h
  · rfl

theorem step_entriesFetched (h : EntriesFetched s) (hs : step cfg s a = some s') :
    EntriesFetched s' := by
  cases a with
  | clear =>
    cases hs
    intro key e he
    cases he
  | call c =>
    obtain ⟨-, e⟩ := Option.ite_none_right_eq_some.mp hs
    cases e
    have hget : ∀ key e, entryAt (s.cache.get cfg.histTtl c.key c.askedAt).2.store key = some e →
        entryAt s.cache.store key = some e := fun key e he => TtlCache.entryAt_get he
    unfold cachedHistory
    split
    · rename_i hit cache hcache
      rw [hcache] at hget
      intro key e he
      exact h key e (hget key e he)
    · rename_i cache hcache
      rw [hcache] at hget
      intro key e he
      rcases TtlCache.entryAt_put he with ⟨rfl, rfl⟩ | ⟨-, hold⟩
      · exact ⟨List.mem_append_right _ (List.mem_singleton_self _), rfl⟩
      · obtain ⟨hmem, hrows⟩ := h key e (hget key e hold)
        exact ⟨List.mem_append_left _ hmem, hrows⟩

/-- **A call meets the law exactly when it finds no entry that a failure left.** -/
theorem notRemembered_iff (h : EntriesFetched s) : NotRemembered cfg s a ↔ FailureForgotten cfg s a := by
  cases a with
  | clear => exact Iff.rfl
  | call c =>
    refine forall_congr' fun bars => imp_congr_right fun hup => imp_congr_right fun _ => ?_
    constructor
    · intro hlaw e he hfresh
      have hhit : s.found cfg c = some e.value := TtlCache.get_eq_some.mpr ⟨e, he, hfresh, rfl⟩
      cases hfetch : e.value.fetch with
      | ok rows => exact ⟨rows, rfl⟩
      | error m => exact absurd hfetch (hlaw.genuine e.value hhit m)
    · intro hcond
      cases hhit : s.found cfg c with
      | none =>
        refine ⟨.inl ?_, fun hit h => by rw [hhit] at h; cases h⟩
        rw [cachedHistory_miss hhit, hup]
        rfl
      | some hit =>
        obtain ⟨e, he, hfresh, rfl⟩ := TtlCache.get_eq_some.mp hhit
        obtain ⟨rows, hok⟩ := hcond e he hfresh
        obtain ⟨hmem, hrows⟩ := h c.key e he
        refine ⟨.inr ⟨_, hmem, rfl, hfresh, ?_⟩, fun hit h m hm => ?_⟩
        · rw [cachedHistory_hit hhit, hrows, hok]
          rfl
        · rw [hhit] at h
          cases h
          rw [hok] at hm
          cases hm

end Call

/-! ## 4. All sequences -/

/-- **A failed fetch is not remembered in exactly those sequences** in which no call finds, within
    the TTL, the empty list that a failed fetch of its key left. -/
theorem failure_not_remembered_iff (cfg : HistorySettings) (actions : List CachedAction) :
    StepsMeet (step cfg) (NotRemembered cfg) {} actions ↔
      StepsMeet (step cfg) (FailureForgotten cfg) {} actions :=
  stepsMeet_congr (J := EntriesFetched) (fun _ _ _ h hs => step_entriesFetched h hs)
    (fun _ _ h => notRemembered_iff h) fun key e he => by cases he

def reliance5m : HistoryKey := ("RELIANCE", .NSE, .m5, 20450, 20458)

def lastBar : HistoryRow := ⟨monday 15 25, some 2448, some 2450, some 2448, some 2450, 190⟩

/-- A call at ten on Monday, whose fetch would take a second. -/
def mondayCall (minute : ℚ) (upstream : Except String (List HistoryRow)) : CachedAction :=
  .call ⟨reliance5m, monday 10 minute, upstream, monday 10 minute + 1⟩

/-- **An outage outlives itself.** At 10:01 Yahoo has bars, and the empty list is served. -/
theorem outage_remembered :
    ∃ s, run (step {}) {} [mondayCall 0 (.error "timed out"), mondayCall 1 (.ok [lastBar])] = some s ∧
      ¬ StepsMeet (step {}) (NotRemembered {}) {}
        [mondayCall 0 (.error "timed out"), mondayCall 1 (.ok [lastBar])] := by
  have hrun : ((run (step {}) {}
      [mondayCall 0 (.error "timed out"), mondayCall 1 (.ok [lastBar])]).map
      fun s => s.fetches.length) = some 1 := by
    decide
  obtain ⟨s, hs, -⟩ := Option.map_eq_some_iff.mp hrun
  refine ⟨s, hs, fun h => ?_⟩
  obtain ⟨s₁, h₁, -⟩ := run_cons.1 hs
  have hlaw := (h.2 s₁ h₁).1 [lastBar] rfl (by simp)
  have hhit : ((step {} {} (mondayCall 0 (.error "timed out"))).bind fun s =>
      (s.found {} ⟨reliance5m, monday 10 1, .ok [lastBar], monday 10 1 + 1⟩).map fun hit =>
        match hit.fetch with
        | .ok _ => false
        | .error _ => true) = some true := by
    decide
  rw [h₁, Option.bind_some] at hhit
  obtain ⟨hit, hfound, hfetch⟩ := Option.map_eq_some_iff.mp hhit
  cases he : hit.fetch with
  | ok rows => simp [he] at hfetch
  | error m => exact hlaw.genuine hit hfound m he

end CachedHistory

end BharatTicker
