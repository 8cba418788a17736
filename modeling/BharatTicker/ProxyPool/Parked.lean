/-
  File:      BharatTicker/ProxyPool/Parked.lean
  Subject:   PARKED PROXIES STAY PARKED. What the pool picks is not on cooldown, whatever the strategy,
             unless all proxies are.

  * `call_pick` -- the pick of a call is a candidate in the state that the call leaves behind;
  * `ParkedAt` -- a proxy was passed as `bad` less than the cooldown ago;
  * `Parks`, `step_parks` -- the pool knows what is parked;
  * `parked_stays_parked` -- over every sequence of calls.
-/
import BharatTicker.ProxyPool

namespace BharatTicker

open Basis

-- the concrete runs below compute with rationals
unseal Rat.add Rat.mul Rat.sub Rat.inv

/-! ## 1. One call -/

section Pick

variable {pool : ProxyPool} {now : ℚ} {draw : ℕ} {p q : String} {c : PoolCall}

theorem ProxyPool.current_pick (h : (pool.current now draw).1 = some p) :
    p ∈ (pool.current now draw).2.candidates now := by
  obtain ⟨uses, hu⟩ := pool.current_snd now draw
  rw [ProxyPool.current_fst] at h
  split at h
  · cases h
  · have hcand : p ∈ pool.candidates now := mem_of_select h
    rw [hu]
    exact hcand

/-- **The pick of a call is a candidate**, in the state that the call leaves behind. -/
theorem ProxyPool.call_pick (hpick : c.method.picks = true)
    (h : (pool.call c).1.proxy? = some p) : p ∈ (pool.call c).2.candidates c.late := by
  unfold ProxyPool.call at h ⊢
  cases hm : c.method with
  | current =>
    rw [hm] at h
    exact current_pick h
  | rotate bad =>
    simp only [hm, ProxyPool.rotate] at h ⊢
    split at h
    · cases h
    · rename_i hne
      rw [if_neg hne]
      exact current_pick h
  | asProxies proxy =>
    cases proxy with
    | some q =>
      rw [hm] at hpick
      cases hpick
    | none =>
      simp only [hm, ProxyPool.asProxies, true_or, if_true] at h ⊢
      cases hcur : (pool.current c.late c.draw).1 with
      | none =>
        rw [hcur] at h
        cases h
      | some r =>
        rw [hcur] at h
        dsimp only [Prod.map, PoolAnswer.proxy?] at h
        split at h
        · cases h
        · cases h
          exact current_pick hcur
  | status =>
    rw [hm] at hpick
    cases hpick

/-- A call on a pool that is not empty has a pick. -/
theorem ProxyPool.rotate_isSome (pool : ProxyPool) (hne : pool.proxies.texts ≠ [])
    (bad : Option String) (early late : ℚ) (draw : ℕ) : ∃ p, (pool.rotate bad early late draw).1 = some p := by
  obtain ⟨d, hd⟩ := pool.park_frame bad early
  rw [ProxyPool.rotate, if_neg hne]
  simp only [hd, ProxyPool.current_fst, if_neg hne]
  exact exists_select { pool with
    deadUntil := d, idx := (pool.idx + 1) % pool.proxies.texts.length } hne late draw

end Pick

/-! ## 2. What is parked -/

/-- Among the calls, one parked the proxy less than the cooldown before `now`. -/
def ParkedAt (calls : List PoolCall) (p : String) (now : ℚ) : Prop :=
  ∃ c ∈ calls, c.method = .rotate (some p) ∧ now < c.early + proxyCooldownS

instance (calls : List PoolCall) (p : String) (now : ℚ) : Decidable (ParkedAt calls p now) :=
  inferInstanceAs (Decidable (∃ c ∈ calls, _))

/-- The pool knows what is parked: its times tell what the calls say. -/
structure Parks (s : PoolRun) : Prop where
  nonneg : 0 ≤ s.clock
  past : ∀ c ∈ s.calls, c.early ≤ s.clock
  parked : ∀ p ∈ s.pool.proxies.texts, ∀ now, 0 ≤ now →
    (now < s.pool.deadUntilOf p ↔ ParkedAt s.calls p now)

section Parked

variable {s s' : PoolRun} {c : PoolCall} {p : String}

theorem parks_init (proxies : ProxyList) (strategy : ProxyStrategy) :
    Parks (.init proxies strategy) where
  nonneg := le_refl 0
  past := fun c hc => by cases hc
  parked := fun p _ now hnow => by
    refine iff_of_false (not_lt.mpr hnow) ?_
    rintro ⟨c, hc, -⟩
    cases hc

theorem PoolRun.step_cases (h : s.step c = some s') : s.clock ≤ c.early ∧ c.early ≤ c.late ∧
    s' = { pool := (s.pool.call c).2, clock := c.late, calls := c :: s.calls } := by
  unfold PoolRun.step at h
  split at h
  · rename_i hclock
    exact ⟨hclock.1, hclock.2, (Option.some.inj h).symm⟩
  · cases h

theorem ProxyPool.call_proxies (pool : ProxyPool) (c : PoolCall) : (pool.call c).2.proxies = pool.proxies := by
  by_cases hne : pool.proxies.texts = []
  · rw [ProxyPool.call_of_empty hne]
  · obtain ⟨uses, hcall⟩ := ProxyPool.call_snd hne c
    obtain ⟨d, hd⟩ := pool.park_frame c.method.bad c.early
    rw [hcall, hd]

theorem PoolMethod.bad_eq_some_iff {m : PoolMethod} : m.bad = some p ↔ m = .rotate (some p) := by
  cases m <;> simp [PoolMethod.bad]

/-- Only a call that parks a proxy moves its time. -/
theorem ProxyPool.call_deadUntilOf {pool : ProxyPool} (hp : p ∈ pool.proxies.texts) (c : PoolCall) :
    (pool.call c).2.deadUntilOf p =
      if c.method = .rotate (some p) then c.early + proxyCooldownS else pool.deadUntilOf p := by
  obtain ⟨uses, hcall⟩ := ProxyPool.call_snd (List.ne_nil_of_mem hp) c
  have hpark := pool.park_deadUntilOf c.method.bad c.early
    (pool.proxies.nonempty p hp)
  simp only [PoolMethod.bad_eq_some_iff] at hpark
  rw [hcall, ← hpark]
  rfl

/-- **One call**: the pool still knows what is parked. -/
theorem step_parks (hinv : Parks s) (h : s.step c = some s') : Parks s' := by
  obtain ⟨hclock, hlate, rfl⟩ := PoolRun.step_cases h
  refine ⟨hinv.nonneg.trans (hclock.trans hlate), fun c' hc' => ?_, fun p hp now hnow => ?_⟩
  · rcases List.mem_cons.mp hc' with rfl | hc'
    · exact hlate
    · exact (hinv.past c' hc').trans (hclock.trans hlate)
  · have hmem : p ∈ s.pool.proxies.texts := by rwa [ProxyPool.call_proxies] at hp
    have hold := hinv.parked p hmem now hnow
    rw [ProxyPool.call_deadUntilOf hmem]
    by_cases hbad : c.method = .rotate (some p)
    · rw [if_pos hbad]
      refine ⟨fun hlt => ⟨c, List.mem_cons_self, hbad, hlt⟩, ?_⟩
      rintro ⟨c', hc', hm, hlt⟩
      rcases List.mem_cons.mp hc' with rfl | hc'
      · exact hlt
      · -- the newest parking is the longest
        have := hinv.past c' hc'
        linarith
    · rw [if_neg hbad, hold]
      refine ⟨fun ⟨c', hc', h'⟩ => ⟨c', List.mem_cons_of_mem c hc', h'⟩, ?_⟩
      rintro ⟨c', hc', hm, hlt⟩
      rcases List.mem_cons.mp hc' with rfl | hc'
      · exact absurd hm hbad
      · exact ⟨c', hc', hm, hlt⟩

variable {proxies : ProxyList} {strategy : ProxyStrategy} {cs : List PoolCall}

theorem run_parks (hr : run PoolRun.step (.init proxies strategy) cs = some s) :
    Parks s ∧ s.pool.proxies = proxies := by
  refine run_invariant (I := fun s => Parks s ∧ s.pool.proxies = proxies) ?_
    ⟨parks_init proxies strategy, rfl⟩ hr
  intro s c s' hI h
  obtain ⟨-, -, hs'⟩ := PoolRun.step_cases h
  refine ⟨step_parks hI.1 h, ?_⟩
  rw [hs', ProxyPool.call_proxies, hI.2]

/-- A proxy that is parked is only picked when all are. -/
theorem pick_parked (hr : run PoolRun.step (.init proxies strategy) cs = some s)
    (hs : s.step c = some s') (hpick : c.method.picks = true)
    (h : (s.pool.call c).1.proxy? = some p) (hp : ParkedAt s'.calls p c.late) :
    ∀ q ∈ proxies.texts, ParkedAt s'.calls q c.late := by
  obtain ⟨hbefore, rfl⟩ := run_parks hr
  have hparks := step_parks hbefore hs
  obtain ⟨-, -, rfl⟩ := PoolRun.step_cases hs
  have hcand := ProxyPool.call_pick hpick h
  have hmem := ProxyPool.mem_of_candidates hcand
  have hlate : 0 ≤ c.late := hparks.nonneg
  intro q hq
  rw [← ProxyPool.call_proxies s.pool c] at hq
  have hdead := (hparks.parked p hmem c.late hlate).mpr hp
  exact (hparks.parked q hq c.late hlate).mp (ProxyPool.all_parked hcand hdead hq)

end Parked

/-! ## 3. Every sequence of calls -/

/-- **Parked proxies stay parked**: for every list of proxies, strategy and draws, and every sequence
    of calls on a clock that does not run backwards, a call picks a proxy that was passed as `bad` less
    than the cooldown ago only when every proxy of the list was. And `rotate` picks another proxy than
    the one it parks, if another one is not parked when it picks. -/
theorem parked_stays_parked {proxies : ProxyList} {strategy : ProxyStrategy} {cs : List PoolCall}
    {c : PoolCall} {s s' : PoolRun} {p : String}
    (hr : run PoolRun.step (.init proxies strategy) cs = some s) (hs : s.step c = some s') :
    (c.method.picks = true → (s.pool.call c).1.proxy? = some p → ParkedAt s'.calls p c.late →
      ∀ q ∈ proxies.texts, ParkedAt s'.calls q c.late) ∧
    (c.method = .rotate (some p) → c.late < c.early + proxyCooldownS →
      (∃ q ∈ proxies.texts, ¬ParkedAt s'.calls q c.late) →
      ∃ r, (s.pool.call c).1 = .proxy (some r) ∧ r ≠ p) := by
  refine ⟨pick_parked hr hs, fun hm hlate hother => ?_⟩
  obtain ⟨q, hq, hfree⟩ := hother
  obtain ⟨r, hpick⟩ := ProxyPool.rotate_isSome s.pool (by
    rw [(run_parks hr).2]
    exact List.ne_nil_of_mem hq) (some p) c.early c.late c.draw
  have hcall : (s.pool.call c).1 = .proxy (some r) := by
    rw [ProxyPool.call, hm]
    exact congrArg PoolAnswer.proxy hpick
  refine ⟨r, hcall, ?_⟩
  rintro rfl
  have hparked : ParkedAt s'.calls r c.late := by
    obtain ⟨-, -, rfl⟩ := PoolRun.step_cases hs
    exact ⟨c, List.mem_cons_self, hm, hlate⟩
  have hpicks : c.method.picks = true := by
    rw [hm]
    rfl
  exact hfree (pick_parked hr hs hpicks (by rw [hcall]; rfl) hparked q hq)

/-- Two proxies. -/
def twoProxies : ProxyList := parseProxyList "a:1, b:1"

/-- The state after `calls` on a new pool of the two proxies, round-robin. -/
def twoProxiesAfter (calls : List PoolCall) : PoolRun :=
  (run PoolRun.step (.init twoProxies .roundRobin) calls).getD (.init twoProxies .roundRobin)

/-- The first proxy is parked on its failure, and the pool goes on with the second one. -/
theorem parked_stays_parked_two :
    ∃ r, ((twoProxiesAfter [⟨.current, 1, 1, 0⟩]).pool.call ⟨.rotate (some "a:1"), 2, 2, 0⟩).1 =
      .proxy (some r) ∧ r ≠ "a:1" :=
  (@parked_stays_parked twoProxies .roundRobin [⟨.current, 1, 1, 0⟩]
    ⟨.rotate (some "a:1"), 2, 2, 0⟩ (twoProxiesAfter [⟨.current, 1, 1, 0⟩])
    (twoProxiesAfter [⟨.current, 1, 1, 0⟩, ⟨.rotate (some "a:1"), 2, 2, 0⟩]) "a:1" rfl rfl).2 rfl
    (by decide) ⟨"b:1", by decide, by decide⟩

end BharatTicker
