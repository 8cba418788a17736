/-
  File:      BharatTicker/Tickertape/SidMap.lean
  Subject:   THE UNIVERSE MAP, LOADED BY ANY NUMBER OF RESOLVERS: `_ensure_sid_map`
             (`engine/tickertape.py`).

  Every resolver whose symbol is not known comes by here. `ensureSidMap` takes a call for one step, as
  `_all_sids_lock` is held from the look at the map to the answer. This file lets the calls take their
  steps in any order, lets any of them be cancelled, and shows that nothing is lost by that.

  * `sidMapRule`, `SidMapAction`, `SidMapLoader`, `step` -- the calls, as tasks of a load under a lock;
  * `SidMapCall`, `oneAfterAnother` -- the same calls, each for one step;
  * `Linear`, `step_linear` -- the simulation;
  * `sid_map_linearized` -- any interleaving.
-/
import BharatTicker.Basis.GuardedLoad
import BharatTicker.Tickertape

namespace BharatTicker

open Basis

-- the concrete runs below compute with rationals
unseal Rat.add Rat.mul Rat.sub Rat.inv

namespace Tickertape

/-! ## 1. The calls -/

/-- `_all_sids and (time.time() - _all_sids_at) < _SIDMAP_TTL`, in both places. -/
def sidMapRule : LoadRule (Dict String String) where
  usable m := m ≠ []
  peeks noted now := now - noted < sidMapTtl
  young noted now := now - noted < sidMapTtl
  young_mono a b now hab h := by
    rw [decide_eq_true_eq] at h ⊢
    linarith

inductive SidMapAction where
  /-- `_ensure_sid_map` is called. -/
  | call (task : ℕ) (t : ℚ)
  /-- It gets the lock, and looks again. -/
  | enter (task : ℕ) (t : ℚ)
  /-- `_get("/stocks/list")` returns; `none` where it failed. -/
  | answered (task : ℕ) (rows : Option (List ListRow)) (t : ℚ)
  | cancel (task : ℕ) (t : ℚ)

/-- As a step of a loader: the rows make the map. -/
def SidMapAction.load : SidMapAction → LoadAction (Dict String String)
  | .call i t => .call i t
  | .enter i t => .enter i t
  | .answered i rows t => .answered i (some (tickerSids (rows.getD []))) t
  | .cancel i t => .cancel i t

/-- `_all_sids`, `_all_sids_at`, `_all_sids_lock` and the calls. -/
abbrev SidMapLoader := Loader (Dict String String)

/-- The globals of the module, a clock that shows `now`. -/
def SidMapLoader.init (now : ℚ) : SidMapLoader := Loader.init now [] 0

def SidMapLoader.step (s : SidMapLoader) (a : SidMapAction) : Option SidMapLoader :=
  Loader.step sidMapRule s a.load

/-! ## 2. One after another -/

/-- A call that has asked upstream. -/
structure SidMapCall where
  rows : Option (List ListRow)
  checkedAt : ℚ
  answeredAt : ℚ

/-- What it has stored. -/
def SidMapCall.stored (c : SidMapCall) : Option (Dict String String) :=
  if tickerSids (c.rows.getD []) ≠ [] then some (tickerSids (c.rows.getD [])) else none

/-- The calls, each of them run to its end before the next one. -/
def oneAfterAnother (calls : List SidMapCall) : Tickertape :=
  calls.foldl (fun s c => s.ensureSidMap c.rows c.checkedAt c.answeredAt) {}

/-- The call whose request ends with a step; one that is cancelled has no rows. -/
def SidMapLoader.asked (s : SidMapLoader) : SidMapAction → Option SidMapCall
  | .answered i rows t =>
    match s.tasks i with
    | .loading since => some ⟨rows, since, t⟩
    | _ => none
  | .cancel i t =>
    match s.tasks i with
    | .loading since => some ⟨none, since, t⟩
    | _ => none
  | _ => none

/-- Those of a run, in the order of their answers. -/
def SidMapLoader.askedAll : SidMapLoader → List SidMapAction → List SidMapCall
  | _, [] => []
  | s, a :: as => (s.asked a).toList ++ ((s.step a).map fun s' => s'.askedAll as).getD []

/-- The globals are those that the calls leave, one after another. -/
structure Linear (s : SidMapLoader) (calls : List SidMapCall) : Prop where
  guarded : Guarded sidMapRule ([], 0) s
  sids : (oneAfterAnother calls).allSids = s.value
  sidsAt : (oneAfterAnother calls).allSidsAt = s.loadedAt
  loads : calls.map (fun c => (c.checkedAt, c.answeredAt, c.stored)) =
    s.loads.reverse.map fun r => (r.since, r.ended, r.result)

section Linear

variable {s s' : SidMapLoader} {calls : List SidMapCall}

theorem linear_init (now : ℚ) : Linear (.init now) [] where
  guarded := guarded_init now [] 0
  sids := rfl
  sidsAt := rfl
  loads := rfl

theorem oneAfterAnother_concat (c : SidMapCall) : oneAfterAnother (calls ++ [c]) =
    (oneAfterAnother calls).ensureSidMap c.rows c.checkedAt c.answeredAt := by
  unfold oneAfterAnother
  rw [List.foldl_append]
  rfl

/-- While a call asks, the map is out of date at the time it looked. -/
theorem asking_stale (h : Guarded sidMapRule ([], 0) s) {i : ℕ} {since : ℚ}
    (hi : s.tasks i = .loading since) : ¬(s.value ≠ [] ∧ since - s.loadedAt < sidMapTtl) := by
  intro hex
  obtain ⟨hvalue, hyoung⟩ := hex
  rcases h.held with e | ⟨r, hr, hkept, hnoted⟩
  · exact hvalue (Prod.ext_iff.mp e).1
  · have hold := ((h.holder i since hi).2.2 r hr).2 (by rw [hkept]; rfl)
    rw [hnoted] at hold
    exact absurd hyoung (of_decide_eq_false hold)

/-- A call that had to ask leaves the map that its rows make, if they make one. -/
theorem ensureSidMap_asked {T : Tickertape} (rows : Option (List ListRow)) {checkedAt : ℚ} (t : ℚ)
    (h : ¬(T.allSids ≠ [] ∧ checkedAt - T.allSidsAt < sidMapTtl)) :
    ((T.ensureSidMap rows checkedAt t).allSids, (T.ensureSidMap rows checkedAt t).allSidsAt) =
      if tickerSids (rows.getD []) ≠ [] then (tickerSids (rows.getD []), t)
      else (T.allSids, T.allSidsAt) := by
  unfold ensureSidMap
  rw [if_neg h]
  dsimp only
  split
  · rfl
  · rfl

/-- **An answer**: one more call, run to its end. -/
theorem Linear.answer (h : Linear s calls) {i : ℕ} {since t : ℚ} (hi : s.tasks i = .loading since)
    {rows : Option (List ListRow)} {result : Option (Dict String String)}
    {phase : LoadPhase (Dict String String)}
    (hresult : result = SidMapCall.stored ⟨rows, since, t⟩)
    (hguarded : Guarded sidMapRule ([], 0) (s.close i since t result phase)) :
    Linear (s.close i since t result phase) (calls ++ [⟨rows, since, t⟩]) := by
  have hstale := asking_stale h.guarded hi
  rw [← h.sids, ← h.sidsAt] at hstale
  have hcall := ensureSidMap_asked rows t hstale
  rw [← oneAfterAnother_concat ⟨rows, since, t⟩, h.sids, h.sidsAt] at hcall
  obtain ⟨hsids, hsidsAt⟩ := Prod.ext_iff.mp hcall
  subst hresult
  refine ⟨hguarded, hsids.trans ?_, hsidsAt.trans ?_, ?_⟩
  · show _ = Option.getD (if _ then _ else _) s.value
    split <;> rfl
  · show _ = if Option.isSome (if _ then _ else _) then t else s.loadedAt
    split <;> rfl
  · rw [List.map_append, h.loads]
    simp only [Loader.close, List.reverse_cons, List.map_append, List.map_cons, List.map_nil]

/-- A step that does not end a request leaves all this as it is. -/
theorem Linear.frame (h : Linear s calls) (hguarded : Guarded sidMapRule ([], 0) s')
    (hvalue : s'.value = s.value) (hat : s'.loadedAt = s.loadedAt) (hloads : s'.loads = s.loads) :
    Linear s' (calls ++ []) := by
  rw [List.append_nil]
  exact ⟨hguarded, by rw [hvalue, h.sids], by rw [hat, h.sidsAt], by rw [hloads, h.loads]⟩

/-- **One step of a call.** -/
theorem step_linear {a : SidMapAction} (h : Linear s calls) (hs : s.step a = some s') :
    Linear s' (calls ++ (s.asked a).toList) := by
  have hguarded := step_guarded h.guarded hs
  cases a with
  | call i t =>
    simp only [SidMapLoader.step, SidMapAction.load, Loader.step] at hs
    split at hs
    · split at hs
      · cases hs
        exact h.frame hguarded rfl rfl rfl
      · cases hs
    · cases hs
  | enter i t =>
    simp only [SidMapLoader.step, SidMapAction.load, Loader.step] at hs
    split at hs
    · split at hs
      · split at hs <;> cases hs <;> exact h.frame hguarded rfl rfl rfl
      · cases hs
    · cases hs
  | answered i rows t =>
    simp only [SidMapLoader.step, SidMapAction.load, Loader.step] at hs
    split at hs
    · rename_i since hphase
      have hasked : s.asked (.answered i rows t) = some ⟨rows, since, t⟩ := by
        simp only [SidMapLoader.asked, hphase]
      rw [hasked]
      split at hs
      · split at hs
        · rename_i m hm
          cases hs
          obtain ⟨hmap, husable⟩ := Option.filter_eq_some_iff.mp hm
          cases hmap
          exact h.answer hphase (if_pos (of_decide_eq_true husable)).symm hguarded
        · rename_i hm
          cases hs
          have hempty : ¬tickerSids (rows.getD []) ≠ [] := by
            simpa [sidMapRule] using hm
          exact h.answer hphase (if_neg hempty).symm hguarded
      · cases hs
    · cases hs
  | cancel i t =>
    simp only [SidMapLoader.step, SidMapAction.load, Loader.step] at hs
    split at hs
    · rename_i hphase
      have hasked : s.asked (.cancel i t) = none := by
        simp only [SidMapLoader.asked, hphase]
      rw [hasked]
      split at hs
      · cases hs
        exact h.frame hguarded rfl rfl rfl
      · cases hs
    · rename_i since hphase
      have hasked : s.asked (.cancel i t) = some ⟨none, since, t⟩ := by
        simp only [SidMapLoader.asked, hphase]
      rw [hasked]
      split at hs
      · cases hs
        exact h.answer hphase rfl hguarded
      · cases hs
    · cases hs

theorem run_linear {as : List SidMapAction} (h : Linear s calls)
    (hr : run SidMapLoader.step s as = some s') : Linear s' (calls ++ s.askedAll as) := by
  induction as generalizing s calls with
  | nil =>
    cases hr
    exact h.frame h.guarded rfl rfl rfl
  | cons a as ih =>
    obtain ⟨s₁, h₁, h₂⟩ := run_cons.1 hr
    have hrest := ih (step_linear h h₁) h₂
    rwa [List.append_assoc, show (s.asked a).toList ++ s₁.askedAll as = s.askedAll (a :: as) by
      rw [SidMapLoader.askedAll, h₁]
      rfl] at hrest

end Linear

/-! ## 3. Any interleaving -/

/-- **`_ensure_sid_map` under any interleaving**: the globals are at every time what the calls that
    have asked upstream leave when they are run one after another, in the order of their answers;
    a call asks when the one before has its answer, and a map that was stored is not asked for again within
    the day. A call that returns finds the map it needs, unless its own request has failed. -/
theorem sid_map_linearized {now : ℚ} {as : List SidMapAction} {s : SidMapLoader}
    (hr : run SidMapLoader.step (.init now) as = some s) :
    (oneAfterAnother ((SidMapLoader.init now).askedAll as)).allSids = s.value ∧
      (oneAfterAnother ((SidMapLoader.init now).askedAll as)).allSidsAt = s.loadedAt ∧
      ((SidMapLoader.init now).askedAll as).Pairwise (fun earlier later =>
        earlier.answeredAt ≤ later.checkedAt ∧
        (earlier.stored ≠ none → earlier.answeredAt + sidMapTtl ≤ later.checkedAt)) ∧
      ∀ i how m, s.tasks i = .over how m → how ≠ .failed → m ≠ [] := by
  have h : Linear s ((SidMapLoader.init now).askedAll as) := run_linear (linear_init now) hr
  refine ⟨h.sids, h.sidsAt, ?_, fun i how m hi hhow => ?_⟩
  · have hpair : (((SidMapLoader.init now).askedAll as).map fun c =>
        (c.checkedAt, c.answeredAt, c.stored)).Pairwise fun earlier later =>
          earlier.2.1 ≤ later.1 ∧ (earlier.2.2 ≠ none → earlier.2.1 + sidMapTtl ≤ later.1) := by
      rw [h.loads, List.pairwise_map, List.pairwise_reverse]
      refine h.guarded.apart.imp fun hap => ⟨hap.1, fun hstored => ?_⟩
      have hold := of_decide_eq_false (hap.2 (Option.isSome_iff_ne_none.mpr hstored))
      linarith
    exact List.pairwise_map.mp hpair
  · have hans := h.guarded.answers i how m hi
    cases how with
    | peeked noted t => exact of_decide_eq_true hans.2.1
    | fresh noted t => exact of_decide_eq_true hans.2.1
    | loaded =>
      obtain ⟨r, hr, -, hv⟩ := hans
      exact of_decide_eq_true (h.guarded.kept r hr m hv).1
    | failed => exact absurd rfl hhow

/-- Three resolvers: the first one's request fails, the second one's does not, and serves the third. -/
def threeLoads : List SidMapAction :=
  [.call 0 100000, .call 1 100000, .enter 0 100000, .answered 0 none 100001, .enter 1 100001, .call 2 100001,
    .answered 1 (some [⟨"tcs", some "TCS"⟩]) 100002, .enter 2 100003]

theorem sid_map_linearized_three :
    ∃ s, run SidMapLoader.step (.init 100000) threeLoads = some s ∧
      (oneAfterAnother ((SidMapLoader.init 100000).askedAll threeLoads)).allSids = s.value ∧
      s.tasks 2 = .over (.fresh 100002 100003) [("TCS", "TCS")] :=
  ⟨_, rfl, (@sid_map_linearized 100000 threeLoads _ rfl).1, by decide +kernel⟩

end Tickertape

end BharatTicker
