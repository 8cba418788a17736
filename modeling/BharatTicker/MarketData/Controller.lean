/-
  File:      BharatTicker/MarketData/Controller.lean
  Subject:   ONE PROVIDER STACK FOR ALL CALLERS: `_controller` (`engine/market_data.py`) and
             `connect_all` (`engine/failover.py`).

  `_failover` is built by the first caller that needs it, under `_lock`, and looked at before and after
  the lock is taken. Everything up to `connect_all` is one step; while the providers connect, other
  callers take theirs, and any of them, the builder too, may be cancelled (a request that its client
  has left, `warm` at a shutdown). A stack is told from another one by its builder.

  * `ProviderStack`, `connectAll` -- what is built;
  * `controllerRule`, `BuildAction`, `MarketDataService.step` -- the callers, as tasks of a load
    under a lock;
  * `OneStack`, `step_oneStack`, `step_value` -- what a step keeps;
  * `one_provider_stack` -- any interleaving.
-/
import BharatTicker.Basis.GuardedLoad
import BharatTicker.MarketData

namespace BharatTicker

open Basis

-- the concrete runs below compute with rationals
unseal Rat.add Rat.mul Rat.sub Rat.inv

/-! ## 1. What is built -/

/-- `connect_all`: `connects` says which providers are connected afterwards; what one of them raises is
    not passed on. -/
def FailoverController.connectAll (connects : String → Bool) (fc : FailoverController) :
    FailoverController :=
  fc.providers.foldl (fun fc p => fc.setConnected p.name (connects p.name)) fc

/-- A controller, and the call of `_controller` that has built it. -/
structure ProviderStack where
  builtBy : ℕ
  controller : FailoverController

/-- `if self._failover is not None`, in both places. -/
def controllerRule : LoadRule (Option ProviderStack) where
  usable := Option.isSome
  peeks _ _ := true
  young _ _ := true
  young_mono _ _ _ _ _ := rfl

/-- The calls of `_controller`. -/
inductive BuildAction where
  /-- It is called, and looks at `_failover`. -/
  | call (task : ℕ) (t : ℚ)
  /-- It gets the lock, and looks again. -/
  | enter (task : ℕ) (t : ℚ)
  /-- `connect_all` returns. -/
  | connected (task : ℕ) (connects : String → Bool) (t : ℚ)
  /-- The building raises (an import, a constructor). -/
  | raised (task : ℕ) (t : ℚ)
  | cancel (task : ℕ) (t : ℚ)

/-- As a step of a loader: the stack is the one that the settings ask for. -/
def BuildAction.load (settings : ProviderSettings) :
    BuildAction → LoadAction (Option ProviderStack)
  | .call i t => .call i t
  | .enter i t => .enter i t
  | .connected i connects t =>
    .answered i (some (some ⟨i, (controller settings).connectAll connects⟩)) t
  | .raised i t => .answered i none t
  | .cancel i t => .cancel i t

/-- `MarketDataService`: `value` is `_failover`, `lock` is `_lock`. -/
abbrev MarketDataService := Loader (Option ProviderStack)

namespace MarketDataService

/-- `__init__`. -/
def init (now : ℚ) : MarketDataService := Loader.init now none now

def step (settings : ProviderSettings) (s : MarketDataService) (a : BuildAction) :
    Option MarketDataService :=
  Loader.step controllerRule s (a.load settings)

/-- What a call of `_controller` has returned. -/
def returned (s : MarketDataService) (i : ℕ) : Option ProviderStack :=
  match s.tasks i with
  | .over .failed _ => none
  | .over _ v => v
  | _ => none

end MarketDataService

/-! ## 2. What a step keeps -/

theorem connectAll_providers (connects : String → Bool) (fc : FailoverController) :
    (fc.connectAll connects).providers = fc.providers := by
  have hfold : ∀ (ps : List Provider) (fc : FailoverController),
      (ps.foldl (fun fc p => fc.setConnected p.name (connects p.name)) fc).providers =
        fc.providers := by
    intro ps
    induction ps with
    | nil => exact fun _ => rfl
    | cons p ps ih =>
      intro fc
      rw [List.foldl_cons, ih]
      rfl
  exact hfold fc.providers fc

/-- A stack of the settings, built by `i`. -/
def BuiltFor (settings : ProviderSettings) (i : ℕ) (v : Option ProviderStack) : Prop :=
  ∃ connects, v = some ⟨i, (controller settings).connectAll connects⟩

/-- The invariant: that of a load under a lock, and what has been stored is a stack of the settings. -/
structure OneStack (settings : ProviderSettings) (now : ℚ) (s : MarketDataService) : Prop where
  guarded : Guarded controllerRule (none, now) s
  built : ∀ r ∈ s.loads, ∀ v, r.result = some v → BuiltFor settings r.task v

section Controller

variable {settings : ProviderSettings} {s s' : MarketDataService} {now : ℚ}

theorem oneStack_init (now : ℚ) : OneStack settings now (.init now) where
  guarded := guarded_init now none now
  built _ h := by cases h

/-- **One step of a caller.** -/
theorem step_oneStack {a : BuildAction} (h : OneStack settings now s)
    (hs : MarketDataService.step settings s a = some s') : OneStack settings now s' := by
  refine ⟨step_guarded h.guarded hs, step_loaded h.built (fun i v t e => ?_) hs⟩
  cases a with
  | connected j connects t' =>
    cases e
    exact ⟨connects, rfl⟩
  | call j t' => cases e
  | enter j t' => cases e
  | raised j t' => cases e
  | cancel j t' => cases e

theorem run_oneStack {as : List BuildAction} (h : OneStack settings now s)
    (hr : run (MarketDataService.step settings) s as = some s') : OneStack settings now s' :=
  run_invariant (fun _ _ _ h hs => step_oneStack h hs) h hr

/-- A stack that was held at all was stored by a load, and is the one in `_failover`. -/
theorem OneStack.held_value (h : OneStack settings now s) {stack : ProviderStack} {noted : ℚ}
    (hheld : Held (none, now) s.loads (some stack) noted) : s.value = some stack := by
  rcases hheld with e | ⟨r, hr, hv, -⟩
  · cases e
  · obtain ⟨r', hr', hv', -⟩ :=
      @newest_of_kept _ (none, now) s.loads r hr (by rw [hv]; rfl)
    rw [← h.guarded.stored] at hv'
    have hsame := h.guarded.kept_unique (fun _ _ => rfl) hr hr' (by rw [hv]; rfl) (by rw [hv']; rfl)
    subst hsame
    exact Option.some.inj (hv'.symm.trans hv)

/-- What a call has returned is in `_failover`. -/
theorem OneStack.returned_value (h : OneStack settings now s) {i : ℕ} {stack : ProviderStack}
    (hi : s.returned i = some stack) : s.value = some stack := by
  unfold MarketDataService.returned at hi
  split at hi
  · cases hi
  · rename_i how v hnot hphase
    subst hi
    have hans := h.guarded.answers i how (some stack) hphase
    cases how with
    | peeked noted t => exact h.held_value hans.1
    | fresh noted t => exact h.held_value hans.1
    | loaded =>
      obtain ⟨r, hr, -, hv⟩ := hans
      exact h.held_value (.inr ⟨r, hr, hv, rfl⟩)
    | failed => exact (hnot rfl).elim
  · cases hi

/-- A stack in `_failover` stays there. -/
theorem step_value {a : BuildAction} {stack : ProviderStack} (h : OneStack settings now s)
    (hv : s.value = some stack) (hs : MarketDataService.step settings s a = some s') :
    s'.value = some stack := by
  have hheld := h.guarded.held
  rw [hv] at hheld
  exact (step_oneStack h hs).held_value (hheld.mono (step_suffix hs).subset)

/-- No stack is built once there is one. -/
theorem OneStack.building (h : OneStack settings now s) {i : ℕ} {since : ℚ}
    (hi : s.tasks i = .loading since) : s.value = none := by
  cases hv : s.value with
  | none => rfl
  | some stack =>
    have hheld := h.guarded.held
    rw [hv] at hheld
    rcases hheld with e | ⟨r, hr, hkept, -⟩
    · cases e
    · have hold := ((h.guarded.holder i since hi).2.2 r hr).2 (by rw [hkept]; rfl)
      cases hold

/-- A call that has ended, and not by an exception, has returned a stack. -/
theorem OneStack.returns (h : OneStack settings now s) {i : ℕ} {how : LoadEnding}
    {v : Option ProviderStack} (hi : s.tasks i = .over how v) (hhow : how ≠ .failed) :
    ∃ stack, s.returned i = some stack := by
  have hreturned : s.returned i = v := by
    unfold MarketDataService.returned
    rw [hi]
    cases how with
    | failed => exact absurd rfl hhow
    | peeked noted t => rfl
    | fresh noted t => rfl
    | loaded => rfl
  rw [hreturned]
  refine Option.isSome_iff_exists.mp ?_
  have hans := h.guarded.answers i how v hi
  cases how with
  | peeked noted t => exact hans.2.1
  | fresh noted t => exact hans.2.1
  | loaded =>
    obtain ⟨r, hr, -, hv⟩ := hans
    exact (h.guarded.kept r hr v hv).1
  | failed => exact absurd rfl hhow

end Controller

/-! ## 3. Any interleaving -/

/-- **One provider stack**: in any interleaving of callers, of which any may be cancelled or fail at
    building, whatever calls return is one and the same stack, with the providers that the settings ask
    for, and it stays in `_failover` whatever comes after. Builds do not overlap, and none begins or
    goes on once one has been published. -/
theorem one_provider_stack {settings : ProviderSettings} {now : ℚ} {as : List BuildAction}
    {s : MarketDataService} (hr : run (MarketDataService.step settings) (.init now) as = some s) :
    (∀ i how v, s.tasks i = .over how v → how ≠ .failed → ∃ stack, s.returned i = some stack) ∧
      (∀ i stack, s.returned i = some stack → s.value = some stack) ∧
      (∀ stack, s.value = some stack →
        stack.controller.providers = (controller settings).providers ∧
        (∀ i since, s.tasks i ≠ .loading since) ∧
        ∀ bs s', run (MarketDataService.step settings) s bs = some s' → s'.value = some stack) ∧
      (∀ i j since since', s.tasks i = .loading since → s.tasks j = .loading since' → i = j) ∧
      s.loads.Pairwise fun newer older => older.ended ≤ newer.since ∧ older.result = none := by
  have h : OneStack settings now s := run_oneStack (oneStack_init now) hr
  refine ⟨fun i how v => h.returns, fun i stack => h.returned_value, fun stack hv => ⟨?_, ?_, ?_⟩,
    fun i j since since' => h.guarded.alone, ?_⟩
  · have hheld := h.guarded.held
    rw [hv] at hheld
    rcases hheld with e | ⟨r, hr, hkept, -⟩
    · cases e
    · obtain ⟨connects, e⟩ := h.built r hr (some stack) hkept
      cases e
      exact connectAll_providers connects (controller settings)
  · intro i since hi
    rw [h.building hi] at hv
    cases hv
  · intro bs s' hbs
    have hpair : OneStack settings now s' ∧ s'.value = some stack :=
      run_invariant
        (fun _ _ _ (hI : OneStack settings now _ ∧ _) hs => ⟨step_oneStack hI.1 hs, step_value hI.1 hI.2 hs⟩) ⟨h, hv⟩ hbs
    exact hpair.2
  · refine h.guarded.apart.imp fun hap => ⟨hap.1, ?_⟩
    by_contra hsome
    have hold := hap.2 (Option.isSome_iff_ne_none.mpr hsome)
    cases hold

/-- The first caller is cancelled while the providers connect; the second one builds, and a third one
    gets its stack. -/
def cancelledBuilder : List BuildAction :=
  [.call 0 1, .enter 0 1, .call 1 2, .cancel 0 3, .enter 1 3, .connected 1 (fun _ => true) 4, .call 2 5]

theorem one_provider_stack_cancelled :
    ∃ s, run (MarketDataService.step {}) (.init 0) cancelledBuilder = some s ∧
      ∃ stack, s.returned 2 = some stack ∧ s.value = some stack ∧ stack.builtBy = 1 := by
  refine ⟨_, rfl, _, rfl, ?_, rfl⟩
  exact (@one_provider_stack {} 0 cancelledBuilder _ rfl).2.1 2 _ rfl

end BharatTicker
