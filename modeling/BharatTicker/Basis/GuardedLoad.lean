/-
  File:      BharatTicker/Basis/GuardedLoad.lean
  Subject:   A VALUE LOADED UNDER A LOCK, BY ANY NUMBER OF TASKS. Library: no program fact.

  A task that needs the value may look at it first without the lock. Where that does not do, it waits
  for the lock, looks again, and loads the value itself if it is still not young enough. A load ends
  with a usable value, which is stored with the time, or without one; a task may be cancelled while it
  waits and while it loads. `loads` is a ghost: the loads that have ended, newest first.

  * `LoadRule`, `Loader`, `LoadAction`, `Loader.step` -- the rule, the state, the tasks' steps;
  * `Load`, `Apart`, `Held`, `Answered` -- what is promised about loads and about answers;
  * `Guarded`, `step_guarded`, `run_guarded` -- the invariant;
  * `alone`, `kept_unique` -- one load at a time; a value that stays young is loaded once.
-/
import BharatTicker.Basis.Run

namespace Basis

universe u

/-! ## 1. The tasks -/

/-- When a stored value is taken as it is. -/
structure LoadRule (β : Type u) where
  /-- A value that is there at all. -/
  usable : β → Bool
  /-- Young enough, at the second time, to be taken without the lock, being stored at the first. -/
  peeks : ℚ → ℚ → Bool
  /-- The same for a task that has the lock. -/
  young : ℚ → ℚ → Bool
  young_mono : ∀ a b now, a ≤ b → young a now = true → young b now = true

/-- How a call came by what it returns. -/
inductive LoadEnding where
  /-- The stored value, of `noted`, was young at `t`. -/
  | peeked (noted t : ℚ)
  | fresh (noted t : ℚ)
  /-- It loaded the value itself. -/
  | loaded
  /-- It failed to. -/
  | failed
  deriving DecidableEq, Repr

inductive LoadPhase (β : Type u) where
  | idle
  /-- It waits for the lock. -/
  | waiting
  /-- It has the lock, and looked at the value at `since`. -/
  | loading (since : ℚ)
  | over (how : LoadEnding) (value : β)
  | cancelled
  deriving DecidableEq, Repr

/-- A load that has ended, with the value that it stored, if any. -/
structure Load (β : Type u) where
  task : ℕ
  since : ℚ
  ended : ℚ
  result : Option β
  deriving DecidableEq, Repr

structure Loader (β : Type u) where
  clock : ℚ
  lock : Option ℕ := none
  value : β
  loadedAt : ℚ
  tasks : ℕ → LoadPhase β := fun _ => .idle
  loads : List (Load β) := []

inductive LoadAction (β : Type u) where
  /-- A task calls, and takes its first look. -/
  | call (task : ℕ) (t : ℚ)
  /-- It gets the lock, and looks again. -/
  | enter (task : ℕ) (t : ℚ)
  /-- Its load ends. -/
  | answered (task : ℕ) (result : Option β) (t : ℚ)
  | cancel (task : ℕ) (t : ℚ)

namespace Loader

variable {β : Type u}

/-- Nothing loaded yet: `value`, taken for one of `loadedAt`. -/
def init (now : ℚ) (value : β) (loadedAt : ℚ) : Loader β where
  clock := now
  value := value
  loadedAt := loadedAt

def setTask (s : Loader β) (i : ℕ) (t : ℚ) (phase : LoadPhase β) : Loader β :=
  { s with clock := t, tasks := Function.update s.tasks i phase }

@[simp] theorem setTask_self (s : Loader β) (i : ℕ) (t : ℚ) (phase : LoadPhase β) :
    (s.setTask i t phase).tasks i = phase := Function.update_self ..

theorem setTask_of_ne {s : Loader β} {i j : ℕ} {t : ℚ} {phase : LoadPhase β} (h : j ≠ i) :
    (s.setTask i t phase).tasks j = s.tasks j := Function.update_of_ne h ..

/-- The end of a load: the lock is free again. -/
def close (s : Loader β) (i : ℕ) (since t : ℚ) (result : Option β) (phase : LoadPhase β) : Loader β :=
  { s.setTask i t phase with
    lock := none
    value := result.getD s.value
    loadedAt := if result.isSome then t else s.loadedAt
    loads := ⟨i, since, t, result⟩ :: s.loads }

/-- One step of a task, on a clock that does not run backwards. -/
def step (R : LoadRule β) (s : Loader β) : LoadAction β → Option (Loader β)
  | .call i t =>
    match s.tasks i with
    | .idle =>
      if s.clock ≤ t then
        some (s.setTask i t (if R.usable s.value && R.peeks s.loadedAt t then
          .over (.peeked s.loadedAt t) s.value else .waiting))
      else none
    | _ => none
  | .enter i t =>
    match s.tasks i with
    | .waiting =>
      if s.lock = none ∧ s.clock ≤ t then
        if R.usable s.value && R.young s.loadedAt t then
          some (s.setTask i t (.over (.fresh s.loadedAt t) s.value))
        else some { s.setTask i t (.loading t) with lock := some i }
      else none
    | _ => none
  | .answered i result t =>
    match s.tasks i with
    | .loading since =>
      if s.clock ≤ t then
        match result.filter R.usable with
        | some v => some (s.close i since t (some v) (.over .loaded v))
        | none => some (s.close i since t none (.over .failed s.value))
      else none
    | _ => none
  | .cancel i t =>
    match s.tasks i with
    | .waiting => if s.clock ≤ t then some (s.setTask i t .cancelled) else none
    | .loading since => if s.clock ≤ t then some (s.close i since t none .cancelled) else none
    | _ => none

end Loader

/-! ## 2. What is promised -/

section Promise

variable {β : Type u} (R : LoadRule β) (init : β × ℚ) (loads : List (Load β))

/-- The newer load starts after the end of the older one, and not while what that one stored is
    young. -/
def Apart (newer older : Load β) : Prop :=
  older.ended ≤ newer.since ∧ (older.result.isSome = true → R.young older.ended newer.since = false)

/-- The value was stored at `noted`: by one of the loads, or from the start. -/
def Held (v : β) (noted : ℚ) : Prop :=
  (v, noted) = init ∨ ∃ r ∈ loads, r.result = some v ∧ r.ended = noted

/-- What the ending says of the value that task `i` returns. -/
def Answered (i : ℕ) (v : β) : LoadEnding → Prop
  | .peeked noted t => Held init loads v noted ∧ R.usable v = true ∧ R.peeks noted t = true
  | .fresh noted t => Held init loads v noted ∧ R.usable v = true ∧ R.young noted t = true
  | .loaded => ∃ r ∈ loads, r.task = i ∧ r.result = some v
  | .failed => (∃ r ∈ loads, r.task = i ∧ r.result = none) ∧ ∃ noted, Held init loads v noted

/-- What the newest load that stored anything has stored. -/
def newest : List (Load β) → β × ℚ
  | [] => init
  | r :: rs =>
    match r.result with
    | some v => (v, r.ended)
    | none => newest rs

variable {R init loads}

theorem Held.mono {loads' : List (Load β)} {v : β} {noted : ℚ} (h : Held init loads v noted)
    (hsub : loads ⊆ loads') : Held init loads' v noted := by
  rcases h with e | ⟨r, hr, e⟩
  · exact .inl e
  · exact .inr ⟨r, hsub hr, e⟩

theorem Answered.mono {loads' : List (Load β)} {i : ℕ} {v : β} {how : LoadEnding}
    (h : Answered R init loads i v how) (hsub : loads ⊆ loads') : Answered R init loads' i v how := by
  cases how with
  | peeked noted t => exact ⟨h.1.mono hsub, h.2⟩
  | fresh noted t => exact ⟨h.1.mono hsub, h.2⟩
  | loaded =>
    obtain ⟨r, hr, e⟩ := h
    exact ⟨r, hsub hr, e⟩
  | failed =>
    obtain ⟨⟨r, hr, e⟩, noted, hheld⟩ := h
    exact ⟨⟨r, hsub hr, e⟩, noted, hheld.mono hsub⟩

theorem held_newest : Held init loads (newest init loads).1 (newest init loads).2 := by
  induction loads with
  | nil => exact .inl rfl
  | cons r rs ih =>
    unfold newest
    split
    · rename_i v hv
      exact .inr ⟨r, List.mem_cons_self, hv, rfl⟩
    · exact ih.mono (List.subset_cons_self r rs)

/-- Once a load has stored a value, the newest value is a load's. -/
theorem newest_of_kept {r : Load β} (hr : r ∈ loads) (hkept : r.result.isSome = true) :
    ∃ r' ∈ loads, r'.result = some (newest init loads).1 ∧ r'.ended = (newest init loads).2 := by
  induction loads with
  | nil => cases hr
  | cons r₀ rs ih =>
    unfold newest
    split
    · rename_i v hv
      exact ⟨r₀, List.mem_cons_self, hv, rfl⟩
    · rename_i hnone
      rcases List.mem_cons.mp hr with rfl | hr
      · rw [hnone] at hkept
        cases hkept
      · obtain ⟨r', hr', e⟩ := ih hr
        exact ⟨r', List.mem_cons_of_mem _ hr', e⟩

end Promise

/-! ## 3. The invariant -/

/-- What every interleaving keeps. -/
structure Guarded {β : Type u} (R : LoadRule β) (init : β × ℚ) (s : Loader β) : Prop where
  /-- Who loads has the lock, and looked when no other load was underway and nothing was young. -/
  holder : ∀ i since, s.tasks i = .loading since → s.lock = some i ∧ since ≤ s.clock ∧
    ∀ r ∈ s.loads, r.ended ≤ since ∧ (r.result.isSome = true → R.young r.ended since = false)
  past : ∀ r ∈ s.loads, r.ended ≤ s.clock
  kept : ∀ r ∈ s.loads, ∀ v, r.result = some v → R.usable v = true ∧ r.ended ≤ s.loadedAt
  stored : (s.value, s.loadedAt) = newest init s.loads
  apart : s.loads.Pairwise (Apart R)
  answers : ∀ i how v, s.tasks i = .over how v → Answered R init s.loads i v how

section Guarded

open Loader

variable {β : Type u} {R : LoadRule β} {init : β × ℚ} {s s' : Loader β} {i : ℕ} {t : ℚ}

theorem guarded_init (now : ℚ) (v : β) (noted : ℚ) : Guarded R (v, noted) (.init now v noted) where
  holder _ _ h := by cases h
  past _ h := by cases h
  kept _ h := by cases h
  stored := rfl
  apart := .nil
  answers _ _ _ h := by cases h

/-- The stored value is one that was held. -/
theorem Guarded.held (h : Guarded R init s) : Held init s.loads s.value s.loadedAt := by
  have hnew := @held_newest _ init s.loads
  rwa [← h.stored] at hnew

/-- One load at a time. -/
theorem Guarded.alone (h : Guarded R init s) {j : ℕ} {since since' : ℚ}
    (hi : s.tasks i = .loading since) (hj : s.tasks j = .loading since') : i = j :=
  Option.some.inj ((h.holder i since hi).1.symm.trans (h.holder j since' hj).1)

/-- A task moves on without the lock, to a phase that does not load. -/
theorem Guarded.setTask (h : Guarded R init s) (hclock : s.clock ≤ t) {phase : LoadPhase β}
    (hload : ∀ since, phase ≠ .loading since)
    (hans : ∀ how v, phase = .over how v → Answered R init s.loads i v how) :
    Guarded R init (s.setTask i t phase) := by
  refine ⟨fun j since hj => ?_, fun r hr => (h.past r hr).trans hclock, h.kept, h.stored, h.apart,
    fun j how v hj => ?_⟩
  · by_cases e : j = i
    · subst e
      exact absurd ((setTask_self s _ t _).symm.trans hj) (hload since)
    · obtain ⟨hlock, hsince, hover⟩ := h.holder j since ((setTask_of_ne (t := t) e).symm.trans hj)
      exact ⟨hlock, hsince.trans hclock, hover⟩
  · by_cases e : j = i
    · subst e
      exact hans how v ((setTask_self s _ t _).symm.trans hj)
    · exact h.answers j how v ((setTask_of_ne (t := t) e).symm.trans hj)

/-- What is stored is not young: then nothing that a load has stored is. -/
theorem Guarded.stale (h : Guarded R init s)
    (hold : (R.usable s.value && R.young s.loadedAt t) = false) :
    ∀ r ∈ s.loads, r.result.isSome = true → R.young r.ended t = false := by
  intro r hr hkept
  obtain ⟨r', hr', hvalue, -⟩ := @newest_of_kept _ init s.loads r hr hkept
  rw [← h.stored] at hvalue
  have husable : R.usable s.value = true := (h.kept r' hr' s.value hvalue).1
  rw [husable, Bool.true_and] at hold
  obtain ⟨v, hv⟩ := Option.isSome_iff_exists.mp hkept
  by_contra hyoung
  rw [Bool.not_eq_false] at hyoung
  rw [R.young_mono _ _ t (h.kept r hr v hv).2 hyoung] at hold
  cases hold

/-- **A load starts**: the lock being free, and the stored value not young. -/
theorem Guarded.start (h : Guarded R init s) (hlock : s.lock = none) (hclock : s.clock ≤ t)
    (hold : (R.usable s.value && R.young s.loadedAt t) = false) :
    Guarded R init { s.setTask i t (.loading t) with lock := some i } := by
  refine ⟨fun j since hj => ?_, fun r hr => (h.past r hr).trans hclock, h.kept, h.stored, h.apart,
    fun j how v hj => ?_⟩
  · by_cases e : j = i
    · subst e
      cases (setTask_self s _ t _).symm.trans hj
      exact ⟨rfl, le_refl t, fun r hr => ⟨(h.past r hr).trans hclock, h.stale hold r hr⟩⟩
    · have hfree := (h.holder j since ((setTask_of_ne (t := t) e).symm.trans hj)).1
      rw [hlock] at hfree
      cases hfree
  · by_cases e : j = i
    · subst e
      cases (setTask_self s _ t _).symm.trans hj
    · exact h.answers j how v ((setTask_of_ne (t := t) e).symm.trans hj)

/-- **A load ends**, with a usable value or without one. -/
theorem Guarded.close (h : Guarded R init s) {since : ℚ} (hi : s.tasks i = .loading since)
    (hclock : s.clock ≤ t) {result : Option β} (husable : ∀ v, result = some v → R.usable v = true)
    {phase : LoadPhase β} (hload : ∀ since', phase ≠ .loading since')
    (hans : ∀ how v, phase = .over how v →
      Answered R init (⟨i, since, t, result⟩ :: s.loads) i v how) :
    Guarded R init (s.close i since t result phase) := by
  obtain ⟨hlock, hsince, hover⟩ := h.holder i since hi
  have hpast : ∀ r ∈ s.loads, r.ended ≤ t := fun r hr => (h.past r hr).trans hclock
  refine ⟨fun j since' hj => ?_, fun r hr => ?_, fun r hr v hv => ?_, ?_,
    List.pairwise_cons.mpr ⟨hover, h.apart⟩, fun j how v hj => ?_⟩
  · -- nobody else has the lock
    by_cases e : j = i
    · subst e
      exact absurd ((setTask_self s _ t _).symm.trans hj) (hload since')
    · exact absurd (h.alone ((setTask_of_ne (t := t) e).symm.trans hj) hi) e
  · rcases List.mem_cons.mp hr with rfl | hr
    · exact le_refl t
    · exact hpast r hr
  · show R.usable v = true ∧ r.ended ≤ if result.isSome then t else s.loadedAt
    rcases List.mem_cons.mp hr with rfl | hr
    · replace hv : result = some v := hv
      rw [if_pos (by rw [hv]; rfl)]
      exact ⟨husable v hv, le_refl t⟩
    · obtain ⟨hv', hlate⟩ := h.kept r hr v hv
      refine ⟨hv', ?_⟩
      split
      · exact hpast r hr
      · exact hlate
  · cases result with
    | none => exact h.stored
    | some v => rfl
  · by_cases e : j = i
    · subst e
      exact hans how v ((setTask_self s _ t _).symm.trans hj)
    · exact (h.answers j how v ((setTask_of_ne (t := t) e).symm.trans hj)).mono
        (List.subset_cons_self _ _)

/-- **One step of a task.** -/
theorem step_guarded {a : LoadAction β} (h : Guarded R init s) (hs : s.step R a = some s') :
    Guarded R init s' := by
  cases a with
  | call i t =>
    simp only [Loader.step] at hs
    split at hs
    · split at hs
      · rename_i hclock
        cases hs
        refine h.setTask hclock (fun since e => ?_) fun how v e => ?_
        · split at e <;> cases e
        · split at e
          · rename_i hpeek
            cases e
            obtain ⟨husable, hpeeks⟩ := (Bool.and_eq_true _ _).mp hpeek
            exact ⟨h.held, husable, hpeeks⟩
          · cases e
      · cases hs
    · cases hs
  | enter i t =>
    simp only [Loader.step] at hs
    split at hs
    · split at hs
      · rename_i hwhen
        split at hs
        · rename_i hfresh
          cases hs
          refine h.setTask hwhen.2 (fun _ => nofun) fun how v e => ?_
          cases e
          obtain ⟨husable, hyoung⟩ := (Bool.and_eq_true _ _).mp hfresh
          exact ⟨h.held, husable, hyoung⟩
        · rename_i hold
          cases hs
          exact h.start hwhen.1 hwhen.2 (by simpa using hold)
      · cases hs
    · cases hs
  | answered i result t =>
    simp only [Loader.step] at hs
    split at hs
    · rename_i since hphase
      split at hs
      · rename_i hclock
        split at hs
        · rename_i v hresult
          cases hs
          refine h.close hphase hclock (fun v' e => ?_) (fun _ => nofun) fun how v' e => ?_
          · cases e
            exact (Option.filter_eq_some_iff.mp hresult).2
          · cases e
            exact ⟨_, List.mem_cons_self, rfl, rfl⟩
        · cases hs
          refine h.close hphase hclock (fun v' e => by cases e) (fun _ => nofun) fun how v' e => ?_
          cases e
          exact ⟨⟨_, List.mem_cons_self, rfl, rfl⟩, s.loadedAt,
            h.held.mono (List.subset_cons_self _ _)⟩
      · cases hs
    · cases hs
  | cancel i t =>
    simp only [Loader.step] at hs
    split at hs
    · split at hs
      · rename_i hclock
        cases hs
        exact h.setTask hclock (fun _ => nofun) fun _ _ => nofun
      · cases hs
    · rename_i since hphase
      split at hs
      · rename_i hclock
        cases hs
        exact h.close hphase hclock (fun v' e => by cases e) (fun _ => nofun) fun _ _ => nofun
      · cases hs
    · cases hs

/-- A step adds one load at most, and what that has stored is the answer it got. -/
theorem step_loads {a : LoadAction β} (hs : s.step R a = some s') :
    s'.loads = s.loads ∨ ∃ r, s'.loads = r :: s.loads ∧
      ∀ v, r.result = some v → ∃ t, a = .answered r.task (some v) t := by
  cases a with
  | call i t =>
    simp only [Loader.step] at hs
    split at hs
    · split at hs
      · cases hs
        exact .inl rfl
      · cases hs
    · cases hs
  | enter i t =>
    simp only [Loader.step] at hs
    split at hs
    · split at hs
      · split at hs <;> cases hs <;> exact .inl rfl
      · cases hs
    · cases hs
  | answered i result t =>
    simp only [Loader.step] at hs
    split at hs
    · split at hs
      · split at hs
        · rename_i v hresult
          cases hs
          rw [(Option.filter_eq_some_iff.mp hresult).1]
          refine .inr ⟨_, rfl, fun v' e => ⟨t, ?_⟩⟩
          cases e
          rfl
        · cases hs
          exact .inr ⟨_, rfl, fun v e => by cases e⟩
      · cases hs
    · cases hs
  | cancel i t =>
    simp only [Loader.step] at hs
    split at hs
    · split at hs
      · cases hs
        exact .inl rfl
      · cases hs
    · split at hs
      · cases hs
        exact .inr ⟨_, rfl, fun v e => by cases e⟩
      · cases hs
    · cases hs

/-- No load is forgotten. -/
theorem step_suffix {a : LoadAction β} (hs : s.step R a = some s') : s.loads <:+ s'.loads := by
  rcases step_loads hs with e | ⟨r, e, -⟩
  · rw [e]
  · rw [e]
    exact List.suffix_cons r s.loads

/-- What the answers meet is met by everything a load has stored. -/
theorem step_loaded {P : ℕ → β → Prop} {a : LoadAction β}
    (h : ∀ r ∈ s.loads, ∀ v, r.result = some v → P r.task v)
    (ha : ∀ i v t, a = .answered i (some v) t → P i v) (hs : s.step R a = some s') :
    ∀ r ∈ s'.loads, ∀ v, r.result = some v → P r.task v := by
  rcases step_loads hs with e | ⟨r, e, hanswer⟩
  · rwa [e]
  · rw [e]
    intro r' hr' v hv
    rcases List.mem_cons.mp hr' with rfl | hr'
    · obtain ⟨t, hact⟩ := hanswer v hv
      exact ha _ v t hact
    · exact h r' hr' v hv

/-- **Any interleaving.** -/
theorem run_guarded {now : ℚ} {v : β} {noted : ℚ} {as : List (LoadAction β)}
    (hr : run (Loader.step R) (.init now v noted) as = some s) : Guarded R (v, noted) s :=
  run_invariant (fun _ _ _ h hs => step_guarded h hs) (guarded_init now v noted) hr

/-- **Where a value stays young for good, one load at most has stored one.** -/
theorem Guarded.kept_unique (h : Guarded R init s) (hyoung : ∀ a b, R.young a b = true) {r r' : Load β}
    (hr : r ∈ s.loads) (hr' : r' ∈ s.loads) (hk : r.result.isSome = true)
    (hk' : r'.result.isSome = true) : r = r' := by
  by_contra hne
  have hpair : s.loads.Pairwise fun a b => ¬(a.result.isSome = true ∧ b.result.isSome = true) :=
    h.apart.imp fun hap hboth => by
      have hold := hap.2 hboth.2
      rw [hyoung] at hold
      cases hold
  have : Std.Symm fun a b : Load β => ¬(a.result.isSome = true ∧ b.result.isSome = true) :=
    ⟨fun _ _ hab hba => hab hba.symm⟩
  exact hpair.forall hr hr' hne ⟨hk, hk'⟩

end Guarded

end Basis
