/-
  File:      BharatTicker/Basis/Run.lean
  Subject:   RUNS OF A PARTIAL STEP FUNCTION. Library: no program fact.

  A system is a step function `σ → ε → Option σ` (`none`: the action is not enabled). This file
  holds what every development over such a system needs:

  * `run`, `run_cons` -- the state a list of actions leads to;
  * `StepsMeet` -- every step of a run meets a condition on the state before it;
  * `run_invariant`, `run_invariant_meet` -- the invariant rules; `run_iff_meet` -- the rule for a
    property that is kept exactly when the condition is met; `run_invariant_history` -- the rule for
    what is said of a state and the actions that led to it;
  * `run_filter_meet` -- the rule for two runs, one of them without some actions of the other;
  * `Always`, `always_iff`, `always_meet_iff`, `always_iff_meet` -- a property of every state along a
    run, and the rules for one that a step establishes exactly when it meets the condition;
  * `clocked`, `run_clocked` -- a run whose time stamps do not decrease is a run of the system
    that carries its clock, so that a timed invariant is an ordinary one;
  * `Along`, `along_iff` -- every entry of a history meets a property over the entries before it.
-/
import Mathlib

namespace Basis

universe u v w

variable {σ : Type u} {ε : Type v}

/-! ## 1. Runs -/

/-- The state the actions lead to, taken one after another; `none` as soon as one of them is not
    enabled. -/
def run (step : σ → ε → Option σ) : σ → List ε → Option σ
  | s, [] => some s
  | s, e :: es => (step s e).bind fun s' => run step s' es

/-- Every step of the run meets `C` at the state before it. -/
def StepsMeet (step : σ → ε → Option σ) (C : σ → ε → Prop) : σ → List ε → Prop
  | _, [] => True
  | s, e :: es => C s e ∧ ∀ s', step s e = some s' → StepsMeet step C s' es

/-- On a concrete run the condition can be checked. -/
instance StepsMeet.decidable (step : σ → ε → Option σ) (C : σ → ε → Prop)
    [∀ s e, Decidable (C s e)] : ∀ s es, Decidable (StepsMeet step C s es)
  | _, [] => .isTrue trivial
  | s, e :: es =>
    match h : step s e with
    | none => decidable_of_iff (C s e)
        ⟨fun hC => ⟨hC, fun s' h' => by rw [h] at h'; cases h'⟩, fun hC => hC.1⟩
    | some s' =>
      have := StepsMeet.decidable step C s' es
      decidable_of_iff (C s e ∧ StepsMeet step C s' es)
        ⟨fun hC => ⟨hC.1, fun s'' h' => by
          rw [h] at h'
          cases h'
          exact hC.2⟩, fun hC => ⟨hC.1, hC.2 s' h⟩⟩

section Run

variable {step : σ → ε → Option σ} {C : σ → ε → Prop}

@[simp] theorem run_nil (s : σ) : run step s [] = some s := rfl

theorem run_cons {s s' : σ} {e : ε} {es : List ε} :
    run step s (e :: es) = some s' ↔ ∃ s₁, step s e = some s₁ ∧ run step s₁ es = some s' :=
  Option.bind_eq_some_iff

/-- **The invariant rule for runs whose steps meet a condition.** -/
theorem run_invariant_meet {I : σ → Prop}
    (hstep : ∀ s e s', I s → C s e → step s e = some s' → I s') {es : List ε} {s s' : σ}
    (h0 : I s) (hC : StepsMeet step C s es) (hr : run step s es = some s') : I s' := by
  induction es generalizing s with
  | nil =>
    cases hr
    exact h0
  | cons e es ih =>
    obtain ⟨s₁, h₁, h₂⟩ := run_cons.1 hr
    exact ih (hstep s e s₁ h0 hC.1 h₁) (hC.2 s₁ h₁) h₂

/-- A condition on the actions alone is met if all of them meet it. -/
theorem stepsMeet_of_forall {P : ε → Prop} {es : List ε} (h : ∀ e ∈ es, P e) (s : σ) :
    StepsMeet step (fun _ e => P e) s es := by
  induction es generalizing s with
  | nil => trivial
  | cons e es ih =>
    exact ⟨h e List.mem_cons_self, fun s' _ => ih (fun e' he' => h e' (List.mem_cons_of_mem _ he')) s'⟩

theorem StepsMeet.and {D : σ → ε → Prop} {s : σ} {es : List ε} (h : StepsMeet step C s es)
    (h' : StepsMeet step D s es) : StepsMeet step (fun s e => C s e ∧ D s e) s es := by
  induction es generalizing s with
  | nil => trivial
  | cons e es ih => exact ⟨⟨h.1, h'.1⟩, fun s' hs => ih (h.2 s' hs) (h'.2 s' hs)⟩

/-- Two conditions that agree under an invariant are met by the same runs. -/
theorem stepsMeet_congr {J : σ → Prop} {D : σ → ε → Prop}
    (hJ : ∀ s e s', J s → step s e = some s' → J s') (h : ∀ s e, J s → (C s e ↔ D s e))
    {es : List ε} {s : σ} (h0 : J s) : StepsMeet step C s es ↔ StepsMeet step D s es := by
  induction es generalizing s with
  | nil => exact Iff.rfl
  | cons e es ih =>
    refine and_congr (h s e h0) (forall_congr' fun s' => imp_congr_right fun hs => ?_)
    exact ih (hJ s e s' h0 hs)

/-- The same for conditions that agree on the steps that are taken, on a run that goes through. -/
theorem stepsMeet_congr_run {J : σ → Prop} {D : σ → ε → Prop}
    (hJ : ∀ s e s', J s → step s e = some s' → J s')
    (h : ∀ s e s', J s → step s e = some s' → (C s e ↔ D s e)) {es : List ε} {s s' : σ} (h0 : J s)
    (hr : run step s es = some s') : StepsMeet step C s es ↔ StepsMeet step D s es := by
  induction es generalizing s with
  | nil => exact Iff.rfl
  | cons e es ih =>
    obtain ⟨s₁, h₁, h₂⟩ := run_cons.1 hr
    refine and_congr (h s e s₁ h0 h₁) (forall_congr' fun s₂ => imp_congr_right fun hs => ?_)
    rw [h₁] at hs
    cases hs
    exact ih (hJ s e s₁ h0 h₁) h₂

theorem stepsMeet_true (s : σ) (es : List ε) :
    StepsMeet step (fun _ _ => True) s es :=
  stepsMeet_of_forall (fun _ _ => trivial) s

/-- **The invariant rule**: what holds at the start and is kept by every step holds of every
    state a run reaches. -/
theorem run_invariant {I : σ → Prop} (hstep : ∀ s e s', I s → step s e = some s' → I s')
    {es : List ε} {s s' : σ} (h0 : I s) (hr : run step s es = some s') : I s' :=
  run_invariant_meet (fun s e s' hI _ h => hstep s e s' hI h) h0 (stepsMeet_true s es) hr

/-- **The rule for runs whose steps establish a condition**: where a step keeps `I` exactly when it
    meets `C`, a run keeps `I` exactly when all its steps meet `C`. -/
theorem run_iff_meet {I : σ → Prop} (hstep : ∀ s e s', step s e = some s' → (I s' ↔ I s ∧ C s e))
    {es : List ε} {s s' : σ} (hr : run step s es = some s') :
    I s' ↔ I s ∧ StepsMeet step C s es := by
  induction es generalizing s with
  | nil =>
    cases hr
    exact ⟨fun h => ⟨h, trivial⟩, fun h => h.1⟩
  | cons e es ih =>
    obtain ⟨s₁, h₁, h₂⟩ := run_cons.1 hr
    rw [ih h₂, hstep s e s₁ h₁]
    constructor
    · intro hex
      obtain ⟨⟨hI, hC⟩, hm⟩ := hex
      refine ⟨hI, hC, fun s₂ h => ?_⟩
      rw [h₁] at h
      cases h
      exact hm
    · intro hex
      obtain ⟨hI, hC, hm⟩ := hex
      exact ⟨⟨hI, hC⟩, hm s₁ h₁⟩

theorem run_append {es es' : List ε} {s s' : σ} :
    run step s (es ++ es') = some s' ↔ ∃ s₁, run step s es = some s₁ ∧ run step s₁ es' = some s' := by
  induction es generalizing s with
  | nil => simp
  | cons e es ih =>
    rw [List.cons_append, run_cons]
    refine ⟨fun h => ?_, fun h => ?_⟩
    · obtain ⟨s₁, h₁, h₂⟩ := h
      obtain ⟨s₂, h₃, h₄⟩ := ih.mp h₂
      exact ⟨s₂, run_cons.2 ⟨s₁, h₁, h₃⟩, h₄⟩
    · obtain ⟨s₂, h₂, h₃⟩ := h
      obtain ⟨s₁, h₁, h₄⟩ := run_cons.1 h₂
      exact ⟨s₁, h₁, ih.mpr ⟨s₂, h₄, h₃⟩⟩

/-- **The invariant rule with the history**: what is said of a state may be about the actions that led
    to it. -/
theorem run_invariant_history {I : List ε → σ → Prop}
    (hstep : ∀ es s e s', I es s → step s e = some s' → I (es ++ [e]) s') {es : List ε} {s s' : σ}
    (h0 : I [] s) (hr : run step s es = some s') : I es s' := by
  induction es using List.reverseRecOn generalizing s' with
  | nil =>
    cases hr
    exact h0
  | append_singleton es e ih =>
    obtain ⟨s₁, h₁, h₂⟩ := run_append.1 hr
    obtain ⟨s₂, he, hlast⟩ := run_cons.1 h₂
    cases hlast
    exact hstep es s₁ e s' (ih h₁) he

/-- **The rule for a run and what is left of it without some of its actions**: where an action that is
    dropped keeps a relation on one side, and one that is not keeps it on both, as long as they meet
    `C`, the rest is a run as well, and the relation holds at the ends. -/
theorem run_filter_meet {R : σ → σ → Prop} {keep : ε → Bool}
    (hdrop : ∀ s t e s', R s t → C s e → keep e = false → step s e = some s' → R s' t)
    (hkeep : ∀ s t e s', R s t → C s e → keep e = true → step s e = some s' →
      ∃ t', step t e = some t' ∧ R s' t')
    {es : List ε} {s s' t : σ} (h0 : R s t) (hC : StepsMeet step C s es)
    (hr : run step s es = some s') : ∃ t', run step t (es.filter keep) = some t' ∧ R s' t' := by
  induction es generalizing s t with
  | nil =>
    cases hr
    exact ⟨t, rfl, h0⟩
  | cons e es ih =>
    obtain ⟨s₁, h₁, h₂⟩ := run_cons.1 hr
    cases he : keep e with
    | false =>
      rw [List.filter_cons_of_neg (by simp [he])]
      exact ih (hdrop s t e s₁ h0 hC.1 he h₁) (hC.2 s₁ h₁) h₂
    | true =>
      obtain ⟨t₁, ht₁, hR⟩ := hkeep s t e s₁ h0 hC.1 he h₁
      obtain ⟨t', ht', hR'⟩ := ih hR (hC.2 s₁ h₁) h₂
      rw [List.filter_cons_of_pos he]
      exact ⟨t', run_cons.2 ⟨t₁, ht₁, ht'⟩, hR'⟩

/-- The same, where an action may be dropped at any time. -/
theorem run_filter {R : σ → σ → Prop} {keep : ε → Bool}
    (hdrop : ∀ s t e s', R s t → keep e = false → step s e = some s' → R s' t)
    (hkeep : ∀ s t e s', R s t → C s e → keep e = true → step s e = some s' →
      ∃ t', step t e = some t' ∧ R s' t')
    {es : List ε} {s s' t : σ} (h0 : R s t) (hC : StepsMeet step C s es)
    (hr : run step s es = some s') : ∃ t', run step t (es.filter keep) = some t' ∧ R s' t' :=
  run_filter_meet (fun s t e s' h _ he hs => hdrop s t e s' h he hs) hkeep h0 hC hr

/-- `I` holds of every state along the run, the first and the last included. -/
def Always (step : σ → ε → Option σ) (I : σ → Prop) : σ → List ε → Prop
  | s, [] => I s
  | s, e :: es => I s ∧ ∀ s', step s e = some s' → Always step I s' es

theorem Always.start {I : σ → Prop} {s : σ} {es : List ε} (h : Always step I s es) : I s := by
  cases es with
  | nil => exact h
  | cons e es => exact h.1

theorem Always.mono {I J : σ → Prop} (hIJ : ∀ s, I s → J s) {s : σ} {es : List ε}
    (h : Always step I s es) : Always step J s es := by
  induction es generalizing s with
  | nil => exact hIJ s h
  | cons e es ih => exact ⟨hIJ s h.1, fun s' hs => ih (h.2 s' hs)⟩

/-- The states along a run are those its initial parts lead to. -/
theorem always_iff {I : σ → Prop} {s : σ} {es : List ε} :
    Always step I s es ↔ ∀ pre, pre <+: es → ∀ s', run step s pre = some s' → I s' := by
  induction es generalizing s with
  | nil =>
    constructor
    · intro h pre hpre s' hr
      rw [List.prefix_nil.mp hpre] at hr
      cases hr
      exact h
    · exact fun h => h [] List.prefix_rfl s rfl
  | cons e es ih =>
    constructor
    · intro h pre hpre s' hr
      rcases List.prefix_cons_iff.mp hpre with rfl | ⟨tail, rfl, htail⟩
      · cases hr
        exact h.1
      · obtain ⟨s₁, h₁, h₂⟩ := run_cons.1 hr
        exact ih.mp (h.2 s₁ h₁) tail htail s' h₂
    · intro h
      refine ⟨h [] List.nil_prefix s rfl, fun s₁ h₁ => ih.mpr fun pre hpre s' hr => ?_⟩
      exact h (e :: pre) (List.cons_prefix_cons.mpr ⟨rfl, hpre⟩) s' (run_cons.2 ⟨s₁, h₁, hr⟩)

/-- **The rule for a property of all states and all steps of a run**: where, under an invariant
    `J`, a step from a state with `I` meets `T` and leads to a state with `I` exactly when it meets
    `C`, a run keeps `I` and its steps meet `T` exactly when they all meet `C`. -/
theorem always_meet_iff {I J : σ → Prop} {T : σ → ε → Prop}
    (hJ : ∀ s e s', J s → step s e = some s' → J s')
    (hstep : ∀ s e s', J s → I s → step s e = some s' → (I s' ∧ T s e ↔ C s e))
    {es : List ε} {s s' : σ} (h0 : J s) (hr : run step s es = some s') :
    Always step I s es ∧ StepsMeet step T s es ↔ I s ∧ StepsMeet step C s es := by
  induction es generalizing s with
  | nil => exact Iff.rfl
  | cons e es ih =>
    obtain ⟨s₁, h₁, h₂⟩ := run_cons.1 hr
    have ih₁ := ih (hJ s e s₁ h0 h₁) h₂
    constructor
    · intro h
      obtain ⟨⟨hI, hrest⟩, hT, hmeet⟩ := h
      have hrest : Always step I s₁ es := hrest s₁ h₁
      refine ⟨hI, (hstep s e s₁ h0 hI h₁).mp ⟨hrest.start, hT⟩, fun s₂ hs₂ => ?_⟩
      rw [h₁] at hs₂
      cases hs₂
      exact (ih₁.mp ⟨hrest, hmeet s₁ h₁⟩).2
    · intro h
      obtain ⟨hI, hC, hm⟩ := h
      obtain ⟨hI₁, hT⟩ := (hstep s e s₁ h0 hI h₁).mpr hC
      obtain ⟨hrest, hmeet⟩ := ih₁.mpr ⟨hI₁, hm s₁ h₁⟩
      refine ⟨⟨hI, fun s₂ hs₂ => ?_⟩, hT, fun s₂ hs₂ => ?_⟩
      · rw [h₁] at hs₂
        cases hs₂
        exact hrest
      · rw [h₁] at hs₂
        cases hs₂
        exact hmeet

/-- The same, for a property of the states alone. -/
theorem always_iff_meet {I J : σ → Prop} (hJ : ∀ s e s', J s → step s e = some s' → J s')
    (hstep : ∀ s e s', J s → I s → step s e = some s' → (I s' ↔ C s e))
    {es : List ε} {s s' : σ} (h0 : J s) (hr : run step s es = some s') :
    Always step I s es ↔ I s ∧ StepsMeet step C s es := by
  have h := always_meet_iff (T := fun _ _ => True) hJ
    (fun s e s' hj hI hs => (and_iff_left trivial).trans (hstep s e s' hj hI hs)) h0 hr
  rwa [and_iff_left (stepsMeet_true s es)] at h

end Run

/-! ## 2. Runs with a clock -/

section Clock

variable {τ : Type w} [LinearOrder τ]

/-- The system that carries the time of its newest stamped action: an action stamped before it
    is not enabled. -/
def clocked (step : σ → ε → Option σ) (time : ε → Option τ) (s : σ × τ) (e : ε) :
    Option (σ × τ) :=
  match time e with
  | none => (step s.1 e).map fun s' => (s', s.2)
  | some t => if s.2 ≤ t then (step s.1 e).map fun s' => (s', t) else none

variable {step : σ → ε → Option σ} {time : ε → Option τ} {C : σ → ε → Prop}

/-- One step of the clocked system: a step of the system, the clock not running backwards. -/
theorem clocked_cases {s s' : σ × τ} {e : ε} (h : clocked step time s e = some s') :
    step s.1 e = some s'.1 ∧ s.2 ≤ s'.2 ∧ ∀ t, time e = some t → s'.2 = t := by
  unfold clocked at h
  split at h
  · rename_i ht
    obtain ⟨s₁, h₁, rfl⟩ := Option.map_eq_some_iff.mp h
    exact ⟨h₁, le_refl _, fun t e => by rw [ht] at e; cases e⟩
  · rename_i t ht
    split at h
    · rename_i hle
      obtain ⟨s₁, h₁, rfl⟩ := Option.map_eq_some_iff.mp h
      refine ⟨h₁, hle, fun t' e => ?_⟩
      rw [ht] at e
      exact Option.some.inj e
    · cases h

/-- **A run with non-decreasing stamps is a run of the clocked system.** -/
theorem run_clocked (time : ε → Option τ) (t₀ : τ) {es : List ε} {s s' : σ}
    (hmono : (es.filterMap time).Pairwise (· ≤ ·)) (h0 : ∀ t ∈ es.filterMap time, t₀ ≤ t)
    (hr : run step s es = some s') :
    ∃ t', run (clocked step time) (s, t₀) es = some (s', t') := by
  induction es generalizing s t₀ with
  | nil =>
    cases hr
    exact ⟨t₀, rfl⟩
  | cons e es ih =>
    obtain ⟨s₁, h₁, h₂⟩ := run_cons.1 hr
    cases ht : time e with
    | none =>
      rw [List.filterMap_cons_none ht] at hmono h0
      obtain ⟨t', h'⟩ := ih t₀ hmono h0 h₂
      exact ⟨t', run_cons.2 ⟨(s₁, t₀), by simp [clocked, ht, h₁], h'⟩⟩
    | some t =>
      rw [List.filterMap_cons_some ht] at hmono h0
      obtain ⟨hle, hmono⟩ := List.pairwise_cons.mp hmono
      have hle₀ : t₀ ≤ t := h0 t List.mem_cons_self
      obtain ⟨t', h'⟩ := ih t hmono hle h₂
      exact ⟨t', run_cons.2 ⟨(s₁, t), by simp [clocked, ht, h₁, hle₀], h'⟩⟩

/-- Non-decreasing stamps have a time to start from. -/
theorem exists_clock [Nonempty τ] {l : List τ} (hmono : l.Pairwise (· ≤ ·)) :
    ∃ t₀, ∀ t ∈ l, t₀ ≤ t := by
  cases l with
  | nil => exact ⟨Classical.arbitrary τ, fun t ht => by cases ht⟩
  | cons a l =>
    refine ⟨a, fun t ht => ?_⟩
    rcases List.mem_cons.mp ht with rfl | ht
    · exact le_refl t
    · exact (List.pairwise_cons.mp hmono).1 t ht

/-- A condition every step of a run meets is met by every step of the clocked run. -/
theorem stepsMeet_clocked {es : List ε} {s : σ} {t : τ} (h : StepsMeet step C s es) :
    StepsMeet (clocked step time) (fun s e => C s.1 e) (s, t) es := by
  induction es generalizing s t with
  | nil => trivial
  | cons e es ih => exact ⟨h.1, fun s' hs => ih (h.2 s'.1 (clocked_cases hs).1)⟩

end Clock

/-! ## 3. Histories, newest entry first -/

section History

variable {α : Type u}

/-- Every entry meets `P` over the entries before it (those further down the list). -/
def Along (P : α → List α → Prop) : List α → Prop
  | [] => True
  | a :: l => P a l ∧ Along P l

variable {P : α → List α → Prop}

theorem along_iff {l : List α} :
    Along P l ↔ ∀ (post : List α) (a : α) (pre : List α), l = post ++ a :: pre → P a pre := by
  induction l with
  | nil => exact ⟨fun _ post a pre h => by simp at h, fun _ => trivial⟩
  | cons b l ih =>
    constructor
    · intro hex post a pre h
      obtain ⟨hb, hl⟩ := hex
      cases post with
      | nil =>
        obtain ⟨rfl, rfl⟩ := List.cons.inj h
        exact hb
      | cons c post => exact ih.mp hl post a pre (List.cons.inj h).2
    · intro h
      refine ⟨h [] b l rfl, ih.mpr fun post a pre e => h (b :: post) a pre ?_⟩
      rw [e]
      rfl

end History

end Basis
