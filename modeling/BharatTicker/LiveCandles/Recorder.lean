/-
  File:      BharatTicker/LiveCandles/Recorder.lean
  Subject:   RECORDERS (`engine/live_candles.py`: `ensure_recorder`, `_record_loop`), for one key.

  A recorder is a task that suspends in the upstream fetch, in a flush that writes to the database,
  and in its sleep. `ensure_recorder` suspends nowhere: nothing is awaited under the lock. Each step
  has one reading of the clock. What a recorder samples is the matter of LiveCandles.lean.

  * `RecorderPhase`, `Recorders` -- where a task stands, and what the engine keeps of it;
  * `ensureRecorder`, `loopTop`, `finish`, `step` -- the steps;
  * `OneRecorder` -- one task at most, and a sampling one as long as there are readers;
  * `FindsSampling` -- the condition; `one_recorder_iff` -- all interleavings;
  * `start_swallowed` -- a start request that meets a task in its final flush.
-/
import BharatTicker.Basis.Run

namespace BharatTicker

open Basis

-- the concrete runs below compute with rationals
unseal Rat.add Rat.mul Rat.sub Rat.inv

/-! ## 1. State -/

/-- `IDLE_TTL_S`. -/
def idleTtl : ℚ := 120

/-- `STORE_FLUSH_INTERVAL_S`. -/
structure RecorderSettings where
  flushInterval : ℚ := 30

/-- How `flush_live_to_store` begins: there is no database, or nothing to write, or the writing is
    awaited. `build` is called but in the first case. -/
inductive FlushStart where
  | offline
  | nothing
  | writing
  deriving DecidableEq, Repr

/-- What a task waits for; `last_flush` from the loop on. -/
inductive RecorderPhase where
  | scheduled
  | fetching (lastFlush : ℚ)
  | flushing (lastFlush : ℚ)
  | sleeping (lastFlush : ℚ)
  /-- In its `finally` block. -/
  | stopping
  deriving DecidableEq, Repr

/-- The tasks that are not done, `_tasks.get(key)`, `_last_read.get(key, 0)`, and the clock; ghosts:
    whether `ensure_recorder` has returned, and when a reader has last read. -/
structure Recorders where
  tasks : ℕ → Option RecorderPhase := fun _ => none
  registered : Option ℕ := none
  fresh : ℕ := 0
  lastRead : ℚ := 0
  ensured : Bool := false
  readAt : ℚ := 0
  now : ℚ := 0

inductive RecorderAction where
  | ensure
  /-- `build` or `latest_tick`, called by a reader. -/
  | read
  /-- The task comes to the top of its loop; the flush is the final one, if it is made. -/
  | wake (i : ℕ) (flush : FlushStart)
  /-- The upstream has answered or raised; the flush is the periodic one, if it is due. -/
  | fetched (i : ℕ) (flush : FlushStart)
  /-- The database has written. -/
  | flushed (i : ℕ)
  deriving DecidableEq, Repr

namespace Recorders

/-! ## 2. Steps -/

variable (cfg : RecorderSettings) (t : ℚ)

def setPhase (i : ℕ) (phase : RecorderPhase) (s : Recorders) : Recorders :=
  { s with tasks := Function.update s.tasks i (some phase) }

/-- `asyncio.create_task`. -/
def create (s : Recorders) : Recorders :=
  { s.setPhase s.fresh .scheduled with registered := some s.fresh, fresh := s.fresh + 1 }

/-- A reader's mark on `_last_read`. -/
def mark (s : Recorders) : Recorders := { s with lastRead := t, readAt := t }

/-- `ensure_recorder`. -/
def ensureRecorder (s : Recorders) : Recorders :=
  let s : Recorders := { s.mark t with ensured := true }
  match s.registered.bind s.tasks with
  | some _ => s
  | none => s.create

/-- `flush_live_to_store` up to the database. -/
def startFlush (flush : FlushStart) (s : Recorders) : Recorders :=
  match flush with
  | .offline => s
  | .nothing | .writing => { s with lastRead := t }

/-- `self._tasks.pop(key, None)`, and the task is done. -/
def finish (i : ℕ) (s : Recorders) : Recorders :=
  { s with tasks := Function.update s.tasks i none, registered := none }

/-- The idle check, and what follows it up to the next suspension. -/
def loopTop (i : ℕ) (lastFlush : ℚ) (flush : FlushStart) (s : Recorders) : Recorders :=
  if idleTtl < t - s.lastRead then
    match flush with
    | .writing => (s.startFlush t .writing).setPhase i .stopping
    | flush => (s.startFlush t flush).finish i
  else s.setPhase i (.fetching lastFlush)

/-- The periodic flush, if it is due. -/
def afterFetch (i : ℕ) (lastFlush : ℚ) (flush : FlushStart) (s : Recorders) : Recorders :=
  if cfg.flushInterval ≤ t - lastFlush then
    match flush with
    | .writing => (s.startFlush t .writing).setPhase i (.flushing t)
    | flush => (s.startFlush t flush).setPhase i (.sleeping t)
  else s.setPhase i (.sleeping lastFlush)

def perform (s : Recorders) : RecorderAction → Option Recorders
  | .ensure => some (s.ensureRecorder t)
  | .read => some (s.mark t)
  | .wake i flush =>
    match s.tasks i with
    | some .scheduled => some (s.loopTop t i t flush)
    | some (.sleeping lastFlush) => some (s.loopTop t i lastFlush flush)
    | _ => none
  | .fetched i flush =>
    match s.tasks i with
    | some (.fetching lastFlush) => some (s.afterFetch cfg t i lastFlush flush)
    | _ => none
  | .flushed i =>
    match s.tasks i with
    | some (.flushing lastFlush) => some (s.setPhase i (.sleeping lastFlush))
    | some .stopping => some (s.finish i)
    | _ => none

/-- An action at a time that is not before the last one's. -/
def step (s : Recorders) (a : RecorderAction × ℚ) : Option Recorders :=
  if s.now ≤ a.2 then (s.perform cfg a.2 a.1).map fun s' => { s' with now := a.2 } else none

/-! ## 3. The law and the condition -/

/-- A task that is in its sampling loop, or about to enter it. -/
def Sampling (s : Recorders) : Prop := ∃ i phase, s.tasks i = some phase ∧ phase ≠ .stopping

/-- **The law.** -/
structure OneRecorder (s : Recorders) : Prop where
  single : ∀ i j, s.tasks i ≠ none → s.tasks j ≠ none → i = j
  sampling : s.ensured = true → s.now - s.readAt ≤ idleTtl → s.Sampling

/-- **The condition.** A start request does not meet a task in its final flush, and a read that
    follows a start request meets a sampling task. -/
def FindsSampling (s : Recorders) (a : RecorderAction × ℚ) : Prop :=
  match a.1 with
  | .ensure => ∀ i, s.tasks i ≠ some .stopping
  | .read => s.ensured = true → s.Sampling
  | _ => True

/-- What holds of every interleaving: the task that is not done is the registered one, and readers
    are not later than `_last_read`. -/
structure Registered (s : Recorders) : Prop where
  alive : ∀ i, s.tasks i ≠ none → s.registered = some i
  marked : s.readAt ≤ s.lastRead
  past : s.lastRead ≤ s.now

/-! ## 4. One step -/

section Step

variable {cfg : RecorderSettings} {t : ℚ} {s s' : Recorders} {i : ℕ} {phase : RecorderPhase}
  {flush : FlushStart}

/-- A step of a task: it goes on sampling, or it is on its way out, as its last readers are too long
    ago or as it has been before. -/
structure TaskStep (t : ℚ) (s s' : Recorders) (i : ℕ) (phase : RecorderPhase) : Prop where
  before : s.tasks i = some phase
  readAt : s'.readAt = s.readAt
  ensured : s'.ensured = s.ensured
  lastRead : s'.lastRead = s.lastRead ∨ s'.lastRead = t
  after : (∃ phase', phase ≠ .stopping ∧ phase' ≠ .stopping ∧
      s'.tasks = Function.update s.tasks i (some phase') ∧ s'.registered = s.registered) ∨
    ((phase = .stopping ∨ idleTtl < t - s.lastRead) ∧
      ((s'.tasks = Function.update s.tasks i (some .stopping) ∧ s'.registered = s.registered) ∨
        (s'.tasks = Function.update s.tasks i none ∧ s'.registered = none)))

theorem loopTop_step {lastFlush : ℚ} (h : s.tasks i = some phase) (hp : phase ≠ .stopping) :
    TaskStep t s (s.loopTop t i lastFlush flush) i phase := by
  unfold loopTop
  split
  · rename_i hidle
    cases flush with
    | offline => exact ⟨h, rfl, rfl, .inl rfl, .inr ⟨.inr hidle, .inr ⟨rfl, rfl⟩⟩⟩
    | nothing => exact ⟨h, rfl, rfl, .inr rfl, .inr ⟨.inr hidle, .inr ⟨rfl, rfl⟩⟩⟩
    | writing => exact ⟨h, rfl, rfl, .inr rfl, .inr ⟨.inr hidle, .inl ⟨rfl, rfl⟩⟩⟩
  · exact ⟨h, rfl, rfl, .inl rfl, .inl ⟨_, hp, by simp, rfl, rfl⟩⟩

theorem afterFetch_step {lastFlush : ℚ} (h : s.tasks i = some phase) (hp : phase ≠ .stopping) :
    TaskStep t s (s.afterFetch cfg t i lastFlush flush) i phase := by
  unfold afterFetch
  split
  · cases flush with
    | offline => exact ⟨h, rfl, rfl, .inl rfl, .inl ⟨_, hp, by simp, rfl, rfl⟩⟩
    | nothing => exact ⟨h, rfl, rfl, .inr rfl, .inl ⟨_, hp, by simp, rfl, rfl⟩⟩
    | writing => exact ⟨h, rfl, rfl, .inr rfl, .inl ⟨_, hp, by simp, rfl, rfl⟩⟩
  · exact ⟨h, rfl, rfl, .inl rfl, .inl ⟨_, hp, by simp, rfl, rfl⟩⟩

/-- What an action can do. -/
theorem perform_cases {a : RecorderAction} (h : s.perform cfg t a = some s') :
    (a = .ensure ∧ s' = s.ensureRecorder t) ∨ (a = .read ∧ s' = s.mark t) ∨
      (a ≠ .ensure ∧ a ≠ .read ∧ ∃ i phase, TaskStep t s s' i phase) := by
  cases a with
  | ensure => exact .inl ⟨rfl, (Option.some.inj h).symm⟩
  | read => exact .inr (.inl ⟨rfl, (Option.some.inj h).symm⟩)
  | wake i flush =>
    refine .inr (.inr ⟨by simp, by simp, i, ?_⟩)
    simp only [perform] at h
    split at h
    · cases h
      exact ⟨_, loopTop_step ‹_› (by simp)⟩
    · cases h
      exact ⟨_, loopTop_step ‹_› (by simp)⟩
    · cases h
  | fetched i flush =>
    refine .inr (.inr ⟨by simp, by simp, i, ?_⟩)
    simp only [perform] at h
    split at h
    · cases h
      exact ⟨_, afterFetch_step ‹_› (by simp)⟩
    · cases h
  | flushed i =>
    refine .inr (.inr ⟨by simp, by simp, i, ?_⟩)
    simp only [perform] at h
    split at h
    · rename_i lastFlush hi
      cases h
      exact ⟨_, hi, rfl, rfl, .inl rfl, .inl ⟨_, by simp, by simp, rfl, rfl⟩⟩
    · rename_i hi
      cases h
      exact ⟨_, hi, rfl, rfl, .inl rfl, .inr ⟨.inl rfl, .inr ⟨rfl, rfl⟩⟩⟩
    · cases h

/-- A start request counts as a read. -/
theorem ensureRecorder_reads : (s.ensureRecorder t).readAt = t ∧
    (s.ensureRecorder t).lastRead = t ∧ (s.ensureRecorder t).ensured = true := by
  unfold ensureRecorder
  dsimp only
  split <;> exact ⟨rfl, rfl, rfl⟩

/-- The task that `ensure_recorder` finds not done, or else none is alive. -/
theorem ensureRecorder_cases (h : Registered s) :
    (∃ i phase, s.tasks i = some phase ∧ (s.ensureRecorder t).tasks = s.tasks ∧
      (s.ensureRecorder t).registered = s.registered) ∨
    ((∀ i, s.tasks i = none) ∧
      (s.ensureRecorder t).tasks = Function.update s.tasks s.fresh (some .scheduled) ∧
        (s.ensureRecorder t).registered = some s.fresh) := by
  unfold ensureRecorder
  dsimp only
  cases hfound : s.registered.bind s.tasks with
  | some phase =>
    obtain ⟨i, -, hi⟩ := Option.bind_eq_some_iff.mp hfound
    have hfound' : (s.mark t).registered.bind (s.mark t).tasks = some phase := hfound
    rw [hfound']
    exact .inl ⟨i, phase, hi, rfl, rfl⟩
  | none =>
    have hfound' : (s.mark t).registered.bind (s.mark t).tasks = none := hfound
    rw [hfound']
    refine .inr ⟨fun i => ?_, rfl, rfl⟩
    by_contra halive
    rw [h.alive i halive] at hfound
    exact halive hfound

theorem step_cases {a : RecorderAction × ℚ} (h : step cfg s a = some s') :
    s.now ≤ a.2 ∧ ∃ s₁, s.perform cfg a.2 a.1 = some s₁ ∧ s' = { s₁ with now := a.2 } := by
  obtain ⟨hnow, h⟩ := Option.ite_none_right_eq_some.mp h
  obtain ⟨s₁, h₁, rfl⟩ := Option.map_eq_some_iff.mp h
  exact ⟨hnow, s₁, h₁, rfl⟩

/-- The one task there is, of those alive after an update of its own phase. -/
theorem alive_update {left : Option RecorderPhase} (h : Registered s) (hi : s.tasks i ≠ none) {j : ℕ}
    (hj : Function.update s.tasks i left j ≠ none) : j = i ∧ left ≠ none := by
  by_cases hji : j = i
  · subst hji
    rw [Function.update_self] at hj
    exact ⟨rfl, hj⟩
  · rw [Function.update_of_ne hji] at hj
    have hreg := h.alive j hj
    rw [h.alive i hi] at hreg
    exact absurd (Option.some.inj hreg).symm hji

theorem registered_step {a : RecorderAction × ℚ} (h : Registered s) (hs : step cfg s a = some s') :
    Registered s' := by
  obtain ⟨hnow, s₁, hperform, rfl⟩ := step_cases hs
  have hpast : s.lastRead ≤ a.2 := h.past.trans hnow
  rcases perform_cases hperform with ⟨-, rfl⟩ | ⟨-, rfl⟩ | ⟨-, -, i, phase, htask⟩
  · obtain ⟨hread, hlast, -⟩ := @ensureRecorder_reads a.2 s
    refine ⟨?_, le_of_eq (hread.trans hlast.symm), le_of_eq hlast⟩
    rcases ensureRecorder_cases h (t := a.2) with ⟨i, phase, hi, htasks, hreg⟩ | ⟨hnone, htasks, hreg⟩
    · intro j hj
      rw [show ({ s.ensureRecorder a.2 with now := a.2 } : Recorders).registered =
        s.registered from hreg]
      exact h.alive j (htasks ▸ hj)
    · intro j hj
      have hj : (s.ensureRecorder a.2).tasks j ≠ none := hj
      rw [htasks] at hj
      by_cases hjf : j = s.fresh
      · rw [hjf]
        exact hreg
      · rw [Function.update_of_ne hjf] at hj
        exact absurd (hnone j) hj
  · exact ⟨h.alive, le_refl _, le_refl _⟩
  · have hread : s₁.readAt ≤ s₁.lastRead ∧ s₁.lastRead ≤ a.2 := by
      rw [htask.readAt]
      rcases htask.lastRead with e | e
      · rw [e]
        exact ⟨h.marked, hpast⟩
      · rw [e]
        exact ⟨h.marked.trans hpast, le_refl _⟩
    have hi : s.tasks i ≠ none := by
      rw [htask.before]
      simp
    refine ⟨fun j hj => ?_, hread.1, hread.2⟩
    have hj : s₁.tasks j ≠ none := hj
    show s₁.registered = some j
    rcases htask.after with ⟨phase', -, -, htasks, hreg⟩ | ⟨-, ⟨htasks, hreg⟩ | ⟨htasks, -⟩⟩
    · rw [htasks] at hj
      rw [hreg, (alive_update h hi hj).1]
      exact h.alive i hi
    · rw [htasks] at hj
      rw [hreg, (alive_update h hi hj).1]
      exact h.alive i hi
    · rw [htasks] at hj
      exact absurd rfl (alive_update h hi hj).2

theorem Registered.single (h : Registered s) {i j : ℕ} (hi : s.tasks i ≠ none)
    (hj : s.tasks j ≠ none) : i = j := by
  have hij := h.alive i hi
  rw [h.alive j hj] at hij
  exact (Option.some.inj hij).symm

/-- One task at most is alive in every interleaving, so the law is about its sampling. -/
theorem oneRecorder_iff (h : Registered s) : OneRecorder s ↔
    (s.ensured = true → s.now - s.readAt ≤ idleTtl → s.Sampling) :=
  ⟨fun hone => hone.sampling, fun hsampling => ⟨fun _ _ => h.single, hsampling⟩⟩

/-- **A step keeps the law exactly when a start request, or a later read, finds a sampling task.** -/
theorem oneRecorder_step_iff {a : RecorderAction × ℚ} (h : Registered s) (hone : OneRecorder s)
    (hs : step cfg s a = some s') : OneRecorder s' ↔ FindsSampling s a := by
  rw [oneRecorder_iff (registered_step h hs)]
  obtain ⟨hnow, s₁, hperform, rfl⟩ := step_cases hs
  obtain ⟨action, t⟩ := a
  rcases perform_cases hperform with ⟨rfl, rfl⟩ | ⟨rfl, rfl⟩ | ⟨hne, hnr, i, phase, htask⟩
  · obtain ⟨hread, -, hens⟩ := @ensureRecorder_reads t s
    have hpremise : t - (s.ensureRecorder t).readAt ≤ idleTtl := by
      rw [hread, sub_self]
      norm_num [idleTtl]
    rcases ensureRecorder_cases h (t := t) with ⟨i, phase, hi, htasks, -⟩ | ⟨hnone, htasks, -⟩
    · constructor
      · intro hsampling j hj
        obtain ⟨k, phase', hk, hne⟩ := hsampling hens hpremise
        have hk : s.tasks k = some phase' := htasks ▸ hk
        have hkj : k = j := h.single (by rw [hk]; simp) (by rw [hj]; simp)
        rw [hkj, hj] at hk
        exact hne (Option.some.inj hk).symm
      · intro hno _ _
        exact ⟨i, phase, (congrFun htasks i).trans hi, fun e => hno i (e ▸ hi)⟩
    · refine iff_of_true (fun _ _ => ⟨s.fresh, .scheduled, ?_, by simp⟩) fun i e => ?_
      · exact (congrFun htasks s.fresh).trans (Function.update_self _ _ _)
      · rw [hnone i] at e
        cases e
  · have hpremise : t - t ≤ idleTtl := by
      rw [sub_self]
      norm_num [idleTtl]
    exact ⟨fun hsampling hens => hsampling hens hpremise, fun hfinds hens _ => hfinds hens⟩
  · refine iff_of_true (fun hens hfresh => ?_) ?_
    · have hens : s.ensured = true := htask.ensured ▸ hens
      have hfresh : t - s.readAt ≤ idleTtl := htask.readAt ▸ hfresh
      obtain ⟨j, phase', hj, hne⟩ := hone.sampling hens (by linarith)
      have hji : j = i := h.single (by rw [hj]; simp) (by rw [htask.before]; simp)
      rw [hji, htask.before] at hj
      cases hj
      rcases htask.after with ⟨phase', -, hne', htasks, -⟩ | ⟨hout | hidle, -⟩
      · exact ⟨i, phase', (congrFun htasks i).trans (Function.update_self _ _ _), hne'⟩
      · exact absurd hout hne
      · -- readers are not later than `_last_read`
        exact absurd hidle (by linarith [h.marked])
    · unfold FindsSampling
      split <;> simp_all

end Step

/-! ## 5. All interleavings -/

/-- **A reader has exactly one recorder in exactly those interleavings** in which no start request
    meets a task in its final flush and no read after a start request comes when none samples. -/
theorem one_recorder_iff (cfg : RecorderSettings) (actions : List (RecorderAction × ℚ))
    (s : Recorders) (hr : run (step cfg) {} actions = some s) :
    Always (step cfg) OneRecorder {} actions ↔ StepsMeet (step cfg) FindsSampling {} actions := by
  have h0 : Registered {} := ⟨fun i hi => absurd rfl hi, le_refl _, le_refl _⟩
  rw [always_iff_meet (J := Registered) (fun _ _ _ h hs => registered_step h hs)
    (fun _ _ _ h hone hs => oneRecorder_step_iff h hone hs) h0 hr]
  exact and_iff_right ((oneRecorder_iff h0).mpr fun hens => by cases hens)

/-- A reader comes at 1000, reads once, and does not come again: the task ends at 1121. -/
def oneReader : List (RecorderAction × ℚ) :=
  [(.ensure, 1000), (.wake 0 .offline, 1000), (.read, 1000), (.fetched 0 .offline, 1001),
    (.wake 0 .offline, 1001), (.fetched 0 .offline, 1120), (.wake 0 .offline, 1121)]

theorem one_recorder_oneReader : ∃ s, run (step {}) {} oneReader = some s ∧
    Always (step {}) OneRecorder {} oneReader := by
  have hrun : ((run (step {}) {} oneReader).map fun s => s.registered) = some none := by
    decide
  obtain ⟨s, hs, -⟩ := Option.map_eq_some_iff.mp hrun
  refine ⟨s, hs, (one_recorder_iff {} oneReader s hs).mpr ⟨(fun i hi => by cases hi),
    fun s₁ h₁ => ⟨trivial, fun s₂ h₂ => ⟨fun _ => ?_, ?_⟩⟩⟩⟩
  · have hfetching : ((run (step {}) {} (oneReader.take 2)).bind fun s => s.tasks 0) =
        some (.fetching 1000) := by
      decide
    have hrun₂ : run (step {}) {} (oneReader.take 2) = some s₂ :=
      run_cons.2 ⟨s₁, h₁, run_cons.2 ⟨s₂, h₂, rfl⟩⟩
    rw [hrun₂, Option.bind_some] at hfetching
    exact ⟨0, .fetching 1000, hfetching, by simp⟩
  · exact fun _ _ => ⟨trivial, fun _ _ => ⟨trivial, fun _ _ => ⟨trivial, fun _ _ =>
      ⟨trivial, fun _ _ => trivial⟩⟩⟩⟩

/-- A write of the database takes two minutes: the task stops, its own final flush is awaited, and a
    reader comes. -/
def stalled : List (RecorderAction × ℚ) :=
  [(.ensure, 1000), (.wake 0 .offline, 1000), (.fetched 0 .writing, 1030), (.flushed 0, 1151),
    (.wake 0 .writing, 1151), (.ensure, 1152)]

/-- **A start request is swallowed**: the one task is in its final flush, and nothing samples. -/
theorem start_swallowed : ∃ s, run (step {}) {} stalled = some s ∧ s.ensured = true ∧
    s.readAt = s.now ∧ (∀ i, s.tasks i ≠ none → s.tasks i = some .stopping) ∧
      ¬ Always (step {}) OneRecorder {} stalled := by
  have hrun : ((run (step {}) {} stalled).map fun s =>
      (s.registered, s.tasks 0, s.ensured, s.readAt, s.now)) =
        some (some 0, some .stopping, true, 1152, 1152) := by
    decide
  obtain ⟨s, hs, hstate⟩ := Option.map_eq_some_iff.mp hrun
  simp only [Prod.mk.injEq] at hstate
  obtain ⟨hreg, hstopping, hens, hread, hnow⟩ := hstate
  have hregistered : Registered s :=
    run_invariant (fun _ _ _ h hs => registered_step h hs)
      ⟨fun i hi => absurd rfl hi, le_refl _, le_refl _⟩ hs
  have honly : ∀ i, s.tasks i ≠ none → s.tasks i = some .stopping := by
    intro i hi
    have hi0 := hregistered.alive i hi
    rw [hreg] at hi0
    cases hi0
    exact hstopping
  refine ⟨s, hs, hens, hread.trans hnow.symm, honly, fun h => ?_⟩
  have hone : OneRecorder s := always_iff.1 h stalled List.prefix_rfl s hs
  obtain ⟨i, phase, hi, hne⟩ := hone.sampling hens (by
    rw [hread, hnow]
    norm_num [idleTtl])
  have hi' := honly i (by rw [hi]; simp)
  rw [hi] at hi'
  exact hne (Option.some.inj hi')

end Recorders

end BharatTicker
