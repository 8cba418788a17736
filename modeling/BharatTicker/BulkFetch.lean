/-
  File:      BharatTicker/BulkFetch.lean
  Subject:   MANY SYMBOLS AT ONCE: `fetch_bulk` of the live feeds and of the two scrapers
             (`providers/groww.py`, `nse_live.py`, `bse_scraper.py`, `nse_scraper.py`).

  One task a symbol, which takes a permit of a semaphore, calls `fetch_quote`, and keeps the tick or
  forgets the error. The feeds gather all tasks, the scrapers five at a time, with a pause after each
  five. Tasks go on in any order, calls end in any order, and each step has its time. `asked` and
  `ended` are ghosts: when `fetch_quote` was called for a symbol, and what came of it.

  * `BulkPlan`, `growwBulk`, `nseLiveBulk`, `bseScraperBulk`, `nseScraperBulk` -- the four of them;
  * `BulkStage`, `batches`, `BulkPlan.stages` -- what the caller awaits, one after another;
  * `BulkFetch`, `BulkAction`, `step` -- the caller and its tasks;
  * `tasksOf`, `sleeps`, `pausesBefore` and their lemmas -- the stages;
  * `BulkInv`, `step_bulkInv` -- what a step keeps; `run_done`, `BulkInv.goes_on` -- and that it goes on;
  * `bulk_fetch_runs` -- every run.
-/
import BharatTicker.Basis.Run
import BharatTicker.Basis.Semaphore
import BharatTicker.Failover

namespace BharatTicker

open Basis

/-! ## 1. The stages -/

/-- How many calls may be underway, and whether the tasks are gathered five at a time. -/
structure BulkPlan where
  permits : ℤ
  batched : Bool
  deriving DecidableEq, Repr

/-- `asyncio.Semaphore(min(settings.scrape_concurrency, 8))`. -/
def growwBulk (scrapeConcurrency : ℤ) : BulkPlan := ⟨min scrapeConcurrency 8, false⟩

def nseLiveBulk (scrapeConcurrency : ℤ) : BulkPlan := ⟨min scrapeConcurrency 8, false⟩

def bseScraperBulk (scrapeConcurrency : ℤ) : BulkPlan := ⟨min scrapeConcurrency 6, true⟩

def nseScraperBulk (scrapeConcurrency : ℤ) : BulkPlan := ⟨scrapeConcurrency, true⟩

/-- What the caller awaits. A task is the place of its symbol in the list. -/
inductive BulkStage where
  | gather (tasks : List ℕ)
  /-- `asyncio.sleep(0.3)`. -/
  | sleep
  deriving DecidableEq, Repr

/-- The loop from symbol `i` on, of which `k` are left; `tasks` are those since the last gather. -/
def batches : ℕ → List ℕ → ℕ → List BulkStage
  | _, tasks, 0 => if tasks = [] then [] else [.gather tasks]
  | i, tasks, k + 1 =>
    if (i + 1) % 5 = 0 then .gather (tasks ++ [i]) :: .sleep :: batches (i + 1) [] k
    else batches (i + 1) (tasks ++ [i]) k

def BulkPlan.stages (plan : BulkPlan) (n : ℕ) : List BulkStage :=
  if plan.batched then batches 0 [] n else [.gather (List.range n)]

/-! ## 2. The caller and its tasks -/

/-- A call of `fetch_quote` for a task. -/
structure CallStart where
  task : ℕ
  time : ℚ
  deriving DecidableEq, Repr

/-- Its end, with a tick or without one. -/
structure CallEnd where
  task : ℕ
  time : ℚ
  answer : Option TickData
  deriving DecidableEq, Repr

/-- `todo` is what is still awaited; its first stage began at `since`. -/
structure BulkFetch where
  clock : ℚ
  sem : Semaphore
  todo : List BulkStage
  since : ℚ
  results : List TickData := []
  asked : List CallStart := []
  ended : List CallEnd := []
  deriving DecidableEq, Repr

inductive BulkAction where
  /-- A task of the stage runs for the first time, up to its call or into the queue. -/
  | begins (task : ℕ) (t : ℚ)
  /-- A task that was woken makes its call. -/
  | resumes (task : ℕ) (t : ℚ)
  /-- `fetch_quote` returns a tick, or raises. -/
  | answered (task : ℕ) (answer : Option TickData) (t : ℚ)
  /-- The gather or the sleep is over. -/
  | moves (t : ℚ)

/-- The tasks of a stage. -/
def BulkStage.tasks : BulkStage → List ℕ
  | .gather tasks => tasks
  | .sleep => []

namespace BulkFetch

/-- The tasks that may run. -/
def current (s : BulkFetch) : List ℕ := (s.todo.head?.map BulkStage.tasks).getD []

/-- The first stage is over at `t`. -/
def stageOver (s : BulkFetch) (t : ℚ) : BulkStage → Bool
  | .gather tasks => tasks.all (· ∈ s.sem.left)
  | .sleep => s.since + 3 / 10 ≤ t

/-- The call starts: a negative number of permits is refused. -/
def init (plan : BulkPlan) (symbols : List String) (now : ℚ) : Option BulkFetch :=
  if 0 ≤ plan.permits then
    some {
      clock := now
      sem := { value := plan.permits.toNat }
      todo := plan.stages symbols.length
      since := now }
  else none

def begins (s : BulkFetch) (i : ℕ) (t : ℚ) : BulkFetch :=
  { s with
    clock := t
    sem := s.sem.acquire i
    asked := if s.sem.locked then s.asked else ⟨i, t⟩ :: s.asked }

def resumes (s : BulkFetch) (i : ℕ) (t : ℚ) : BulkFetch :=
  { s with clock := t, sem := s.sem.resume i, asked := ⟨i, t⟩ :: s.asked }

def answered (s : BulkFetch) (i : ℕ) (answer : Option TickData) (t : ℚ) : BulkFetch :=
  { s with
    clock := t
    sem := s.sem.release i
    results := s.results ++ answer.toList
    ended := s.ended ++ [⟨i, t, answer⟩] }

def moves (s : BulkFetch) (t : ℚ) : BulkFetch :=
  { s with clock := t, todo := s.todo.tail, since := t }

/-- One step, on a clock that does not run backwards. -/
def step (s : BulkFetch) : BulkAction → Option BulkFetch
  | .begins i t =>
    if i ∈ s.current ∧ i ∉ s.sem.arrived ∧ s.clock ≤ t then some (s.begins i t) else none
  | .resumes i t => if i ∈ s.sem.woken ∧ s.clock ≤ t then some (s.resumes i t) else none
  | .answered i answer t =>
    if i ∈ s.sem.holders ∧ s.clock ≤ t then some (s.answered i answer t) else none
  | .moves t =>
    match s.todo with
    | [] => none
    | stage :: _ => if s.stageOver t stage = true ∧ s.clock ≤ t then some (s.moves t) else none

end BulkFetch

/-! ## 3. The tasks and the pauses of the stages -/

def tasksOf (stages : List BulkStage) : List ℕ := stages.flatMap BulkStage.tasks

/-- The sleeps among the stages. -/
def sleeps (stages : List BulkStage) : ℕ := stages.count .sleep

/-- The sleeps before the stage of a task. -/
def pausesBefore (i : ℕ) : List BulkStage → ℕ
  | [] => 0
  | .gather tasks :: rest => if i ∈ tasks then 0 else pausesBefore i rest
  | .sleep :: rest => pausesBefore i rest + 1

section Stages

variable {i j k n : ℕ} {past rest : List BulkStage} {tasks : List ℕ}

@[simp] theorem tasksOf_nil : tasksOf [] = [] := rfl

@[simp] theorem tasksOf_cons (stage : BulkStage) (rest : List BulkStage) :
    tasksOf (stage :: rest) = stage.tasks ++ tasksOf rest := List.flatMap_cons

@[simp] theorem tasksOf_append (past rest : List BulkStage) :
    tasksOf (past ++ rest) = tasksOf past ++ tasksOf rest := List.flatMap_append

@[simp] theorem sleeps_gather (tasks : List ℕ) (rest : List BulkStage) :
    sleeps (.gather tasks :: rest) = sleeps rest := by simp [sleeps]

@[simp] theorem sleeps_sleep (rest : List BulkStage) : sleeps (.sleep :: rest) = sleeps rest + 1 :=
  List.count_cons_self

/-- Behind stages without the task, their sleeps count. -/
theorem pausesBefore_append (h : i ∉ tasksOf past) :
    pausesBefore i (past ++ rest) = sleeps past + pausesBefore i rest := by
  induction past with
  | nil => exact (Nat.zero_add _).symm
  | cons stage past ih =>
    rw [tasksOf_cons, List.mem_append, not_or] at h
    cases stage with
    | gather tasks =>
      have hnot : i ∉ tasks := h.1
      rw [List.cons_append, pausesBefore, if_neg hnot, ih h.2, sleeps_gather]
    | sleep =>
      rw [List.cons_append, pausesBefore, ih h.2, sleeps_sleep]
      omega

/-- Before stages of which one has the task, no others count. -/
theorem pausesBefore_le (h : i ∈ tasksOf past) : pausesBefore i (past ++ rest) ≤ sleeps past := by
  induction past with
  | nil => cases h
  | cons stage past ih =>
    rw [tasksOf_cons, List.mem_append] at h
    cases stage with
    | gather tasks =>
      rw [List.cons_append, pausesBefore, sleeps_gather]
      split
      · exact Nat.zero_le _
      · rename_i hnot
        exact ih (h.resolve_left hnot)
    | sleep =>
      rw [List.cons_append, pausesBefore, sleeps_sleep]
      exact Nat.succ_le_succ (ih (h.resolve_left List.not_mem_nil))

/-- The loop awaits each symbol once, in order. -/
theorem tasksOf_batches : tasksOf (batches i tasks k) = tasks ++ List.range' i k := by
  induction k generalizing i tasks with
  | zero =>
    unfold batches
    split
    · rename_i hnil
      rw [hnil]
      rfl
    · simp [BulkStage.tasks]
  | succ k ih =>
    unfold batches
    split
    · simp [BulkStage.tasks, ih, List.range'_succ]
    · rw [ih, List.append_assoc, List.range'_succ]
      rfl

theorem tasksOf_stages (plan : BulkPlan) (n : ℕ) : tasksOf (plan.stages n) = List.range n := by
  unfold BulkPlan.stages
  split
  · rw [tasksOf_batches, List.nil_append, List.range_eq_range']
  · simp [BulkStage.tasks]

/-- The tasks since the last gather are those since the last multiple of five. -/
theorem range'_snoc (i : ℕ) (h : (i + 1) % 5 ≠ 0) :
    List.range' (i - i % 5) (i % 5) ++ [i] = List.range' (i + 1 - (i + 1) % 5) ((i + 1) % 5) := by
  have hmod : (i + 1) % 5 = i % 5 + 1 := by omega
  have hstart : i + 1 - (i + 1) % 5 = i - i % 5 := by omega
  rw [hstart, hmod, List.range'_concat]
  congr 2
  omega

/-- No gather has more than five tasks. -/
theorem batches_length (h : BulkStage.gather tasks ∈ batches i (List.range' (i - i % 5) (i % 5)) k) :
    tasks.length ≤ 5 := by
  induction k generalizing i with
  | zero =>
    unfold batches at h
    split at h
    · cases h
    · cases List.mem_singleton.mp h
      rw [List.length_range']
      omega
  | succ k ih =>
    unfold batches at h
    split at h
    · rename_i hfull
      rcases List.mem_cons.mp h with h | h
      · cases h
        rw [List.length_append, List.length_range', List.length_singleton]
        omega
      · have hnext : List.range' (i + 1 - (i + 1) % 5) ((i + 1) % 5) = [] := by
          rw [hfull]
          rfl
        rw [← hnext] at h
        exact ih ((List.mem_cons.mp h).resolve_left nofun)
    · rename_i hfull
      rw [range'_snoc i hfull] at h
      exact ih h

/-- A pause after each five. -/
theorem pausesBefore_batches (hj : j ∈ List.range' (i - i % 5) (i % 5 + k)) :
    pausesBefore j (batches i (List.range' (i - i % 5) (i % 5)) k) = j / 5 - i / 5 := by
  induction k generalizing i with
  | zero =>
    obtain ⟨hge, hlt⟩ := List.mem_range'_1.mp hj
    have hne : List.range' (i - i % 5) (i % 5) ≠ [] := by
      rw [ne_eq, List.range'_eq_nil_iff]
      omega
    unfold batches
    rw [if_neg hne, pausesBefore, if_pos (show j ∈ List.range' (i - i % 5) (i % 5) from hj)]
    omega
  | succ k ih =>
    obtain ⟨hge, hlt⟩ := List.mem_range'_1.mp hj
    unfold batches
    split
    · rename_i hfull
      rw [pausesBefore]
      split
      · rename_i hmem
        simp only [List.mem_append, List.mem_range'_1, List.mem_singleton] at hmem
        omega
      · rename_i hnot
        simp only [List.mem_append, List.mem_range'_1, List.mem_singleton, not_or] at hnot
        have hnext : List.range' (i + 1 - (i + 1) % 5) ((i + 1) % 5) = [] := by
          rw [hfull]
          rfl
        rw [pausesBefore, ← hnext, ih (List.mem_range'_1.mpr ⟨by omega, by omega⟩)]
        omega
    · rename_i hfull
      rw [range'_snoc i hfull, ih (List.mem_range'_1.mpr ⟨by omega, by omega⟩)]
      omega

theorem pausesBefore_stages {plan : BulkPlan} (hplan : plan.batched = true) (hi : i < n) :
    pausesBefore i (plan.stages n) = i / 5 := by
  unfold BulkPlan.stages
  rw [if_pos hplan]
  exact pausesBefore_batches (i := 0) (List.mem_range'_1.mpr ⟨Nat.zero_le _, by omega⟩)

end Stages

/-! ## 4. What a step keeps -/

/-- The invariant. The stages `past` are over. -/
structure BulkInv (limit : ℕ) (script past : List BulkStage) (s : BulkFetch) : Prop where
  sound : s.sem.Sound limit
  stages : script = past ++ s.todo
  finished : ∀ i ∈ tasksOf past, i ∈ s.sem.left
  here : ∀ i ∈ s.sem.arrived, i ∈ tasksOf past ∨ i ∈ s.current
  left : s.sem.left = s.ended.map (·.task)
  asked : (s.asked.map (·.task)).Perm (s.sem.holders ++ s.sem.left)
  results : s.results = s.ended.filterMap (·.answer)
  since : s.since ≤ s.clock
  ended : ∀ e ∈ s.ended, e.time ≤ s.clock
  /-- The pauses since a call of a stage that is over. -/
  rested : ∀ e ∈ s.ended, e.task ∈ tasksOf past →
    e.time + 3 / 10 * ((sleeps past : ℚ) - pausesBefore e.task script) ≤ s.since
  spaced : ∀ a ∈ s.asked, ∀ e ∈ s.ended, pausesBefore e.task script < pausesBefore a.task script →
    e.time + 3 / 10 * ((pausesBefore a.task script : ℚ) - pausesBefore e.task script) ≤ a.time

section Inv

variable {limit : ℕ} {script past : List BulkStage} {s s' : BulkFetch} {i : ℕ} {t : ℚ}

theorem mem_current_tasksOf (h : i ∈ s.current) : i ∈ tasksOf s.todo := by
  unfold BulkFetch.current at h
  cases htodo : s.todo with
  | nil =>
    rw [htodo] at h
    cases h
  | cons stage rest =>
    rw [htodo] at h
    exact List.mem_append_left _ h

theorem pausesBefore_current (h : i ∈ s.current) : pausesBefore i s.todo = 0 := by
  unfold BulkFetch.current at h
  cases htodo : s.todo with
  | nil => rfl
  | cons stage rest =>
    rw [htodo] at h
    cases stage with
    | gather tasks => exact if_pos h
    | sleep => cases h

/-- A task of the stage has the pauses before it that there were. -/
theorem BulkInv.place (h : BulkInv limit script past s) (hnodup : (tasksOf script).Nodup)
    (hi : i ∈ s.current) : i ∉ tasksOf past ∧ pausesBefore i script = sleeps past := by
  rw [h.stages, tasksOf_append] at hnodup
  have hpast : i ∉ tasksOf past := fun hp =>
    (List.nodup_append'.mp hnodup).2.2 hp (mem_current_tasksOf hi)
  refine ⟨hpast, ?_⟩
  rw [h.stages, pausesBefore_append hpast, pausesBefore_current hi, Nat.add_zero]

/-- A task that has arrived and not left is one of the stage. -/
theorem BulkInv.mem_current (h : BulkInv limit script past s) (hi : i ∈ s.sem.arrived)
    (hl : i ∉ s.sem.left) : i ∈ s.current :=
  (h.here i hi).resolve_left fun hp => hl (h.finished i hp)

/-- What is asked now comes late enough after the calls of earlier stages. -/
theorem BulkInv.late (h : BulkInv limit script past s) (hnodup : (tasksOf script).Nodup)
    (hi : i ∈ s.current) (ht : s.clock ≤ t) {e : CallEnd} (he : e ∈ s.ended)
    (hlt : pausesBefore e.task script < pausesBefore i script) :
    e.time + 3 / 10 * ((pausesBefore i script : ℚ) - pausesBefore e.task script) ≤ t := by
  have hplace := (h.place hnodup hi).2
  have hleft : e.task ∈ s.sem.left := h.left ▸ List.mem_map_of_mem he
  have hpast : e.task ∈ tasksOf past := by
    have hcome : e.task ∈ s.sem.arrived := h.sound.mem_arrived.mpr (.inr (.inr (.inl hleft)))
    refine (h.here e.task hcome).resolve_right fun hc => ?_
    rw [hplace, (h.place hnodup hc).2] at hlt
    exact lt_irrefl _ hlt
  rw [hplace]
  exact (h.rested e he hpast).trans (h.since.trans ht)

/-- A call starts. -/
theorem BulkInv.spaced_cons (h : BulkInv limit script past s) (hnodup : (tasksOf script).Nodup)
    (hi : i ∈ s.current) (ht : s.clock ≤ t) : ∀ a ∈ (⟨i, t⟩ : CallStart) :: s.asked, ∀ e ∈ s.ended,
      pausesBefore e.task script < pausesBefore a.task script →
        e.time + 3 / 10 * ((pausesBefore a.task script : ℚ) - pausesBefore e.task script) ≤ a.time := by
  intro a ha e he hlt
  rcases List.mem_cons.mp ha with rfl | ha
  · exact h.late hnodup hi ht he hlt
  · exact h.spaced a ha e he hlt

theorem BulkInv.begins (h : BulkInv limit script past s) (hnodup : (tasksOf script).Nodup)
    (hi : i ∈ s.current) (hnew : i ∉ s.sem.arrived) (ht : s.clock ≤ t) :
    BulkInv limit script past (s.begins i t) where
  sound := h.sound.acquire hnew
  stages := h.stages
  finished j hj := by
    show j ∈ (s.sem.acquire i).left
    rw [Semaphore.acquire_left]
    exact h.finished j hj
  here j hj := by
    replace hj : j ∈ (s.sem.acquire i).arrived := hj
    rw [Semaphore.acquire_arrived, List.mem_append, List.mem_singleton] at hj
    rcases hj with hj | rfl
    · exact h.here j hj
    · exact .inr hi
  left := Semaphore.acquire_left.trans h.left
  asked := by
    show ((if s.sem.locked = true then s.asked else ⟨i, t⟩ :: s.asked).map (·.task)).Perm
      ((s.sem.acquire i).holders ++ (s.sem.acquire i).left)
    rw [Semaphore.acquire_holders, Semaphore.acquire_left]
    cases s.sem.locked with
    | true => exact h.asked
    | false => exact h.asked.cons i
  results := h.results
  since := h.since.trans ht
  ended e he := (h.ended e he).trans ht
  rested := h.rested
  spaced a ha := by
    replace ha : a ∈ if s.sem.locked = true then s.asked else ⟨i, t⟩ :: s.asked := ha
    cases hl : s.sem.locked with
    | true =>
      rw [hl] at ha
      exact h.spaced a ha
    | false =>
      rw [hl] at ha
      exact h.spaced_cons hnodup hi ht a ha

theorem BulkInv.resumes (h : BulkInv limit script past s) (hnodup : (tasksOf script).Nodup)
    (hi : i ∈ s.sem.woken) (ht : s.clock ≤ t) : BulkInv limit script past (s.resumes i t) where
  sound := h.sound.resume hi
  stages := h.stages
  finished j hj := by
    show j ∈ (s.sem.resume i).left
    rw [Semaphore.resume_left]
    exact h.finished j hj
  here j hj := by
    replace hj : j ∈ (s.sem.resume i).arrived := hj
    rw [Semaphore.resume_arrived] at hj
    exact h.here j hj
  left := Semaphore.resume_left.trans h.left
  asked := by
    show (i :: s.asked.map (·.task)).Perm ((s.sem.resume i).holders ++ (s.sem.resume i).left)
    rw [Semaphore.resume_holders, Semaphore.resume_left]
    exact h.asked.cons i
  results := h.results
  since := h.since.trans ht
  ended e he := (h.ended e he).trans ht
  rested := h.rested
  spaced := by
    have hnot := h.sound.woken_new hi
    rw [List.mem_append, not_or] at hnot
    exact h.spaced_cons hnodup (h.mem_current (h.sound.mem_arrived.mpr (.inl hi)) hnot.2) ht

theorem BulkInv.answered (h : BulkInv limit script past s) (hnodup : (tasksOf script).Nodup)
    (hi : i ∈ s.sem.holders) (ht : s.clock ≤ t) (answer : Option TickData) :
    BulkInv limit script past (s.answered i answer t) := by
  have hcurrent : i ∈ s.current :=
    h.mem_current (h.sound.mem_arrived.mpr (.inr (.inl hi))) (h.sound.not_left hi)
  obtain ⟨hpast, hplace⟩ := h.place hnodup hcurrent
  have hleft : (s.answered i answer t).sem.left = s.sem.left ++ [i] := Semaphore.release_left
  have harrived : (s.answered i answer t).sem.arrived = s.sem.arrived := Semaphore.release_arrived
  have hends : (s.answered i answer t).ended = s.ended ++ [⟨i, t, answer⟩] := rfl
  refine ⟨h.sound.release hi, h.stages, fun j hj => ?_, fun j hj => ?_, ?_, ?_, ?_, h.since.trans ht,
    fun e he => ?_, fun e he hp => ?_, fun a ha e he hlt => ?_⟩
  · rw [hleft]
    exact List.mem_append_left _ (h.finished j hj)
  · rw [harrived] at hj
    exact h.here j hj
  · rw [hleft, hends, h.left, List.map_append, List.map_singleton]
  · show (s.asked.map (·.task)).Perm ((s.sem.release i).holders ++ (s.sem.release i).left)
    rw [Semaphore.release_holders, Semaphore.release_left, ← List.append_assoc]
    exact h.asked.trans (((List.perm_cons_erase hi).append_right _).trans
      (List.perm_append_singleton i _).symm)
  · show s.results ++ answer.toList = _
    rw [hends, List.filterMap_append, ← h.results]
    cases answer <;> rfl
  · rw [hends, List.mem_append, List.mem_singleton] at he
    rcases he with he | rfl
    · exact (h.ended e he).trans ht
    · exact le_refl t
  · rw [hends, List.mem_append, List.mem_singleton] at he
    rcases he with he | rfl
    · exact h.rested e he hp
    · exact absurd hp hpast
  · rw [hends, List.mem_append, List.mem_singleton] at he
    rcases he with he | rfl
    · exact h.spaced a ha e he hlt
    · -- nothing of a later stage has been asked
      have hasked : a.task ∈ s.sem.holders ++ s.sem.left :=
        h.asked.mem_iff.mp (List.mem_map_of_mem ha)
      have hcome : a.task ∈ s.sem.arrived := by
        rw [List.mem_append] at hasked
        exact h.sound.mem_arrived.mpr (.inr (hasked.elim .inl fun hl => .inr (.inl hl)))
      have hle : pausesBefore a.task script ≤ sleeps past := by
        rcases h.here a.task hcome with hp | hc
        · rw [h.stages]
          exact pausesBefore_le hp
        · exact (h.place hnodup hc).2.le
      rw [hplace] at hlt
      exact absurd hle (Nat.not_le_of_lt hlt)

/-- A gather is over when all its tasks have left, a sleep after its time. -/
theorem BulkInv.moves (h : BulkInv limit script past s) (hnodup : (tasksOf script).Nodup)
    {stage : BulkStage} {rest : List BulkStage} (htodo : s.todo = stage :: rest)
    (hover : s.stageOver t stage = true) (ht : s.clock ≤ t) :
    BulkInv limit script (past ++ [stage]) (s.moves t) := by
  have htasks : ∀ i ∈ stage.tasks, i ∈ s.sem.left := by
    cases stage with
    | gather tasks =>
      intro i hi
      exact of_decide_eq_true (List.all_eq_true.mp hover i hi)
    | sleep => exact nofun
  have hmem : ∀ i, i ∈ tasksOf (past ++ [stage]) ↔ i ∈ tasksOf past ∨ i ∈ stage.tasks := by
    intro i
    simp
  have hcurrent : s.current = stage.tasks := by
    unfold BulkFetch.current
    rw [htodo]
    rfl
  refine ⟨h.sound, ?_, fun i hi => ?_, fun i hi => .inl ?_, h.left, h.asked, h.results, le_refl t,
    fun e he => (h.ended e he).trans ht, fun e he hp => ?_, h.spaced⟩
  · show script = past ++ [stage] ++ s.todo.tail
    rw [h.stages, htodo, List.append_assoc]
    rfl
  · exact ((hmem i).mp hi).elim (h.finished i) (htasks i)
  · rw [hmem, ← hcurrent]
    exact h.here i hi
  · show e.time + _ ≤ t
    cases stage with
    | gather tasks =>
      have hsleeps : sleeps (past ++ [.gather tasks]) = sleeps past := by simp [sleeps]
      rw [hsleeps]
      rcases (hmem e.task).mp hp with hp | hc
      · exact (h.rested e he hp).trans (h.since.trans ht)
      · rw [(h.place hnodup (hcurrent ▸ hc)).2, sub_self, mul_zero, add_zero]
        exact (h.ended e he).trans ht
    | sleep =>
      have hslept : s.since + 3 / 10 ≤ t := of_decide_eq_true hover
      have hrested := h.rested e he (((hmem e.task).mp hp).resolve_right List.not_mem_nil)
      have hsleeps : sleeps (past ++ [.sleep]) = sleeps past + 1 := by simp [sleeps]
      rw [hsleeps]
      push_cast
      linarith

/-- **One step** of the caller or of a task. -/
theorem step_bulkInv {a : BulkAction} (h : BulkInv limit script past s)
    (hnodup : (tasksOf script).Nodup) (hs : s.step a = some s') :
    ∃ past', BulkInv limit script past' s' := by
  cases a with
  | begins i t =>
    simp only [BulkFetch.step] at hs
    split at hs
    · rename_i hwhen
      cases hs
      exact ⟨past, h.begins hnodup hwhen.1 hwhen.2.1 hwhen.2.2⟩
    · cases hs
  | resumes i t =>
    simp only [BulkFetch.step] at hs
    split at hs
    · rename_i hwhen
      cases hs
      exact ⟨past, h.resumes hnodup hwhen.1 hwhen.2⟩
    · cases hs
  | answered i answer t =>
    simp only [BulkFetch.step] at hs
    split at hs
    · rename_i hwhen
      cases hs
      exact ⟨past, h.answered hnodup hwhen.1 hwhen.2 answer⟩
    · cases hs
  | moves t =>
    simp only [BulkFetch.step] at hs
    split at hs
    · cases hs
    · rename_i stage rest htodo
      split at hs
      · rename_i hwhen
        cases hs
        exact ⟨_, h.moves hnodup htodo hwhen.1 hwhen.2⟩
      · cases hs

end Inv

/-! ## 5. Every run -/

section Runs

variable {limit : ℕ} {script past : List BulkStage} {plan : BulkPlan} {symbols : List String}
  {now : ℚ} {s₀ s s' : BulkFetch} {a : BulkAction} {as : List BulkAction}

theorem init_some (h : BulkFetch.init plan symbols now = some s) : 0 ≤ plan.permits ∧ s =
    { clock := now, sem := { value := plan.permits.toNat }, todo := plan.stages symbols.length,
      since := now } := by
  unfold BulkFetch.init at h
  split at h
  · rename_i hpermits
    cases h
    exact ⟨hpermits, rfl⟩
  · cases h

theorem init_bulkInv (h : BulkFetch.init plan symbols now = some s) :
    BulkInv plan.permits.toNat (plan.stages symbols.length) [] s := by
  obtain ⟨-, rfl⟩ := init_some h
  exact ⟨Semaphore.sound_init _, rfl, nofun, nofun, rfl, .nil, rfl, le_refl _, nofun, nofun, nofun⟩

theorem stages_nodup (plan : BulkPlan) (n : ℕ) : (tasksOf (plan.stages n)).Nodup :=
  tasksOf_stages plan n ▸ List.nodup_range

theorem run_bulkInv (hinit : BulkFetch.init plan symbols now = some s₀)
    (hr : run BulkFetch.step s₀ as = some s) :
    ∃ past, BulkInv plan.permits.toNat (plan.stages symbols.length) past s :=
  run_invariant (I := fun s => ∃ past, BulkInv _ _ past s) (fun _ _ _ h hs => by
    obtain ⟨past, h⟩ := h
    exact step_bulkInv h (stages_nodup plan _) hs) ⟨[], init_bulkInv hinit⟩ hr

/-- What has been done: arrivals, calls, answers. -/
def BulkFetch.done (s : BulkFetch) : ℕ := s.sem.arrived.length + s.asked.length + s.ended.length

/-- Each step does something, or ends a stage. -/
theorem step_done (hs : s.step a = some s') : s.done + s'.todo.length + 1 ≤ s'.done + s.todo.length := by
  unfold BulkFetch.done
  cases a with
  | begins i t =>
    simp only [BulkFetch.step] at hs
    split at hs
    · cases hs
      simp only [BulkFetch.begins, Semaphore.acquire_arrived, List.length_append,
        List.length_singleton]
      split
      · omega
      · rw [List.length_cons]
        omega
    · cases hs
  | resumes i t =>
    simp only [BulkFetch.step] at hs
    split at hs
    · cases hs
      simp only [BulkFetch.resumes, Semaphore.resume_arrived, List.length_cons]
      omega
    · cases hs
  | answered i answer t =>
    simp only [BulkFetch.step] at hs
    split at hs
    · cases hs
      simp only [BulkFetch.answered, Semaphore.release_arrived, List.length_append,
        List.length_singleton]
      omega
    · cases hs
  | moves t =>
    simp only [BulkFetch.step] at hs
    split at hs
    · cases hs
    · rename_i stage rest htodo
      split at hs
      · cases hs
        simp only [BulkFetch.moves, htodo, List.tail_cons, List.length_cons]
        omega
      · cases hs

theorem run_done (hr : run BulkFetch.step s as = some s') :
    s.done + s'.todo.length + as.length ≤ s'.done + s.todo.length := by
  induction as generalizing s with
  | nil =>
    cases hr
    exact le_refl _
  | cons a as ih =>
    obtain ⟨s₁, h₁, h₂⟩ := run_cons.1 hr
    have hstep := step_done h₁
    have hrest := ih h₂
    rw [List.length_cons]
    omega

/-- What has been kept of a call is what it has been answered. -/
theorem run_answers (hinit : BulkFetch.init plan symbols now = some s₀)
    (hr : run BulkFetch.step s₀ as = some s) :
    ∀ e ∈ s.ended, .answered e.task e.answer e.time ∈ as := by
  refine run_invariant_history (I := fun as s => ∀ e ∈ s.ended, .answered e.task e.answer e.time ∈ as)
    (fun as s a s' h hs e he => ?_) ?_ hr
  · cases a with
    | begins i t =>
      simp only [BulkFetch.step] at hs
      split at hs <;> cases hs
      exact List.mem_append_left _ (h e he)
    | resumes i t =>
      simp only [BulkFetch.step] at hs
      split at hs <;> cases hs
      exact List.mem_append_left _ (h e he)
    | answered i answer t =>
      simp only [BulkFetch.step] at hs
      split at hs <;> cases hs
      rcases List.mem_append.mp he with he | he
      · exact List.mem_append_left _ (h e he)
      · cases List.mem_singleton.mp he
        exact List.mem_append_right _ List.mem_cons_self
    | moves t =>
      simp only [BulkFetch.step] at hs
      split at hs
      · cases hs
      · split at hs <;> cases hs
        exact List.mem_append_left _ (h e he)
  · obtain ⟨-, rfl⟩ := init_some hinit
    exact nofun

/-- **Nobody waits for ever**: with a permit at all, the caller or one of its tasks can go on. -/
theorem BulkInv.goes_on (h : BulkInv limit script past s) (hlimit : 0 < limit) (htodo : s.todo ≠ []) :
    ∃ a, (s.step a).isSome = true := by
  obtain ⟨stage, rest, hstage⟩ := List.exists_cons_of_ne_nil htodo
  by_cases hcalls : s.sem.holders = []
  · by_cases hwoken : s.sem.woken = []
    · -- all that have arrived have left
      have hleft : ∀ i ∈ s.sem.arrived, i ∈ s.sem.left := by
        intro i hi
        by_contra hl
        rcases h.sound.lively hlimit hi hl with hne | hne
        · exact hne hwoken
        · exact hne hcalls
      by_cases hall : ∀ i ∈ stage.tasks, i ∈ s.sem.arrived
      · refine ⟨.moves (max s.clock (s.since + 3 / 10)), ?_⟩
        have hover : s.stageOver (max s.clock (s.since + 3 / 10)) stage = true := by
          cases stage with
          | gather tasks =>
            exact List.all_eq_true.mpr fun i hi => decide_eq_true (hleft i (hall i hi))
          | sleep => exact decide_eq_true (le_max_right _ _)
        simp only [BulkFetch.step, hstage]
        rw [if_pos ⟨hover, le_max_left _ _⟩]
        rfl
      · simp only [not_forall] at hall
        obtain ⟨i, hi, hnew⟩ := hall
        refine ⟨.begins i s.clock, ?_⟩
        have hcurrent : i ∈ s.current := by
          unfold BulkFetch.current
          rw [hstage]
          exact hi
        simp only [BulkFetch.step]
        rw [if_pos ⟨hcurrent, hnew, le_refl _⟩]
        rfl
    · obtain ⟨i, hi⟩ := List.exists_mem_of_ne_nil _ hwoken
      refine ⟨.resumes i s.clock, ?_⟩
      simp only [BulkFetch.step]
      rw [if_pos ⟨hi, le_refl _⟩]
      rfl
  · obtain ⟨i, hi⟩ := List.exists_mem_of_ne_nil _ hcalls
    refine ⟨.answered i none s.clock, ?_⟩
    simp only [BulkFetch.step]
    rw [if_pos ⟨hi, le_refl _⟩]
    rfl

/-- A task that has come is one of the list. -/
theorem BulkInv.arrived_mem (h : BulkInv limit script past s) {i : ℕ} (hi : i ∈ s.sem.arrived) :
    i ∈ tasksOf script := by
  rw [h.stages, tasksOf_append, List.mem_append]
  exact (h.here i hi).imp_right mem_current_tasksOf

theorem BulkInv.asked_subperm (h : BulkInv limit script past s) :
    (s.asked.map (·.task)).Subperm s.sem.arrived := by
  have hinside : (s.sem.holders ++ s.sem.left).Subperm s.sem.arrived := by
    refine (List.Sublist.subperm ?_).trans h.sound.arrived_perm.symm.subperm
    rw [List.append_assoc]
    exact (List.sublist_append_left _ _).trans (List.sublist_append_right _ _)
  exact h.asked.subperm.trans hinside

/-- The tasks under way are those of one stage. -/
theorem BulkInv.underway_subperm (h : BulkInv limit script past s) : s.sem.holders.Subperm s.current :=
  List.subperm_of_subset (List.nodup_append'.mp h.sound.nodup_parts).1 fun _ hi =>
    h.mem_current (h.sound.mem_arrived.mpr (.inr (.inl hi))) (h.sound.not_left hi)

end Runs

/-! ## 6. What the invariant says -/

section Stages

variable {n : ℕ} {limit : ℕ} {plan : BulkPlan} {past : List BulkStage} {s : BulkFetch}

theorem BulkInv.below (h : BulkInv limit (plan.stages n) past s) {i : ℕ} (hi : i ∈ s.sem.arrived) :
    i < n := by
  have hmem := h.arrived_mem hi
  rwa [tasksOf_stages, List.mem_range] at hmem

/-- So many tasks at most are anywhere. -/
theorem BulkInv.length_le (h : BulkInv limit (plan.stages n) past s) {l : List ℕ}
    (hl : l.Subperm s.sem.arrived) : l.length ≤ n := by
  have hrange : s.sem.arrived.Subperm (List.range n) :=
    List.subperm_of_subset h.sound.nodup fun i hi => List.mem_range.mpr (h.below hi)
  exact (hl.trans hrange).length_le.trans List.length_range.le

theorem BulkInv.calls (h : BulkInv limit (plan.stages n) past s) :
    (s.asked.map (·.task)).Perm (s.sem.holders ++ s.ended.map (·.task)) := h.left ▸ h.asked

theorem BulkInv.ended_subperm (h : BulkInv limit (plan.stages n) past s) :
    (s.ended.map (·.task)).Subperm s.sem.arrived :=
  ((List.sublist_append_right _ _).subperm.trans h.calls.symm.subperm).trans h.asked_subperm

/-- The calls that have ended are of different tasks. -/
theorem BulkInv.ended_nodup (h : BulkInv limit (plan.stages n) past s) :
    (s.ended.map (·.task)).Nodup :=
  h.left ▸ (List.nodup_append'.mp h.sound.nodup_parts).2.1

theorem BulkInv.returned (h : BulkInv limit (plan.stages n) past s) (htodo : s.todo = []) :
    (s.ended.map (·.task)).Perm (List.range n) := by
  refine (List.perm_ext_iff_of_nodup h.ended_nodup List.nodup_range).mpr
    fun i => ⟨fun hi => ?_, fun hi => ?_⟩
  · exact List.mem_range.mpr (h.below (h.ended_subperm.subset hi))
  · rw [← tasksOf_stages plan, h.stages, htodo, List.append_nil] at hi
    exact h.left ▸ h.finished i hi

/-- A batch has five symbols at most. -/
theorem BulkInv.five (h : BulkInv limit (plan.stages n) past s) (hbatched : plan.batched = true) :
    s.sem.holders.length ≤ 5 := by
  refine h.underway_subperm.length_le.trans ?_
  unfold BulkFetch.current
  cases htodo : s.todo with
  | nil => exact Nat.zero_le _
  | cons stage rest =>
    cases stage with
    | gather tasks =>
      refine batches_length (i := 0) (k := n) ?_
      have hstage : BulkStage.gather tasks ∈ plan.stages n := by
        rw [h.stages, htodo]
        exact List.mem_append_right _ List.mem_cons_self
      unfold BulkPlan.stages at hstage
      rwa [if_pos hbatched] at hstage
    | sleep => exact Nat.zero_le _

/-- Between a call and one of a later batch there are the pauses. -/
theorem BulkInv.spaced_batches (h : BulkInv limit (plan.stages n) past s) (hbatched : plan.batched = true)
    {a : CallStart} {e : CallEnd} (ha : a ∈ s.asked) (he : e ∈ s.ended) (hlt : e.task / 5 < a.task / 5) :
    e.time + 3 / 10 * (((a.task / 5 : ℕ) : ℚ) - (e.task / 5 : ℕ)) ≤ a.time := by
  have hspaced := h.spaced a ha e he
  rw [pausesBefore_stages hbatched (h.below (h.asked_subperm.subset (List.mem_map_of_mem ha))),
    pausesBefore_stages hbatched (h.below (h.ended_subperm.subset (List.mem_map_of_mem he)))] at hspaced
  exact hspaced hlt

/-- Without a permit nobody has left, and the first gather is not over. -/
theorem BulkInv.never_returns (h : BulkInv limit (plan.stages n) past s) (hzero : limit = 0)
    (hn : 0 < n) : s.todo ≠ [] := by
  intro htodo
  have hwhole := h.sound.whole
  rw [h.sound.shut hzero] at hwhole
  have hleft : s.sem.left = [] :=
    (List.append_eq_nil_iff.mp (List.append_eq_nil_iff.mp hwhole.nil_eq.symm).2).2
  have hperm := h.returned htodo
  rw [← h.left, hleft] at hperm
  have hnil : List.range n = [] := hperm.symm.eq_nil
  rw [List.range_eq_nil] at hnil
  exact absurd hnil (Nat.ne_of_gt hn)

end Stages

/-- What a call of `fetch_bulk` for `n` symbols promises of a state that the actions have led to. -/
structure BulkPromise (plan : BulkPlan) (n : ℕ) (as : List BulkAction) (s : BulkFetch) : Prop where
  /-- So many calls are underway at most, and five at most where they are batched. -/
  underway : (s.sem.holders.length : ℤ) ≤ plan.permits
  five : plan.batched = true → s.sem.holders.length ≤ 5
  calls : (s.asked.map (·.task)).Perm (s.sem.holders ++ s.ended.map (·.task))
  /-- No symbol is asked for twice. -/
  once : (s.asked.map (·.task)).Nodup ∧ ∀ a ∈ s.asked, a.task < n
  fifo : s.sem.granted <+: s.sem.arrived
  /-- Between a call and those of a later batch there are the pauses. -/
  spaced : plan.batched = true → ∀ a ∈ s.asked, ∀ e ∈ s.ended, e.task / 5 < a.task / 5 →
    e.time + 3 / 10 * (((a.task / 5 : ℕ) : ℚ) - (e.task / 5 : ℕ)) ≤ a.time
  results : s.results = s.ended.filterMap (·.answer)
  answers : ∀ e ∈ s.ended, .answered e.task e.answer e.time ∈ as
  /-- When it returns, each symbol has been asked for, and each call has ended. -/
  returned : s.todo = [] → (s.ended.map (·.task)).Perm (List.range n)
  steps : as.length ≤ 3 * n + (plan.stages n).length
  goesOn : 0 < plan.permits → s.todo ≠ [] → ∃ a, (s.step a).isSome = true
  stuck : plan.permits = 0 → 0 < n → s.todo ≠ []

/-- **Every run of `fetch_bulk`.** In whatever order its tasks go on and its calls are answered: no more
    calls are underway than it has permits, nor than a batch has symbols; each symbol is asked for
    once at most, later batches a pause after the calls of earlier ones; the result is the ticks that
    were answered, in that order. It comes to an end after so many steps at most, when all symbols have
    been asked for and all calls have ended, unless it has no permit: then it never returns. -/
theorem bulk_fetch_runs {plan : BulkPlan} {symbols : List String} {now : ℚ} {s₀ s : BulkFetch}
    {as : List BulkAction} (hinit : BulkFetch.init plan symbols now = some s₀)
    (hr : run BulkFetch.step s₀ as = some s) : BulkPromise plan symbols.length as s := by
  obtain ⟨past, h⟩ := run_bulkInv hinit hr
  obtain ⟨hpermits, hs₀⟩ := init_some hinit
  refine ⟨?_, h.five, h.calls, ⟨h.asked.nodup_iff.mpr h.sound.nodup_parts, fun a ha => ?_⟩, h.sound.fifo,
    fun hbatched a ha e he hlt => h.spaced_batches hbatched ha he hlt, h.results, run_answers hinit hr,
    h.returned, ?_, fun hpos htodo => h.goes_on (by omega) htodo,
    fun hzero hn => h.never_returns (by omega) hn⟩
  · have hbounded := h.sound.bounded
    omega
  · exact h.below (h.asked_subperm.subset (List.mem_map_of_mem ha))
  · have hdone := run_done hr
    have harrived := h.length_le (List.Subperm.refl _)
    have hasked := h.length_le h.asked_subperm
    have hended := h.length_le h.ended_subperm
    rw [List.length_map] at hasked hended
    unfold BulkFetch.done at hdone
    rw [hs₀] at hdone
    simp only [List.length_nil] at hdone
    omega


/-- Six symbols, two permits: the third waits for the second, and the last for the pause. -/
def sixSymbols : List BulkAction :=
  [.begins 0 0, .begins 1 0, .begins 2 0, .answered 1 (some ⟨"INFY", .NSE, 1500, 7, "nse_scraper"⟩) 1,
    .begins 3 1, .begins 4 1, .resumes 2 1, .answered 0 none 2, .resumes 3 2,
    .answered 3 (some ⟨"TCS", .NSE, 3000, 5, "nse_scraper"⟩) 3, .resumes 4 3, .answered 4 none 3,
    .answered 2 none 4, .moves 4, .moves 5, .begins 5 5,
    .answered 5 (some ⟨"WIPRO", .NSE, 250, 3, "nse_scraper"⟩) 6, .moves 6]

theorem bulk_fetch_runs_six : ∃ s, s.todo = [] ∧ s.results.map (·.symbol) = ["INFY", "TCS", "WIPRO"] ∧
    BulkPromise (nseScraperBulk 2) 6 sixSymbols s := by
  have hrun : ((BulkFetch.init (nseScraperBulk 2) ["RELIANCE", "INFY", "HDFCBANK", "TCS", "ITC", "WIPRO"]
      0).bind fun s => run BulkFetch.step s sixSymbols).map
        (fun s => (s.todo, s.results.map (·.symbol))) = some ([], ["INFY", "TCS", "WIPRO"]) := by
    decide +kernel
  obtain ⟨s, hs, hvalue⟩ := Option.map_eq_some_iff.mp hrun
  obtain ⟨s₀, hinit, hr⟩ := Option.bind_eq_some_iff.mp hs
  exact ⟨s, congrArg Prod.fst hvalue, congrArg Prod.snd hvalue, bulk_fetch_runs hinit hr⟩

end BharatTicker
