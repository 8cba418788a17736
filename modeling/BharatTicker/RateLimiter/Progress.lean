/-
  File:      BharatTicker/RateLimiter/Progress.lean
  Subject:   HOW LONG A TASK WAITS FOR THE RATE LIMITER (`engine/rate_limiter.py`: `acquire`).

  The lock orders the passes, not the tasks: a task that sleeps may find, when it wakes, that others took
  what flowed in. Recorded beside the limiter is, for each task in `acquire`, since when it waits, how
  often it found no token, and how many tokens others took meanwhile.

  * `LimiterWait`, `Grant`, `QueuedSystem` -- the limiter with what is recorded;
  * `QueuedSystem.OnTime` -- `asyncio.sleep` neither ends early nor more than `late` after its time;
  * `WaitInv`, `step_waitInv` -- each further failure of a task is paid for by a token that another one
    took;
  * `acquire_progress` -- so a task waits for at most one sleep more than it is overtaken.
-/
import BharatTicker.RateLimiter

namespace BharatTicker

open Basis

/-! ## 1. The limiter and what is recorded -/

/-- A task in `acquire`, asleep. -/
structure LimiterWait where
  began : ℚ
  failedAt : ℚ
  /-- The passes that found no token. -/
  failed : ℕ
  /-- The tokens others took since it began. -/
  overtaken : ℕ := 0
  /-- The tokens others took since its last pass. -/
  fresh : ℕ := 0
  deriving DecidableEq, Repr

/-- A call of `acquire` that returned. -/
structure Grant where
  task : ℕ
  time : ℚ
  began : ℚ
  failed : ℕ
  overtaken : ℕ
  deriving DecidableEq, Repr

structure QueuedSystem where
  base : LimiterSystem
  waits : ℕ → Option LimiterWait := fun _ => none
  grants : List Grant := []

/-- Another task took a token. -/
def LimiterWait.overtake (w : LimiterWait) : LimiterWait :=
  { w with overtaken := w.overtaken + 1, fresh := w.fresh + 1 }

namespace QueuedSystem

variable (cfg : LimiterConfig)

def init (now : ℚ) : QueuedSystem where
  base := .init cfg now

/-- What is recorded of a pass that found a token: everyone else who waits is overtaken. -/
def granted (task : ℕ) (t : ℚ) (s : QueuedSystem) : QueuedSystem where
  base := s.base
  waits := fun i => if i = task then none else (s.waits i).map LimiterWait.overtake
  grants := match s.waits task with
    | some w => ⟨task, t, w.began, w.failed, w.overtaken⟩ :: s.grants
    | none => ⟨task, t, t, 0, 0⟩ :: s.grants

/-- What is recorded of a pass that found none. -/
def refused (task : ℕ) (t : ℚ) (s : QueuedSystem) : QueuedSystem where
  base := s.base
  waits := Function.update s.waits task (some (match s.waits task with
    | some w => { w with failedAt := t, failed := w.failed + 1, fresh := 0 }
    | none => { began := t, failedAt := t, failed := 1 }))
  grants := s.grants

/-- What is recorded of a pass. -/
def record (task : ℕ) (t : ℚ) (s : QueuedSystem) : QueuedSystem :=
  if 1 ≤ (s.base.limiter.refill cfg t).tokens then s.granted task t else s.refused task t

/-- One action of the limiter, recorded. -/
def step (s : QueuedSystem) (a : LimiterAction) : Option QueuedSystem :=
  (s.base.step cfg a).map fun base =>
    match a with
    | .acquire task t | .wake task t => { s.record cfg task t with base := base }
    | .availableTokens _ => { s with base := base }

/-- A task that wakes slept for what it asked for, and at most `late` longer. -/
def OnTime (late : ℚ) (s : QueuedSystem) : LimiterAction → Prop
  | .wake task t => ∀ x ∈ s.base.asleep, x.1 = task → ∀ w ∈ s.waits task,
      w.failedAt + x.2 ≤ t ∧ t ≤ w.failedAt + x.2 + late
  | .acquire .. | .availableTokens _ => True

instance (late : ℚ) (s : QueuedSystem) : ∀ a, Decidable (s.OnTime late a)
  | .wake task t => inferInstanceAs (Decidable (∀ x ∈ s.base.asleep, x.1 = task →
      ∀ w ∈ s.waits task, w.failedAt + x.2 ≤ t ∧ t ≤ w.failedAt + x.2 + late))
  | .acquire .. | .availableTokens _ => inferInstanceAs (Decidable True)

end QueuedSystem

/-! ## 2. The invariant -/

/-- What holds of a task that waits. -/
structure Waits (cfg : LimiterConfig) (late : ℚ) (b : Bucket ℚ) (w : LimiterWait) : Prop where
  failed_pos : 1 ≤ w.failed
  /-- All failures but the first, and one to come, are paid for by the tokens others took. -/
  paid : w.failed + w.fresh ≤ 1 + w.overtaken
  flown : Replenished (cfg.rate / cfg.per : ℚ) w.failedAt b w.fresh
  spent : w.failedAt - w.began ≤ (w.failed - 1) * (cfg.per / cfg.rate + late)

/-- What holds of a call that returned. -/
structure GrantOk (cfg : LimiterConfig) (late : ℚ) (g : Grant) : Prop where
  paid : g.failed ≤ 1 + g.overtaken
  spent : g.time - g.began ≤ g.failed * (cfg.per / cfg.rate + late)

structure WaitInv (cfg : LimiterConfig) (late : ℚ) (s : QueuedSystem) : Prop where
  nonneg : 0 ≤ s.base.limiter.tokens
  delay : ∀ x ∈ s.base.asleep, x.2 = cfg.per / cfg.rate
  asleep : ∀ task, task ∈ s.base.asleep.map (·.1) ↔ (s.waits task).isSome
  waits : ∀ task w, s.waits task = some w → Waits cfg late s.base.limiter.bucket w
  grants : ∀ g ∈ s.grants, GrantOk cfg late g
  acquired : s.grants.map (fun g => (g.task, g.time)) = s.base.acquired

section Progress

variable {cfg : LimiterConfig} {late t : ℚ} {s s' : QueuedSystem} {task : ℕ} {w : LimiterWait}

/-- A token flows in while a task sleeps. -/
theorem delay_flow (cfg : LimiterConfig) : (cfg.per / cfg.rate : ℚ) * (cfg.rate / cfg.per) = 1 := by
  have hrate : (cfg.rate : ℚ) ≠ 0 := Nat.cast_ne_zero.mpr (Nat.one_le_iff_ne_zero.mp cfg.rate_pos)
  rw [div_mul_div_cancel₀ hrate, div_self cfg.per_pos.ne']

theorem delay_nonneg (cfg : LimiterConfig) : (0 : ℚ) ≤ cfg.per / cfg.rate :=
  div_nonneg cfg.per_pos.le (Nat.cast_nonneg _)

theorem Waits.fill {b : Bucket ℚ} (h : Waits cfg late b w) (ht : b.filledAt ≤ t) :
    Waits cfg late (b.fill (cfg.rate : ℚ) (cfg.rate / cfg.per) t) w where
  failed_pos := h.failed_pos
  paid := h.paid
  flown := h.flown.fill (flow_nonneg cfg) (Nat.one_le_cast.mpr cfg.rate_pos) ht
  spent := h.spent

theorem Waits.overtake {b : Bucket ℚ} (h : Waits cfg late b w) : Waits cfg late b.take w.overtake where
  failed_pos := h.failed_pos
  paid := by
    have hpaid := h.paid
    simp only [LimiterWait.overtake]
    omega
  flown := h.flown.take
  spent := h.spent

/-- **A task that failed and slept finds a token, unless another one took it.** -/
theorem Waits.fresh_pos {l : TokenBucketRateLimiter} (h : Waits cfg late l.bucket w)
    (hslept : w.failedAt + cfg.per / cfg.rate ≤ l.lastRefill) (hnone : ¬ 1 ≤ l.tokens) :
    1 ≤ w.fresh := by
  by_contra hfresh
  have hzero : w.fresh = 0 := Nat.lt_one_iff.mp (not_le.mp hfresh)
  have hflown := h.flown
  rw [hzero] at hflown
  have hone : 1 ≤ (l.lastRefill - w.failedAt) * (cfg.rate / cfg.per) := by
    rw [← delay_flow cfg]
    exact mul_le_mul_of_nonneg_right (by linarith) (flow_nonneg cfg)
  exact hnone (hflown.ready hone)

/-- The sleep of a task counts into its wait. -/
theorem Waits.slept {b : Bucket ℚ} (h : Waits cfg late b w)
    (hlate : t ≤ w.failedAt + cfg.per / cfg.rate + late) :
    t - w.began ≤ w.failed * (cfg.per / cfg.rate + late) := by
  have hspent := h.spent
  linarith

theorem Waits.granted {b : Bucket ℚ} (h : Waits cfg late b w)
    (hlate : t ≤ w.failedAt + cfg.per / cfg.rate + late) (task : ℕ) :
    GrantOk cfg late ⟨task, t, w.began, w.failed, w.overtaken⟩ where
  paid := by
    have hpaid := h.paid
    dsimp only
    omega
  spent := h.slept hlate

/-- A pass takes a token that is there. -/
theorem pass_granted {b : LimiterSystem} (hone : 1 ≤ (b.limiter.refill cfg t).tokens) :
    b.pass cfg task t = { b with
      limiter := { b.limiter.refill cfg t with tokens := (b.limiter.refill cfg t).tokens - 1 },
      acquired := (task, t) :: b.acquired } := by
  unfold LimiterSystem.pass TokenBucketRateLimiter.tryAcquire
  dsimp only
  rw [if_pos hone]

/-- Else the task sleeps. -/
theorem pass_refused {b : LimiterSystem} (hnone : ¬ 1 ≤ (b.limiter.refill cfg t).tokens) :
    b.pass cfg task t = { b with
      limiter := b.limiter.refill cfg t,
      asleep := (task, cfg.per / cfg.rate) :: b.asleep } := by
  unfold LimiterSystem.pass TokenBucketRateLimiter.tryAcquire
  dsimp only
  rw [if_neg hnone]

/-- The limiter without a task that is about to try. -/
def LimiterSystem.awake (b : LimiterSystem) (task : ℕ) : LimiterSystem :=
  { b with asleep := b.asleep.filter fun x => x.1 ≠ task }

theorem mem_awake {b : LimiterSystem} {i : ℕ} :
    i ∈ (b.awake task).asleep.map (·.1) ↔ i ∈ b.asleep.map (·.1) ∧ i ≠ task := by
  simp only [LimiterSystem.awake, List.mem_map, List.mem_filter, decide_eq_true_eq]
  refine ⟨?_, ?_⟩
  · rintro ⟨x, ⟨hx, hne⟩, rfl⟩
    exact ⟨⟨x, hx, rfl⟩, hne⟩
  · rintro ⟨⟨x, hx, rfl⟩, hne⟩
    exact ⟨x, ⟨hx, hne⟩, rfl⟩

/-- What a pass at `t` may rely on: the task is not asleep, or slept as long as it had to. -/
def Slept (cfg : LimiterConfig) (late t : ℚ) (task : ℕ) (s : QueuedSystem) : Prop :=
  ∀ w, s.waits task = some w →
    w.failedAt + cfg.per / cfg.rate ≤ t ∧ t ≤ w.failedAt + cfg.per / cfg.rate + late

/-- A pass that finds a token. -/
theorem granted_inv (h : WaitInv cfg late s) (ht : s.base.limiter.lastRefill ≤ t)
    (hslept : Slept cfg late t task s) (hone : 1 ≤ (s.base.limiter.refill cfg t).tokens) :
    WaitInv cfg late { s.granted task t with base := (s.base.awake task).pass cfg task t } := by
  rw [pass_granted (b := s.base.awake task) hone]
  refine ⟨sub_nonneg.mpr hone, fun x hx => h.delay x (List.mem_of_mem_filter hx), fun i => ?_,
    fun i w hw => ?_, fun g hg => ?_, ?_⟩
  · rw [mem_awake, h.asleep i]
    by_cases hi : i = task
    · simp [QueuedSystem.granted, hi]
    · simp [QueuedSystem.granted, hi]
  · by_cases hi : i = task
    · simp [QueuedSystem.granted, hi] at hw
    · simp only [QueuedSystem.granted, hi, if_false, Option.map_eq_some_iff] at hw
      obtain ⟨w₀, hw₀, rfl⟩ := hw
      exact ((h.waits i w₀ hw₀).fill ht).overtake
  · cases hw : s.waits task with
    | none =>
      simp only [QueuedSystem.granted, hw, List.mem_cons] at hg
      rcases hg with rfl | hg
      · exact ⟨Nat.zero_le _, by simp⟩
      · exact h.grants g hg
    | some w =>
      simp only [QueuedSystem.granted, hw, List.mem_cons] at hg
      rcases hg with rfl | hg
      · exact (h.waits task w hw).granted (hslept w hw).2 task
      · exact h.grants g hg
  · change (s.granted task t).grants.map (fun g => (g.task, g.time)) = (task, t) :: s.base.acquired
    rw [← h.acquired]
    cases hw : s.waits task <;> simp only [QueuedSystem.granted, hw, List.map_cons]

/-- A pass that finds none. -/
theorem refused_inv (h : WaitInv cfg late s) (ht : s.base.limiter.lastRefill ≤ t)
    (hslept : Slept cfg late t task s) (hnone : ¬ 1 ≤ (s.base.limiter.refill cfg t).tokens) :
    WaitInv cfg late { s.refused task t with base := (s.base.awake task).pass cfg task t } := by
  have hnonneg : 0 ≤ (s.base.limiter.refill cfg t).tokens :=
    le_min (Nat.cast_nonneg _)
      (add_nonneg h.nonneg (mul_nonneg (sub_nonneg.mpr ht) (flow_nonneg cfg)))
  rw [pass_refused (b := s.base.awake task) hnone]
  refine ⟨hnonneg, fun x hx => ?_, fun i => ?_, fun i w hw => ?_, h.grants, h.acquired⟩
  · rcases List.mem_cons.mp hx with rfl | hx
    · rfl
    · exact h.delay x (List.mem_of_mem_filter hx)
  · rw [List.map_cons, List.mem_cons, mem_awake, h.asleep i]
    by_cases hi : i = task
    · subst hi
      simp [QueuedSystem.refused]
    · simp [QueuedSystem.refused, hi]
  · by_cases hi : i = task
    · subst hi
      have hself : Function.update s.waits i (some (match s.waits i with
          | some w => { w with failedAt := t, failed := w.failed + 1, fresh := 0 }
          | none => { began := t, failedAt := t, failed := 1 })) i = some w := hw
      rw [Function.update_self, Option.some_inj] at hself
      subst hself
      have hstart : Replenished (cfg.rate / cfg.per : ℚ) t (s.base.limiter.refill cfg t).bucket 0 :=
        Replenished.start (b := (s.base.limiter.refill cfg t).bucket) hnonneg
      cases hw₀ : s.waits i with
      | none => exact ⟨le_rfl, le_rfl, hstart, by simp⟩
      | some w₀ =>
        have hwaits := (h.waits i w₀ hw₀).fill (t := t) ht
        have hfresh := Waits.fresh_pos (l := s.base.limiter.refill cfg t) hwaits (hslept w₀ hw₀).1 hnone
        have hpaid := hwaits.paid
        refine ⟨Nat.le_add_left _ _, ?_, hstart, ?_⟩
        · dsimp only
          omega
        · have hspent := hwaits.slept (hslept w₀ hw₀).2
          push_cast
          linarith
    · have hother : Function.update s.waits task _ i = some w := hw
      rw [Function.update_of_ne hi] at hother
      exact (h.waits i w hother).fill ht

/-- **A pass keeps the invariant.** -/
theorem record_inv (h : WaitInv cfg late s) (ht : s.base.limiter.lastRefill ≤ t)
    (hslept : Slept cfg late t task s) :
    WaitInv cfg late { s.record cfg task t with base := (s.base.awake task).pass cfg task t } := by
  unfold QueuedSystem.record
  by_cases hone : 1 ≤ (s.base.limiter.refill cfg t).tokens
  · rw [if_pos hone]
    exact granted_inv h ht hslept hone
  · rw [if_neg hone]
    exact refused_inv h ht hslept hone

/-! ## 3. Runs -/

theorem pass_lastRefill (cfg : LimiterConfig) (b : LimiterSystem) (task : ℕ) (t : ℚ) :
    (b.pass cfg task t).limiter.lastRefill = t := by
  by_cases hone : 1 ≤ (b.limiter.refill cfg t).tokens
  · rw [pass_granted hone]
    rfl
  · rw [pass_refused hone]
    rfl

/-- Nobody who is not asleep leaves by trying. -/
theorem awake_of_not_asleep {b : LimiterSystem} (h : task ∉ b.asleep.map (·.1)) : b.awake task = b := by
  have hall : b.asleep.filter (fun x => x.1 ≠ task) = b.asleep :=
    List.filter_eq_self.mpr fun x hx => by
      have hne : x.1 ≠ task := fun he => h (he ▸ List.mem_map_of_mem hx)
      simpa using hne
  rw [LimiterSystem.awake, hall]

/-- A task that wakes in time slept for what a token takes to flow in. -/
theorem WaitInv.slept (h : WaitInv cfg late s) (ht : s.OnTime late (.wake task t))
    (hasleep : task ∈ s.base.asleep.map (·.1)) : Slept cfg late t task s := by
  intro w hw
  obtain ⟨x, hx, rfl⟩ := List.mem_map.mp hasleep
  have hon := ht x hx rfl w hw
  rwa [h.delay x hx] at hon

/-- **One action keeps the invariant.** -/
theorem step_waitInv {a : LimiterAction} (h : WaitInv cfg late s)
    (ht : s.base.limiter.lastRefill ≤ a.time) (hon : s.OnTime late a)
    (hs : s.step cfg a = some s') : WaitInv cfg late s' ∧ s'.base.limiter.lastRefill = a.time := by
  obtain ⟨base, hbase, rfl⟩ := Option.map_eq_some_iff.mp hs
  cases a with
  | acquire task t =>
    obtain ⟨hfree, hpass⟩ := Option.ite_none_left_eq_some.mp hbase
    cases hpass
    have hslept : Slept cfg late t task s := by
      intro w hw
      have hin : task ∈ s.base.asleep.map (·.1) := (h.asleep task).mpr (by rw [hw]; rfl)
      exact absurd hin hfree
    refine ⟨?_, pass_lastRefill cfg s.base task t⟩
    have hinv := record_inv h ht hslept
    rwa [awake_of_not_asleep hfree] at hinv
  | wake task t =>
    obtain ⟨hasleep, hpass⟩ := Option.ite_none_right_eq_some.mp hbase
    cases hpass
    exact ⟨record_inv h ht (h.slept hon hasleep), pass_lastRefill cfg (s.base.awake task) task t⟩
  | availableTokens t =>
    cases hbase
    refine ⟨⟨?_, h.delay, h.asleep, fun i w hw => (h.waits i w hw).fill ht, h.grants, h.acquired⟩, rfl⟩
    exact le_min (Nat.cast_nonneg _)
      (add_nonneg h.nonneg (mul_nonneg (sub_nonneg.mpr ht) (flow_nonneg cfg)))

theorem waitInv_init (cfg : LimiterConfig) (late t₀ : ℚ) : WaitInv cfg late (.init cfg t₀) where
  nonneg := Nat.cast_nonneg _
  delay x hx := by cases hx
  asleep task := by simp [QueuedSystem.init, LimiterSystem.init]
  waits task w hw := by cases hw
  grants g hg := by cases hg
  acquired := rfl

/-- **A run keeps the invariant.** -/
theorem run_waitInv {t₀ : ℚ} {acts : List LimiterAction}
    (hmono : (t₀ :: acts.map LimiterAction.time).Pairwise (· ≤ ·))
    (hsleep : StepsMeet (QueuedSystem.step cfg) (QueuedSystem.OnTime late) (.init cfg t₀) acts)
    (hr : run (QueuedSystem.step cfg) (.init cfg t₀) acts = some s) : WaitInv cfg late s := by
  obtain ⟨hstart, hmono⟩ := List.pairwise_cons.mp hmono
  have htimes : acts.filterMap (fun a => some a.time) = acts.map LimiterAction.time :=
    congrFun List.filterMap_eq_map acts
  obtain ⟨t', hclock⟩ := run_clocked (fun a : LimiterAction => some a.time) t₀
    (by rwa [htimes]) (by rwa [htimes]) hr
  have h : WaitInv cfg late s ∧ s.base.limiter.lastRefill ≤ t' := by
    refine run_invariant_meet (I := fun c => WaitInv cfg late c.1 ∧ c.1.base.limiter.lastRefill ≤ c.2)
      (fun c a c' hI hon hs => ?_) ⟨waitInv_init cfg late t₀, le_refl t₀⟩
      (stepsMeet_clocked hsleep) hclock
    obtain ⟨hs₁, hle, htime⟩ := clocked_cases hs
    have hat : c'.2 = a.time := htime _ rfl
    obtain ⟨hinv, hlast⟩ := step_waitInv hI.1 (hI.2.trans (hat ▸ hle)) hon hs₁
    exact ⟨hinv, (hlast.trans hat.symm).le⟩
  exact h.1

end Progress

/-- What is recorded does not change what the limiter does. -/
theorem queued_base {cfg : LimiterConfig} {acts : List LimiterAction} {s s' : QueuedSystem}
    (hr : run (QueuedSystem.step cfg) s acts = some s') :
    run (LimiterSystem.step cfg) s.base acts = some s'.base := by
  induction acts generalizing s with
  | nil =>
    cases hr
    rfl
  | cons a acts ih =>
    obtain ⟨s₁, h₁, h₂⟩ := run_cons.1 hr
    obtain ⟨base, hbase, rfl⟩ := Option.map_eq_some_iff.mp h₁
    refine run_cons.2 ⟨base, hbase, ?_⟩
    cases a <;> exact ih h₂

/-- **A task waits for one sleep, and one more for each time it is overtaken.** In every run of any tasks
    over a clock that does not run backwards, where no sleep ends early nor more than `late` after its
    time: a call of `acquire` finds no token at most once more than others took one while it waited, and
    when it returns it has waited for no longer than that many sleeps. -/
theorem acquire_progress (cfg : LimiterConfig) (t₀ late : ℚ) (hlate : 0 ≤ late)
    (acts : List LimiterAction) (hmono : (t₀ :: acts.map LimiterAction.time).Pairwise (· ≤ ·))
    (hsleep : StepsMeet (QueuedSystem.step cfg) (QueuedSystem.OnTime late) (.init cfg t₀) acts)
    (s : QueuedSystem) (hr : run (QueuedSystem.step cfg) (.init cfg t₀) acts = some s) :
    run (LimiterSystem.step cfg) (.init cfg t₀) acts = some s.base ∧
      s.grants.map (fun g => (g.task, g.time)) = s.base.acquired ∧
      (∀ task w, s.waits task = some w → w.failed ≤ 1 + w.overtaken) ∧
      ∀ g ∈ s.grants, g.failed ≤ 1 + g.overtaken ∧
        g.time - g.began ≤ (1 + g.overtaken) * (cfg.per / cfg.rate + late) := by
  have h := run_waitInv hmono hsleep hr
  refine ⟨queued_base hr, h.acquired, fun task w hw => ?_, fun g hg => ?_⟩
  · exact (Nat.le_add_right _ _).trans (h.waits task w hw).paid
  · have hg := h.grants g hg
    have hfailed : (g.failed : ℚ) ≤ 1 + g.overtaken := by exact_mod_cast hg.paid
    exact ⟨hg.paid, hg.spent.trans
      (mul_le_mul_of_nonneg_right hfailed (add_nonneg (delay_nonneg cfg) hlate))⟩

/-- One token a second. -/
def onePerSecond : LimiterConfig := { twoPerSecond with rate := 1, rate_pos := by decide }

/-- The second task sleeps, and the third one takes the token before it wakes. -/
def overtakenTask : List LimiterAction :=
  [.acquire 1 0, .acquire 2 (1 / 4), .acquire 3 1, .wake 2 (5 / 4), .wake 2 (9 / 4)]

theorem acquire_progress_overtaken :
    ∃ s, run (QueuedSystem.step onePerSecond) (.init onePerSecond 0) overtakenTask = some s ∧
      s.grants.head? = some ⟨2, 9 / 4, 1 / 4, 2, 1⟩ ∧
      ∀ g ∈ s.grants, g.failed ≤ 1 + g.overtaken ∧
        g.time - g.began ≤ (1 + g.overtaken) * ((1 : ℚ) / (1 : ℕ) + 0) := by
  have hgrants : (run (QueuedSystem.step onePerSecond) (.init onePerSecond 0) overtakenTask).map
      (·.grants.head?) = some (some ⟨2, 9 / 4, 1 / 4, 2, 1⟩) := by decide +kernel
  obtain ⟨s, hr, hhead⟩ := Option.map_eq_some_iff.mp hgrants
  have hsleep : StepsMeet (QueuedSystem.step onePerSecond) (QueuedSystem.OnTime 0)
      (.init onePerSecond 0) overtakenTask := by decide +kernel
  exact ⟨s, hr, hhead,
    (acquire_progress onePerSecond 0 0 le_rfl overtakenTask (by decide +kernel) hsleep s hr).2.2.2⟩

end BharatTicker
