/-
  File:      BharatTicker/RateLimiter.lean
  Subject:   THE RATE LIMITER (`engine/rate_limiter.py`), shared by any number of tasks.

  A bucket of `rate` tokens that fills within `per` seconds. `acquire` refills, takes a token when there
  is one, and sleeps and tries again otherwise; `available_tokens` refills as well. The lock is not held
  over a suspension, so one pass of the loop is atomic. Times are exact rationals.

  * `LimiterConfig`, `TokenBucketRateLimiter` -- the arguments of the constructor, the mutable state;
  * `refill`, `tryAcquire`, `availableTokens` -- the methods;
  * `LimiterSystem`, `LimiterSystem.step` -- the tasks;
  * `step_budget`, `rate_bound` -- the tokens stay between none and `rate`, and no interval sees more
    acquisitions than `rate` and what flows in over its length.
-/
import BharatTicker.Basis.Run
import BharatTicker.Basis.TokenBucket

namespace BharatTicker

open Basis

-- the concrete runs below compute with rationals
unseal Rat.add Rat.mul Rat.sub Rat.inv

/-! ## 1. The limiter -/

/-- The arguments of the constructor. -/
structure LimiterConfig where
  rate : ℕ
  per : ℚ := 1
  rate_pos : 1 ≤ rate
  per_pos : 0 < per

/-- `_tokens` and `_last_refill`. -/
structure TokenBucketRateLimiter where
  tokens : ℚ
  lastRefill : ℚ
  deriving DecidableEq, Repr

namespace TokenBucketRateLimiter

variable (cfg : LimiterConfig)

/-- A new limiter, made at `now`. -/
def init (now : ℚ) : TokenBucketRateLimiter where
  tokens := cfg.rate
  lastRefill := now

/-- `_refill`. -/
def refill (now : ℚ) (l : TokenBucketRateLimiter) : TokenBucketRateLimiter :=
  let elapsed := now - l.lastRefill
  let newTokens := elapsed * (cfg.rate / cfg.per)
  { tokens := min (cfg.rate : ℚ) (l.tokens + newTokens), lastRefill := now }

/-- One pass of the loop of `acquire`: `none` when a token was taken, else the seconds to sleep. -/
def tryAcquire (now : ℚ) (l : TokenBucketRateLimiter) : Option ℚ × TokenBucketRateLimiter :=
  let l := l.refill cfg now
  if 1 ≤ l.tokens then (none, { l with tokens := l.tokens - 1 })
  else (some (cfg.per / cfg.rate), l)

/-- `available_tokens`. -/
def availableTokens (now : ℚ) (l : TokenBucketRateLimiter) : ℚ × TokenBucketRateLimiter :=
  let l := l.refill cfg now
  (l.tokens, l)

/-- The limiter is a token bucket. -/
def bucket (l : TokenBucketRateLimiter) : Bucket ℚ := ⟨l.tokens, l.lastRefill⟩

end TokenBucketRateLimiter

/-! ## 2. The tasks -/

/-- What the tasks do, each at its time on the monotonic clock. -/
inductive LimiterAction where
  | acquire (task : ℕ) (t : ℚ)
  | wake (task : ℕ) (t : ℚ)
  | availableTokens (t : ℚ)
  deriving DecidableEq, Repr

def LimiterAction.time : LimiterAction → ℚ
  | .acquire _ t | .wake _ t | .availableTokens t => t

/-- The limiter, the tasks asleep in `acquire` with the seconds they asked for, and the acquisitions that
    were completed, newest first. -/
structure LimiterSystem where
  limiter : TokenBucketRateLimiter
  asleep : List (ℕ × ℚ) := []
  acquired : List (ℕ × ℚ) := []
  deriving DecidableEq, Repr

namespace LimiterSystem

variable (cfg : LimiterConfig)

def init (now : ℚ) : LimiterSystem where
  limiter := .init cfg now

/-- A task goes through the loop of `acquire` once. -/
def pass (task : ℕ) (t : ℚ) (s : LimiterSystem) : LimiterSystem :=
  match s.limiter.tryAcquire cfg t with
  | (none, l) => { s with limiter := l, acquired := (task, t) :: s.acquired }
  | (some delay, l) => { s with limiter := l, asleep := (task, delay) :: s.asleep }

/-- One action. A task that is asleep makes no other call; how long it sleeps is left to the event loop,
    which may wake it a little early. -/
def step (s : LimiterSystem) : LimiterAction → Option LimiterSystem
  | .acquire task t =>
    if task ∈ s.asleep.map (·.1) then none else some (s.pass cfg task t)
  | .wake task t =>
    if task ∈ s.asleep.map (·.1) then
      some ({ s with asleep := s.asleep.filter fun x => x.1 ≠ task }.pass cfg task t)
    else none
  | .availableTokens t => some { s with limiter := (s.limiter.availableTokens cfg t).2 }

/-- How many acquisitions were completed from `first` to `last`. -/
def acquiredWithin (s : LimiterSystem) (first last : ℚ) : ℕ :=
  countWithin first last (s.acquired.map (·.2))

end LimiterSystem

/-! ## 3. The budget -/

section Budget

variable {cfg : LimiterConfig}

theorem flow_nonneg (cfg : LimiterConfig) : (0 : ℚ) ≤ cfg.rate / cfg.per :=
  div_nonneg (Nat.cast_nonneg _) cfg.per_pos.le

/-- The acquisitions of a system are within the budget of its bucket. -/
def LimiterSystem.WithinBudget (cfg : LimiterConfig) (s : LimiterSystem) : Prop :=
  Budget (cfg.rate : ℚ) (cfg.rate / cfg.per) s.limiter.bucket (s.acquired.map (·.2))

/-- `_refill` fills the bucket. -/
theorem bucket_refill (now : ℚ) (l : TokenBucketRateLimiter) :
    (l.refill cfg now).bucket = l.bucket.fill (cfg.rate : ℚ) (cfg.rate / cfg.per) now := rfl

variable {s s' : LimiterSystem} {t : ℚ}

/-- A pass takes a token that is there, or none. -/
theorem pass_budget (h : s.WithinBudget cfg) (ht : s.limiter.lastRefill ≤ t) (task : ℕ) :
    (s.pass cfg task t).WithinBudget cfg ∧ (s.pass cfg task t).limiter.lastRefill = t := by
  have hfill : Budget (cfg.rate : ℚ) (cfg.rate / cfg.per) (s.limiter.refill cfg t).bucket
      (s.acquired.map (·.2)) := h.fill (flow_nonneg cfg) ht
  unfold LimiterSystem.pass TokenBucketRateLimiter.tryAcquire
  dsimp only
  by_cases hone : 1 ≤ (s.limiter.refill cfg t).tokens
  · rw [if_pos hone]
    exact ⟨hfill.take (flow_nonneg cfg) hone, rfl⟩
  · rw [if_neg hone]
    exact ⟨hfill, rfl⟩

/-- **One action keeps the budget.** -/
theorem step_budget {a : LimiterAction} (h : s.WithinBudget cfg)
    (ht : s.limiter.lastRefill ≤ a.time) (hs : s.step cfg a = some s') :
    s'.WithinBudget cfg ∧ s'.limiter.lastRefill = a.time := by
  cases a with
  | acquire task t =>
    obtain ⟨-, hs⟩ := Option.ite_none_left_eq_some.mp hs
    cases hs
    exact pass_budget h ht task
  | wake task t =>
    obtain ⟨-, hs⟩ := Option.ite_none_right_eq_some.mp hs
    cases hs
    exact pass_budget (s := { s with asleep := s.asleep.filter fun x => x.1 ≠ task }) h ht task
  | availableTokens t =>
    cases hs
    exact ⟨h.fill (flow_nonneg cfg) ht, rfl⟩

/-- **A run keeps the budget.** -/
theorem run_budget {acts : List LimiterAction} (h : s.WithinBudget cfg)
    (hmono : (acts.map LimiterAction.time).Pairwise (· ≤ ·))
    (hstart : ∀ a ∈ acts, s.limiter.lastRefill ≤ a.time)
    (hr : run (LimiterSystem.step cfg) s acts = some s') : s'.WithinBudget cfg := by
  induction acts generalizing s with
  | nil =>
    cases hr
    exact h
  | cons a acts ih =>
    obtain ⟨s₁, h₁, h₂⟩ := run_cons.1 hr
    rw [List.map_cons, List.pairwise_cons] at hmono
    obtain ⟨hkeep, hclock⟩ := step_budget h (hstart a List.mem_cons_self) h₁
    refine ih hkeep hmono.2 (fun a' ha' => ?_) h₂
    rw [hclock]
    exact hmono.1 _ (List.mem_map_of_mem ha')

end Budget

/-- **The rate bound.** In every run of any tasks over a clock that does not run backwards, the tokens
    stay between none and `rate`, and an interval of length `L` sees at most `rate + L * rate / per`
    acquisitions. -/
theorem rate_bound (cfg : LimiterConfig) (t₀ : ℚ) (acts : List LimiterAction)
    (hmono : (t₀ :: acts.map LimiterAction.time).Pairwise (· ≤ ·)) (s : LimiterSystem)
    (hr : run (LimiterSystem.step cfg) (.init cfg t₀) acts = some s) :
    (0 ≤ s.limiter.tokens ∧ s.limiter.tokens ≤ cfg.rate) ∧
      ∀ first last, first ≤ last →
        (s.acquiredWithin first last : ℚ) ≤ cfg.rate + (last - first) * cfg.rate / cfg.per := by
  obtain ⟨hstart, hmono⟩ := List.pairwise_cons.mp hmono
  have h : s.WithinBudget cfg :=
    run_budget (s := .init cfg t₀) (Budget.full (Nat.cast_nonneg cfg.rate) (flow_nonneg cfg) t₀)
      hmono (fun a ha => hstart _ (List.mem_map_of_mem ha)) hr
  refine ⟨⟨h.nonneg, h.level_le⟩, fun first last hle => ?_⟩
  rw [mul_div_assoc]
  exact h.window first last hle

/-- Two tokens a second. -/
def twoPerSecond : LimiterConfig := ⟨2, 1, by decide, by decide⟩

/-- Three tasks, of which the third sleeps until there is a token again. -/
def threeTasks : List LimiterAction :=
  [.acquire 1 10, .acquire 2 10, .acquire 3 10, .availableTokens (51 / 5), .wake 3 (21 / 2)]

theorem rate_bound_three :
    ∃ s, run (LimiterSystem.step twoPerSecond) (.init twoPerSecond 10) threeTasks = some s ∧
      s.acquiredWithin 10 11 = 3 ∧ (s.acquiredWithin 10 11 : ℚ) ≤ 2 + (11 - 10) * 2 / 1 := by
  have hr : run (LimiterSystem.step twoPerSecond) (.init twoPerSecond 10) threeTasks =
      some ⟨⟨0, 21 / 2⟩, [], [(3, 21 / 2), (2, 10), (1, 10)]⟩ := by decide
  refine ⟨_, hr, by decide, ?_⟩
  exact (rate_bound twoPerSecond 10 threeTasks (by decide) _ hr).2 10 11 (by norm_num)

end BharatTicker
