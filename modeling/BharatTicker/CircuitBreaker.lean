/-
  File:      BharatTicker/CircuitBreaker.lean
  Subject:   THE CIRCUIT BREAKER OF ONE PROVIDER (`engine/circuit_breaker.py`).

  The mutable attributes are one record (`CircuitBreaker`), the thresholds a separate one that
  carries their positivity (`BreakerConfig`: a missing or zero argument of the constructor is
  replaced by the setting). Times are exact rationals. `record_success` and `record_failure` run
  under an uncontended lock and `execute` does not suspend before it awaits the wrapped call, so
  each of them is one atomic function here:

  * `stateAt` -- the property `state`, which moves OPEN to HALF_OPEN as a side effect;
  * `canExecute`, `enter` -- the admission check, and what `execute` does before the call;
  * `recordSuccess`, `recordFailure`, `reset`.
-/
import BharatTicker.Basis.Run

namespace BharatTicker

/-- `CircuitState`. -/
inductive CircuitState where
  | CLOSED
  | OPEN
  | HALF_OPEN
  deriving DecidableEq, Repr

/-- `settings.cb_*`, with the defaults of `Settings`. -/
structure CbSettings where
  cbFailureThreshold : Nat := 5
  cbRecoveryTimeoutSeconds : ℚ := 30
  cbHalfOpenMaxCalls : Nat := 3
  failureThreshold_pos : 0 < cbFailureThreshold := by decide
  halfOpenMaxCalls_pos : 0 < cbHalfOpenMaxCalls := by decide

/-- The thresholds of one breaker; both counts are at least 1. -/
structure BreakerConfig where
  failureThreshold : Nat
  recoveryTimeout : ℚ
  halfOpenMaxCalls : Nat
  failureThreshold_pos : 0 < failureThreshold
  halfOpenMaxCalls_pos : 0 < halfOpenMaxCalls

/-- Python's `x or d` on a count: `None` and `0` give the default. -/
def orDefault : Option Nat → Nat → Nat
  | some (n + 1), _ => n + 1
  | _, d => d

theorem orDefault_pos {x : Option Nat} {d : Nat} (hd : 0 < d) : 0 < orDefault x d := by
  unfold orDefault
  split
  · exact Nat.succ_pos _
  · exact hd

/-- The thresholds `CircuitBreaker.__init__` computes from its arguments. -/
def BreakerConfig.ofArgs (settings : CbSettings) (failureThreshold : Option Nat := none)
    (recoveryTimeout : Option ℚ := none) (halfOpenMaxCalls : Option Nat := none) :
    BreakerConfig where
  failureThreshold := orDefault failureThreshold settings.cbFailureThreshold
  recoveryTimeout := match recoveryTimeout with
    | some r => if r = 0 then settings.cbRecoveryTimeoutSeconds else r
    | none => settings.cbRecoveryTimeoutSeconds
  halfOpenMaxCalls := orDefault halfOpenMaxCalls settings.cbHalfOpenMaxCalls
  failureThreshold_pos := orDefault_pos settings.failureThreshold_pos
  halfOpenMaxCalls_pos := orDefault_pos settings.halfOpenMaxCalls_pos

/-- The mutable attributes of a `CircuitBreaker`, with the values `__init__` gives them. -/
structure CircuitBreaker where
  state : CircuitState := .CLOSED
  failureCount : Nat := 0
  successCount : Nat := 0
  lastFailureTime : ℚ := 0
  halfOpenCalls : Nat := 0
  deriving DecidableEq, Repr

namespace CircuitBreaker

variable (cfg : BreakerConfig)

/-- The property `state`, read at `now`: the breaker after the read (its `state` field is the
    value the property returns). -/
def stateAt (now : ℚ) (cb : CircuitBreaker) : CircuitBreaker :=
  if cb.state = .OPEN ∧ cfg.recoveryTimeout < now - cb.lastFailureTime then
    { cb with state := .HALF_OPEN, halfOpenCalls := 0 }
  else cb

/-- `record_success`. -/
def recordSuccess (cb : CircuitBreaker) : CircuitBreaker :=
  match cb.state with
  | .HALF_OPEN =>
    if cfg.halfOpenMaxCalls ≤ cb.successCount + 1 then
      { cb with state := .CLOSED, failureCount := 0, successCount := 0 }
    else { cb with successCount := cb.successCount + 1 }
  | .CLOSED => { cb with failureCount := cb.failureCount - 1 }
  | .OPEN => cb

/-- `record_failure` at `now`. -/
def recordFailure (now : ℚ) (cb : CircuitBreaker) : CircuitBreaker :=
  let cb := { cb with failureCount := cb.failureCount + 1, lastFailureTime := now }
  match cb.state with
  | .HALF_OPEN => { cb with state := .OPEN }
  | .CLOSED => if cfg.failureThreshold ≤ cb.failureCount then { cb with state := .OPEN } else cb
  | .OPEN => cb

/-- `can_execute` at `now`: the answer, and the breaker after the state read it makes. -/
def canExecute (now : ℚ) (cb : CircuitBreaker) : Bool × CircuitBreaker :=
  let cb := cb.stateAt cfg now
  match cb.state with
  | .CLOSED => (true, cb)
  | .HALF_OPEN => (decide (cb.halfOpenCalls < cfg.halfOpenMaxCalls), cb)
  | .OPEN => (false, cb)

/-- What `execute` does at `now` before it awaits the call: `false` is `CircuitOpenError`. -/
def enter (now : ℚ) (cb : CircuitBreaker) : Bool × CircuitBreaker :=
  match cb.canExecute cfg now with
  | (false, cb) => (false, cb)
  | (true, cb) =>
    let cb := cb.stateAt cfg now
    (true, if cb.state = .HALF_OPEN then { cb with halfOpenCalls := cb.halfOpenCalls + 1 } else cb)

/-- `reset`; the time of the last failure stays. -/
def reset (cb : CircuitBreaker) : CircuitBreaker :=
  { cb with state := .CLOSED, failureCount := 0, successCount := 0, halfOpenCalls := 0 }

/-! ## The state read -/

variable {cfg}

theorem stateAt_of_not_open {now : ℚ} {cb : CircuitBreaker} (h : cb.state ≠ .OPEN) :
    cb.stateAt cfg now = cb := if_neg fun h' => h h'.1

theorem stateAt_of_due {now : ℚ} {cb : CircuitBreaker} (ho : cb.state = .OPEN)
    (h : cfg.recoveryTimeout < now - cb.lastFailureTime) :
    cb.stateAt cfg now = { cb with state := .HALF_OPEN, halfOpenCalls := 0 } := if_pos ⟨ho, h⟩

/-- A second read at the same time changes nothing. -/
@[simp] theorem stateAt_stateAt (now : ℚ) (cb : CircuitBreaker) :
    (cb.stateAt cfg now).stateAt cfg now = cb.stateAt cfg now := by
  by_cases h : cb.state = .OPEN ∧ cfg.recoveryTimeout < now - cb.lastFailureTime
  · rw [stateAt_of_due h.1 h.2]
    exact stateAt_of_not_open (by simp)
  · have e : cb.stateAt cfg now = cb := if_neg h
    rw [e, e]

/-! ## What the recording functions do in each state -/

theorem recordSuccess_closed {cb : CircuitBreaker} (h : cb.state = .CLOSED) :
    cb.recordSuccess cfg = { cb with failureCount := cb.failureCount - 1 } := by
  simp only [recordSuccess, h]

theorem recordSuccess_open {cb : CircuitBreaker} (h : cb.state = .OPEN) :
    cb.recordSuccess cfg = cb := by
  simp only [recordSuccess, h]

theorem recordSuccess_halfOpen {cb : CircuitBreaker} (h : cb.state = .HALF_OPEN)
    (hlt : cb.successCount + 1 < cfg.halfOpenMaxCalls) :
    cb.recordSuccess cfg = { cb with successCount := cb.successCount + 1 } := by
  simp only [recordSuccess, h, if_neg (Nat.not_le_of_lt hlt)]

theorem recordSuccess_recover {cb : CircuitBreaker} (h : cb.state = .HALF_OPEN)
    (hge : cfg.halfOpenMaxCalls ≤ cb.successCount + 1) :
    cb.recordSuccess cfg = { cb with state := .CLOSED, failureCount := 0, successCount := 0 } := by
  simp only [recordSuccess, h, if_pos hge]

/-- A failure opens the circuit unless it was CLOSED and stays below the threshold. -/
theorem recordFailure_trip {now : ℚ} {cb : CircuitBreaker}
    (h : cb.state = .CLOSED → cfg.failureThreshold ≤ cb.failureCount + 1) :
    cb.recordFailure cfg now =
      { cb with state := .OPEN, failureCount := cb.failureCount + 1, lastFailureTime := now } := by
  cases hst : cb.state with
  | CLOSED => simp only [recordFailure, hst, if_pos (h hst)]
  | OPEN => simp only [recordFailure, hst]
  | HALF_OPEN => simp only [recordFailure, hst]

theorem recordFailure_closed {now : ℚ} {cb : CircuitBreaker} (h : cb.state = .CLOSED)
    (hlt : cb.failureCount + 1 < cfg.failureThreshold) :
    cb.recordFailure cfg now =
      { cb with failureCount := cb.failureCount + 1, lastFailureTime := now } := by
  simp only [recordFailure, h, if_neg (Nat.not_le_of_lt hlt)]

/-- A failure is counted in every state. -/
@[simp] theorem recordFailure_failureCount (now : ℚ) (cb : CircuitBreaker) :
    (cb.recordFailure cfg now).failureCount = cb.failureCount + 1 := by
  cases hst : cb.state with
  | CLOSED =>
    simp only [recordFailure, hst]
    split_ifs <;> rfl
  | OPEN => simp only [recordFailure, hst]
  | HALF_OPEN => simp only [recordFailure, hst]

/-! ## Admission -/

theorem canExecute_stateAt (now : ℚ) (cb : CircuitBreaker) :
    (cb.stateAt cfg now).canExecute cfg now = cb.canExecute cfg now := by
  simp only [canExecute, stateAt_stateAt]

/-- `execute` sees the breaker as the state read leaves it. -/
theorem enter_stateAt (now : ℚ) (cb : CircuitBreaker) :
    (cb.stateAt cfg now).enter cfg now = cb.enter cfg now := by
  simp only [enter, canExecute_stateAt]

theorem canExecute_closed {now : ℚ} {cb : CircuitBreaker} (h : cb.state = .CLOSED) :
    cb.canExecute cfg now = (true, cb) := by
  have e : cb.stateAt cfg now = cb := stateAt_of_not_open (by simp [h])
  simp only [canExecute, e, h]

theorem canExecute_halfOpen {now : ℚ} {cb : CircuitBreaker} (h : cb.state = .HALF_OPEN) :
    cb.canExecute cfg now = (decide (cb.halfOpenCalls < cfg.halfOpenMaxCalls), cb) := by
  have e : cb.stateAt cfg now = cb := stateAt_of_not_open (by simp [h])
  simp only [canExecute, e, h]

/-- The breaker after `can_execute` is the breaker after the state read. -/
theorem canExecute_snd (now : ℚ) (cb : CircuitBreaker) :
    (cb.canExecute cfg now).2 = cb.stateAt cfg now := by
  simp only [canExecute]
  split <;> rfl

theorem enter_closed {now : ℚ} {cb : CircuitBreaker} (h : cb.state = .CLOSED) :
    cb.enter cfg now = (true, cb) := by
  have e : cb.stateAt cfg now = cb := stateAt_of_not_open (by simp [h])
  simp [enter, canExecute_closed h, e, h]

theorem enter_halfOpen {now : ℚ} {cb : CircuitBreaker} (h : cb.state = .HALF_OPEN)
    (hc : cb.halfOpenCalls < cfg.halfOpenMaxCalls) :
    cb.enter cfg now = (true, { cb with halfOpenCalls := cb.halfOpenCalls + 1 }) := by
  have e : cb.stateAt cfg now = cb := stateAt_of_not_open (by simp [h])
  simp [enter, canExecute_halfOpen h, hc, e, h]

theorem enter_rejected {now : ℚ} {cb : CircuitBreaker} (h : (cb.canExecute cfg now).1 = false) :
    cb.enter cfg now = (false, cb.stateAt cfg now) := by
  have h2 : cb.canExecute cfg now = (false, cb.stateAt cfg now) :=
    Prod.ext h (canExecute_snd now cb)
  simp [enter, h2]

end CircuitBreaker

end BharatTicker
