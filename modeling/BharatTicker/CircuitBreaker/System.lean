/-
  File:      BharatTicker/CircuitBreaker/System.lean
  Subject:   ONE BREAKER UNDER OVERLAPPING CALLS. The step function, its history, and what one
             step can do.

  Any number of `execute` calls overlap: a call is admitted (or rejected) at one time and ends at
  another, by success, by an `Exception`, or by a `BaseException` such as `CancelledError`, which
  `except Exception` does not see. Next to them stand direct `record_failure` calls (the cascade
  makes them when `connect` raises), `reset`, and plain state reads.

  * `BreakerSystem`, `BreakerSystem.step` -- the breaker, the calls in flight, and the history of
    what happened, newest first;
  * `lastFailure`, `episode`, `probes`, `counted`, `ownSuccesses`, `ownCancelled` -- what the
    results about whole runs read off a history;
  * `BreakerMove`, `step_moves` -- the inversion of one step: at most a state read and then one
    move. Every invariant is proved move by move.
-/
import BharatTicker.CircuitBreaker

namespace BharatTicker

open Basis

/-! ## 1. Actions, events, states -/

/-- How an admitted call ends. -/
inductive Ending where
  | success
  | failure
  | cancelled
  deriving DecidableEq, Repr

/-- What the program does with a breaker, each at its time. -/
inductive BreakerAction where
  | execute (t : ℚ)
  | finish (call : Nat) (how : Ending) (t : ℚ)
  | recordFailure (t : ℚ)
  | reset (t : ℚ)
  | read (t : ℚ)
  deriving DecidableEq, Repr

/-- The time an action is taken at. -/
def BreakerAction.time : BreakerAction → ℚ
  | .execute t | .finish _ _ t | .recordFailure t | .reset t | .read t => t

/-- What is noted in the history. `admitted`, `succeeded` and `cancelled` carry the state the breaker
    was in. -/
inductive BreakerEvent where
  | halfOpened (t : ℚ)
  | admitted (call : Nat) (t : ℚ) (st : CircuitState)
  | rejected (t : ℚ)
  | succeeded (call : Nat) (t : ℚ) (st : CircuitState)
  | failed (call : Option Nat) (t : ℚ)
  | cancelled (call : Nat) (t : ℚ) (st : CircuitState)
  | closed (t : ℚ)
  | reset (t : ℚ)
  deriving DecidableEq, Repr

/-- The breaker with the calls in flight and its history, newest event first. -/
structure BreakerSystem where
  breaker : CircuitBreaker := {}
  inFlight : List Nat := []
  nextCall : Nat := 0
  history : List BreakerEvent := []
  deriving DecidableEq, Repr

/-- The in-flight calls after a failure was recorded for `who` (`none`: a direct
    `record_failure`). -/
def removeCall (who : Option Nat) (inFlight : List Nat) : List Nat :=
  match who with
  | none => inFlight
  | some c => inFlight.erase c

namespace BreakerSystem

variable (cfg : BreakerConfig)

/-- The history after a state read at `t` took the breaker from `old` to `new`. -/
def noteRead (old new : CircuitBreaker) (t : ℚ) (history : List BreakerEvent) :
    List BreakerEvent :=
  if old.state = .OPEN ∧ new.state = .HALF_OPEN then .halfOpened t :: history else history

/-- A read of `state` (also through `is_closed`, `is_open`, `to_dict`, `can_execute`). -/
def read (t : ℚ) (s : BreakerSystem) : BreakerSystem :=
  let b := s.breaker.stateAt cfg t
  { s with breaker := b, history := noteRead s.breaker b t s.history }

/-- The admission check of `execute`, and the call put in flight when it passes. -/
def enterCall (t : ℚ) (s : BreakerSystem) : BreakerSystem :=
  match s.breaker.enter cfg t with
  | (true, b) =>
    { breaker := b
      inFlight := s.nextCall :: s.inFlight
      nextCall := s.nextCall + 1
      history := .admitted s.nextCall t b.state :: s.history }
  | (false, b) => { s with breaker := b, history := .rejected t :: s.history }

/-- The start of an `execute` call. The state read `can_execute` begins with is noted first; `enter`
    then finds the breaker as that read left it (`CircuitBreaker.enter_stateAt`). -/
def execute (t : ℚ) (s : BreakerSystem) : BreakerSystem := (s.read cfg t).enterCall cfg t

/-- The wrapped call returned: `execute` records the success. -/
def succeed (c : Nat) (t : ℚ) (s : BreakerSystem) : BreakerSystem :=
  let b := s.breaker.recordSuccess cfg
  let h := .succeeded c t s.breaker.state :: s.history
  { s with
    breaker := b
    inFlight := s.inFlight.erase c
    history := if s.breaker.state = .HALF_OPEN ∧ b.state = .CLOSED then .closed t :: h else h }

/-- A failure is recorded, by `execute` for a call that raised or directly. -/
def fail (who : Option Nat) (t : ℚ) (s : BreakerSystem) : BreakerSystem :=
  { s with
    breaker := s.breaker.recordFailure cfg t
    inFlight := removeCall who s.inFlight
    history := .failed who t :: s.history }

/-- One action; a call that is not in flight cannot end. -/
def step (s : BreakerSystem) : BreakerAction → Option BreakerSystem
  | .execute t => some (s.execute cfg t)
  | .finish c how t =>
    if c ∈ s.inFlight then
      match how with
      | .success => some (s.succeed cfg c t)
      | .failure => some (s.fail cfg (some c) t)
      -- `except Exception` does not catch a BaseException: nothing is recorded
      | .cancelled =>
        some { s with
          inFlight := s.inFlight.erase c, history := .cancelled c t s.breaker.state :: s.history }
    else none
  | .recordFailure t => some (s.fail cfg none t)
  | .reset t => some { s with breaker := s.breaker.reset, history := .reset t :: s.history }
  | .read t => some (s.read cfg t)

end BreakerSystem

/-! ## 2. What a history says -/

namespace BreakerEvent

def isHalfOpened : BreakerEvent → Bool
  | .halfOpened _ => true
  | _ => false

/-- The counters start afresh: the circuit closed, or was reset. -/
def endsRecovery : BreakerEvent → Bool
  | .closed _ | .reset _ => true
  | _ => false

def failureTime? : BreakerEvent → Option ℚ
  | .failed _ t => some t
  | _ => none

/-- The call, when the event is an admission in HALF_OPEN. -/
def probe? : BreakerEvent → Option Nat
  | .admitted c _ .HALF_OPEN => some c
  | _ => none

/-- The call, when the event is a success recorded in HALF_OPEN. -/
def countedSuccess? : BreakerEvent → Option Nat
  | .succeeded c _ .HALF_OPEN => some c
  | _ => none

/-- The call, when the event is a cancellation in HALF_OPEN. -/
def cancelledCall? : BreakerEvent → Option Nat
  | .cancelled c _ .HALF_OPEN => some c
  | _ => none

/-- The call an event is about. -/
def call? : BreakerEvent → Option Nat
  | .admitted c _ _ | .succeeded c _ _ | .cancelled c _ _ => some c
  | .failed who _ => who
  | _ => none

end BreakerEvent

section History

variable (h : List BreakerEvent)

/-- The time of the most recent recorded failure. -/
def lastFailure : Option ℚ := h.findSome? BreakerEvent.failureTime?

/-- What happened since the most recent OPEN-to-HALF_OPEN transition. -/
def episode : List BreakerEvent := h.takeWhile fun e => !e.isHalfOpened

/-- The calls admitted in HALF_OPEN since then. -/
def probes : List Nat := (episode h).filterMap BreakerEvent.probe?

/-- The calls whose success was counted since the circuit last closed or was reset. -/
def counted : List Nat :=
  (h.takeWhile fun e => !e.endsRecovery).filterMap BreakerEvent.countedSuccess?

/-- The successes counted in the current episode. -/
def episodeSuccesses : List Nat := (episode h).filterMap BreakerEvent.countedSuccess?

/-- The successful completions of calls admitted in the current episode. -/
def ownSuccesses : List Nat := (episodeSuccesses h).filter fun c => c ∈ probes h

/-- The calls cancelled in HALF_OPEN in the current episode. -/
def episodeCancelled : List Nat := (episode h).filterMap BreakerEvent.cancelledCall?

/-- Those of them that were admitted in the current episode. -/
def ownCancelled : List Nat := (episodeCancelled h).filter fun c => c ∈ probes h

theorem filterMap_toList {β : Type} (f : BreakerEvent → Option β) (e : BreakerEvent) :
    (e :: h).filterMap f = (f e).toList ++ h.filterMap f := by
  cases hf : f e with
  | none => exact List.filterMap_cons_none hf
  | some b => exact List.filterMap_cons_some hf

theorem episode_cons (e : BreakerEvent) :
    episode (e :: h) = if e.isHalfOpened then [] else e :: episode h := by
  unfold episode
  rw [List.takeWhile_cons]
  cases e.isHalfOpened <;> rfl

/-- What is read off the current episode, one event later. -/
theorem filterMap_episode_cons {β : Type} (f : BreakerEvent → Option β) (e : BreakerEvent) :
    (episode (e :: h)).filterMap f =
      if e.isHalfOpened then [] else (f e).toList ++ (episode h).filterMap f := by
  rw [episode_cons]
  cases e.isHalfOpened
  · exact filterMap_toList _ f e
  · rfl

theorem probes_cons (e : BreakerEvent) :
    probes (e :: h) = if e.isHalfOpened then [] else (e.probe?).toList ++ probes h :=
  filterMap_episode_cons h _ e

theorem episodeCancelled_cons (e : BreakerEvent) :
    episodeCancelled (e :: h) =
      if e.isHalfOpened then [] else (e.cancelledCall?).toList ++ episodeCancelled h :=
  filterMap_episode_cons h _ e

end History

/-! ## 3. What one step can do -/

/-- **One move at time `t`.** The fail moves carry the state the breaker ends in. -/
inductive BreakerMove (cfg : BreakerConfig) (t : ℚ) : BreakerSystem → BreakerSystem → Prop where
  | halfOpen (s : BreakerSystem) (ho : s.breaker.state = .OPEN)
      (hdue : cfg.recoveryTimeout < t - s.breaker.lastFailureTime) :
      BreakerMove cfg t s
        { s with
          breaker := { s.breaker with state := .HALF_OPEN, halfOpenCalls := 0 }
          history := .halfOpened t :: s.history }
  | admitClosed (s : BreakerSystem) (hs : s.breaker.state = .CLOSED) :
      BreakerMove cfg t s
        { s with
          inFlight := s.nextCall :: s.inFlight
          nextCall := s.nextCall + 1
          history := .admitted s.nextCall t .CLOSED :: s.history }
  | admitHalfOpen (s : BreakerSystem) (hs : s.breaker.state = .HALF_OPEN)
      (hc : s.breaker.halfOpenCalls < cfg.halfOpenMaxCalls) :
      BreakerMove cfg t s
        { breaker := { s.breaker with halfOpenCalls := s.breaker.halfOpenCalls + 1 }
          inFlight := s.nextCall :: s.inFlight
          nextCall := s.nextCall + 1
          history := .admitted s.nextCall t .HALF_OPEN :: s.history }
  | reject (s : BreakerSystem) : BreakerMove cfg t s { s with history := .rejected t :: s.history }
  | succeedClosed (s : BreakerSystem) (c : Nat) (hc : c ∈ s.inFlight)
      (hs : s.breaker.state = .CLOSED) :
      BreakerMove cfg t s
        { s with
          breaker := { s.breaker with failureCount := s.breaker.failureCount - 1 }
          inFlight := s.inFlight.erase c
          history := .succeeded c t .CLOSED :: s.history }
  | succeedOpen (s : BreakerSystem) (c : Nat) (hc : c ∈ s.inFlight)
      (hs : s.breaker.state = .OPEN) :
      BreakerMove cfg t s
        { s with inFlight := s.inFlight.erase c, history := .succeeded c t .OPEN :: s.history }
  | succeedHalfOpen (s : BreakerSystem) (c : Nat) (hc : c ∈ s.inFlight)
      (hs : s.breaker.state = .HALF_OPEN)
      (hlt : s.breaker.successCount + 1 < cfg.halfOpenMaxCalls) :
      BreakerMove cfg t s
        { s with
          breaker := { s.breaker with successCount := s.breaker.successCount + 1 }
          inFlight := s.inFlight.erase c
          history := .succeeded c t .HALF_OPEN :: s.history }
  | recover (s : BreakerSystem) (c : Nat) (hc : c ∈ s.inFlight)
      (hs : s.breaker.state = .HALF_OPEN)
      (hge : cfg.halfOpenMaxCalls ≤ s.breaker.successCount + 1) :
      BreakerMove cfg t s
        { s with
          breaker := { s.breaker with state := .CLOSED, failureCount := 0, successCount := 0 }
          inFlight := s.inFlight.erase c
          history := .closed t :: .succeeded c t .HALF_OPEN :: s.history }
  | trip (s : BreakerSystem) (who : Option Nat) (hw : ∀ c, who = some c → c ∈ s.inFlight) :
      BreakerMove cfg t s
        { s with
          breaker := { s.breaker with
            state := .OPEN, failureCount := s.breaker.failureCount + 1, lastFailureTime := t }
          inFlight := removeCall who s.inFlight
          history := .failed who t :: s.history }
  | failClosed (s : BreakerSystem) (who : Option Nat) (hw : ∀ c, who = some c → c ∈ s.inFlight)
      (hs : s.breaker.state = .CLOSED)
      (hlt : s.breaker.failureCount + 1 < cfg.failureThreshold) :
      BreakerMove cfg t s
        { s with
          breaker := { s.breaker with
            failureCount := s.breaker.failureCount + 1, lastFailureTime := t }
          inFlight := removeCall who s.inFlight
          history := .failed who t :: s.history }
  | cancel (s : BreakerSystem) (c : Nat) (hc : c ∈ s.inFlight) :
      BreakerMove cfg t s
        { s with
          inFlight := s.inFlight.erase c, history := .cancelled c t s.breaker.state :: s.history }
  | reset (s : BreakerSystem) :
      BreakerMove cfg t s
        { s with breaker := s.breaker.reset, history := .reset t :: s.history }

/-- Moves, all at the one time `t`. -/
abbrev BreakerMoves (cfg : BreakerConfig) (t : ℚ) : BreakerSystem → BreakerSystem → Prop :=
  Relation.ReflTransGen (BreakerMove cfg t)

section Step

variable {cfg : BreakerConfig} {t : ℚ} {s s' : BreakerSystem}

/-- A state read moves OPEN to HALF_OPEN or changes nothing. -/
theorem read_moves (t : ℚ) (s : BreakerSystem) : BreakerMoves cfg t s (s.read cfg t) := by
  by_cases h : s.breaker.state = .OPEN ∧ cfg.recoveryTimeout < t - s.breaker.lastFailureTime
  · have e : s.read cfg t =
        { s with
          breaker := { s.breaker with state := .HALF_OPEN, halfOpenCalls := 0 }
          history := .halfOpened t :: s.history } := by
      simp [BreakerSystem.read, BreakerSystem.noteRead, CircuitBreaker.stateAt, h]
    rw [e]
    exact .single (.halfOpen s h.1 h.2)
  · have eb : s.breaker.stateAt cfg t = s.breaker := if_neg h
    have en : BreakerSystem.noteRead s.breaker s.breaker t s.history = s.history :=
      if_neg fun hh => by rw [hh.1] at hh; cases hh.2
    have e : s.read cfg t = s := by
      unfold BreakerSystem.read
      simp only [eb, en]
    rw [e]

/-- Starting a call: the state read, then an admission or a rejection. -/
theorem execute_moves (t : ℚ) (s : BreakerSystem) : BreakerMoves cfg t s (s.execute cfg t) := by
  refine (read_moves t s).trans (.single ?_)
  unfold BreakerSystem.execute BreakerSystem.enterCall
  have hrd : (s.read cfg t).breaker.stateAt cfg t = (s.read cfg t).breaker :=
    CircuitBreaker.stateAt_stateAt t s.breaker
  generalize s.read cfg t = r at hrd ⊢
  by_cases hrej : (r.breaker.canExecute cfg t).1 = false
  · rw [CircuitBreaker.enter_rejected hrej, hrd]
    exact .reject r
  · cases hst : r.breaker.state with
    | CLOSED =>
      rw [CircuitBreaker.enter_closed hst]
      have hm : BreakerMove cfg t r _ := .admitClosed r hst
      simpa only [hst] using hm
    | HALF_OPEN =>
      have hc : r.breaker.halfOpenCalls < cfg.halfOpenMaxCalls := by
        simpa [CircuitBreaker.canExecute_halfOpen hst] using hrej
      rw [CircuitBreaker.enter_halfOpen hst hc]
      have hm : BreakerMove cfg t r _ := .admitHalfOpen r hst hc
      simpa only [hst] using hm
    | OPEN =>
      refine absurd ?_ hrej
      simp only [CircuitBreaker.canExecute, hrd, hst]

theorem succeed_moves {c : Nat} (hc : c ∈ s.inFlight) (t : ℚ) :
    BreakerMoves cfg t s (s.succeed cfg c t) := by
  refine .single ?_
  unfold BreakerSystem.succeed
  cases hst : s.breaker.state with
  | CLOSED =>
    have hm : BreakerMove cfg t s _ := .succeedClosed s c hc hst
    simpa [CircuitBreaker.recordSuccess_closed hst, hst] using hm
  | OPEN =>
    have hm : BreakerMove cfg t s _ := .succeedOpen s c hc hst
    simpa [CircuitBreaker.recordSuccess_open hst, hst] using hm
  | HALF_OPEN =>
    by_cases hge : cfg.halfOpenMaxCalls ≤ s.breaker.successCount + 1
    · have hm : BreakerMove cfg t s _ := .recover s c hc hst hge
      simpa [CircuitBreaker.recordSuccess_recover hst hge] using hm
    · have hlt := Nat.lt_of_not_le hge
      have hm : BreakerMove cfg t s _ := .succeedHalfOpen s c hc hst hlt
      simpa [CircuitBreaker.recordSuccess_halfOpen hst hlt, hst] using hm

theorem fail_moves {who : Option Nat} (hw : ∀ c, who = some c → c ∈ s.inFlight) (t : ℚ) :
    BreakerMoves cfg t s (s.fail cfg who t) := by
  refine .single ?_
  unfold BreakerSystem.fail
  by_cases h : s.breaker.state = .CLOSED → cfg.failureThreshold ≤ s.breaker.failureCount + 1
  · rw [CircuitBreaker.recordFailure_trip h]
    exact .trip s who hw
  · obtain ⟨hst, hlt⟩ := Classical.not_imp.mp h
    rw [CircuitBreaker.recordFailure_closed hst (Nat.lt_of_not_le hlt)]
    exact .failClosed s who hw hst (Nat.lt_of_not_le hlt)

theorem finish_moves {c : Nat} {how : Ending} (h : s.step cfg (.finish c how t) = some s') :
    BreakerMoves cfg t s s' := by
  by_cases hc : c ∈ s.inFlight
  · cases how with
    | success =>
      obtain rfl : s.succeed cfg c t = s' := by simpa [BreakerSystem.step, hc] using h
      exact succeed_moves hc t
    | failure =>
      obtain rfl : s.fail cfg (some c) t = s' := by simpa [BreakerSystem.step, hc] using h
      exact fail_moves (fun c' e => Option.some.inj e ▸ hc) t
    | cancelled =>
      obtain rfl : { s with
          inFlight := s.inFlight.erase c, history := .cancelled c t s.breaker.state :: s.history }
          = s' := by simpa [BreakerSystem.step, hc] using h
      exact .single (.cancel s c hc)
  · simp [BreakerSystem.step, hc] at h

/-- **What one step can do**: moves at the time of its action. -/
theorem step_moves {a : BreakerAction} (h : s.step cfg a = some s') :
    BreakerMoves cfg a.time s s' := by
  cases a with
  | execute t =>
    cases h
    exact execute_moves t s
  | finish c how t => exact finish_moves h
  | recordFailure t =>
    cases h
    exact fail_moves (fun c e => by cases e) t
  | reset t =>
    cases h
    exact .single (.reset s)
  | read t =>
    cases h
    exact read_moves t s

theorem moves_invariant {I : BreakerSystem → Prop}
    (hmove : ∀ s s', I s → BreakerMove cfg t s s' → I s') (h0 : I s)
    (hms : BreakerMoves cfg t s s') : I s' := by
  induction hms with
  | refl => exact h0
  | tail _ hm ih => exact hmove _ _ ih hm

/-- **The invariant rule of the breaker**: what every move keeps holds in every state reached. -/
theorem breaker_invariant {I : BreakerSystem → Prop}
    (hmove : ∀ t s s', I s → BreakerMove cfg t s s' → I s') (h0 : I {}) {acts : List BreakerAction}
    (hr : run (BreakerSystem.step cfg) {} acts = some s) : I s :=
  run_invariant (fun _ _ _ hI hs => moves_invariant (hmove _) hI (step_moves hs)) h0 hr

/-- The same with a clock: `I t` may speak of the current time `t`. -/
theorem breaker_invariant_clocked {I : ℚ → BreakerSystem → Prop}
    (hlater : ∀ t t' s, t ≤ t' → I t s → I t' s)
    (hmove : ∀ t s s', I t s → BreakerMove cfg t s s' → I t s') (h0 : ∀ t, I t {})
    {acts : List BreakerAction} (hmono : (acts.map BreakerAction.time).Pairwise (· ≤ ·))
    (hr : run (BreakerSystem.step cfg) {} acts = some s) : ∃ t, I t s := by
  have hfm : acts.filterMap (fun a => some a.time) = acts.map BreakerAction.time :=
    congrFun List.filterMap_eq_map _
  obtain ⟨t₀, h₀⟩ := exists_clock hmono
  rw [← hfm] at hmono h₀
  obtain ⟨t', h'⟩ := run_clocked (fun a => some (BreakerAction.time a)) t₀ hmono h₀ hr
  refine ⟨t', run_invariant (I := fun p => I p.2 p.1) (fun p e p' hI hs => ?_) (h0 t₀) h'⟩
  obtain ⟨h₁, hp, ht⟩ := clocked_cases hs
  have hms := step_moves h₁
  rw [← ht e.time rfl] at hms
  exact moves_invariant (hmove _) (hlater _ _ _ hp hI) hms

end Step

end BharatTicker
