/-
  File:      BharatTicker/LiveQuote.lean
  Subject:   THE SINGLE-FLIGHT LIVE QUOTE OF ONE KEY (`api/endpoints/superbrain.py`:
             `_do_live_fetch`, `_live_quote`).

  `_live_q_inflight[key]` is the slot of a flight registry, a flight is a `_do_live_fetch` task.
  What happens between two suspensions of the event loop is one step:

  * `liveQuote` -- a caller up to its `await task`;
  * `startFetch`, `answered` -- the task up to its first `get_quote_through`, and from each answer
    on; the cache is written in the segment in which the task ends;
  * `callback`, `resume` -- the done-callback, and a waiting caller once the task is done;
  * `cancel`, `throwIn` -- a waiting caller is cancelled: a task that it awaits is asked to cancel,
    and at its next step `CancelledError` is thrown into it.

  A caller keeps as ghosts the time of its call, what it found in `_live_q_cache[key]` and in
  `_live_q_inflight[key]`, and the task it started. Recording the tick is modelled in
  MarketData.lean.
-/
import BharatTicker.Basis.Run
import BharatTicker.Basis.SingleFlight
import BharatTicker.Provider

namespace BharatTicker

open Basis

/-! ## 1. State -/

/-- What a task ends in, and a caller gets: a tick, `None`, an exception, or `CancelledError`. -/
inductive QuoteOutcome where
  | tick (t : TickData)
  | noTick
  | raised (message : String)
  | cancelled
  deriving DecidableEq, Repr

/-- Where a task stands: scheduled, or in its first or second `get_quote_through`. -/
inductive FetchStage where
  | scheduled
  | fetching
  | fetchingOffSession
  deriving DecidableEq, Repr

structure FetchPhase where
  stage : FetchStage
  cancelRequested : Bool := false
  deriving DecidableEq, Repr

inductive CallerStatus where
  | idle
  | waiting (id : Nat)
  | returned (o : QuoteOutcome)
  deriving DecidableEq, Repr

structure Caller where
  status : CallerStatus := .idle
  cancelled : Bool := false
  calledAt : ℚ := 0
  cacheThen : Option (ℚ × TickData) := none
  inflightThen : Option Nat := none
  started : Option Nat := none

structure LiveQuotes where
  cache : Option (ℚ × TickData) := none
  flights : Flights FetchPhase QuoteOutcome := {}
  callers : Nat → Caller := fun _ => {}

namespace LiveQuotes

def setCaller (s : LiveQuotes) (c : Nat) (caller : Caller) : LiveQuotes :=
  { s with callers := Function.update s.callers c caller }

@[simp] theorem setCaller_callers_self (s : LiveQuotes) (c : Nat) (caller : Caller) :
    (s.setCaller c caller).callers c = caller := Function.update_self ..

theorem setCaller_callers_of_ne {s : LiveQuotes} {c n : Nat} {caller : Caller} (h : n ≠ c) :
    (s.setCaller c caller).callers n = s.callers n := Function.update_of_ne h ..

/-! ## 2. Callers -/

/-- `if hit and time.time() - hit[0] < _LIVE_Q_TTL_S`. -/
def hit? (ttl now : ℚ) (cache : Option (ℚ × TickData)) : Option TickData :=
  match cache with
  | some (ts, t) => if now - ts < ttl then some t else none
  | none => none

/-- `await task`: a task that is done is not waited for. -/
def awaitTask (fs : Flights FetchPhase QuoteOutcome) (id : Nat) : CallerStatus :=
  match fs.outcome? id with
  | some o => .returned o
  | none => .waiting id

/-- `_live_quote` up to the suspension in `await task`. -/
def liveQuote (ttl : ℚ) (c : Nat) (now : ℚ) (s : LiveQuotes) : LiveQuotes :=
  let caller : Caller := { calledAt := now, cacheThen := s.cache, inflightThen := s.flights.slot }
  match hit? ttl now s.cache with
  | some t => s.setCaller c { caller with status := .returned (.tick t) }
  | none =>
    match s.flights.slot with
    | some id => s.setCaller c { caller with status := awaitTask s.flights id }
    | none =>
      let id := s.flights.fresh
      let s := { s with flights := s.flights.launch { stage := .scheduled } }
      s.setCaller c { caller with status := awaitTask s.flights id, started := some id }

/-- A waiting caller whose task is done. -/
def resume (c : Nat) (s : LiveQuotes) : Option LiveQuotes :=
  match (s.callers c).status with
  | .waiting id =>
    (s.flights.outcome? id).map fun o =>
      let o := if (s.callers c).cancelled then .cancelled else o
      s.setCaller c { s.callers c with status := .returned o }
  | _ => none

/-- `Task.cancel` on a waiting caller: it cancels what the caller awaits, if that is not done. -/
def cancel (c : Nat) (s : LiveQuotes) : Option LiveQuotes :=
  match (s.callers c).status with
  | .waiting id =>
    let s := s.setCaller c { s.callers c with cancelled := true }
    match s.flights.flight id with
    | some (.pending phase) =>
      some { s with flights := s.flights.advance id { phase with cancelRequested := true } }
    | _ => some s
  | _ => none

/-! ## 3. Tasks -/

/-- The first segment of the task. -/
def startFetch (id : Nat) (s : LiveQuotes) : Option LiveQuotes :=
  match s.flights.flight id with
  | some (.pending ⟨.scheduled, false⟩) =>
    some { s with flights := s.flights.advance id { stage := .fetching } }
  | _ => none

/-- The end of `_do_live_fetch`: the cache write, and `return tick`. -/
def finish (id : Nat) (now : ℚ) (tick : Option TickData) (s : LiveQuotes) : LiveQuotes :=
  match tick with
  | some t => { s with cache := some (now, t), flights := s.flights.settle id (.tick t) }
  | none => { s with flights := s.flights.settle id .noTick }

/-- `get_quote_through` returns (`none` for `None`) or raises. -/
def answered (id : Nat) (answer : Except String (Option TickData)) (marketOpen : Bool) (now : ℚ)
    (s : LiveQuotes) : Option LiveQuotes :=
  match s.flights.flight id with
  | some (.pending ⟨stage, false⟩) =>
    if stage = .scheduled then none
    else
      match answer with
      | .error m => some { s with flights := s.flights.settle id (.raised m) }
      | .ok tick =>
        if stage = .fetching ∧ tick = none ∧ marketOpen = false then
          some { s with flights := s.flights.advance id { stage := .fetchingOffSession } }
        else some (s.finish id now tick)
  | _ => none

/-- `CancelledError` is thrown into a task that was asked to cancel. -/
def throwIn (id : Nat) (s : LiveQuotes) : Option LiveQuotes :=
  match s.flights.flight id with
  | some (.pending ⟨_, true⟩) => some { s with flights := s.flights.settle id .cancelled }
  | _ => none

/-- `lambda t: _live_q_inflight.pop(key, None)`, once the task is done. -/
def callback (id : Nat) (s : LiveQuotes) : Option LiveQuotes :=
  match s.flights.flight id with
  | some (.settled o false) => some { s with flights := s.flights.release id o }
  | _ => none

/-! ## 4. The system -/

inductive Action where
  | call (c : Nat) (now : ℚ)
  | startFetch (id : Nat)
  | answered (id : Nat) (answer : Except String (Option TickData)) (marketOpen : Bool) (now : ℚ)
  | callback (id : Nat)
  | resume (c : Nat)
  | cancel (c : Nat)
  | throwIn (id : Nat)

/-- Callers are numbered; each calls once. -/
def step (ttl : ℚ) (s : LiveQuotes) : Action → Option LiveQuotes
  | .call c now =>
    if (s.callers c).status = .idle then some (liveQuote ttl c now s) else none
  | .startFetch id => startFetch id s
  | .answered id answer marketOpen now => answered id answer marketOpen now s
  | .callback id => callback id s
  | .resume c => resume c s
  | .cancel c => cancel c s
  | .throwIn id => throwIn id s

end LiveQuotes

end BharatTicker
