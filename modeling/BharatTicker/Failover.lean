/-
  File:      BharatTicker/Failover.lean
  Subject:   THE FAILOVER CONTROLLER (`engine/failover.py`): registration and `fetch_quote`.

  The dictionaries of the controller are functions of the provider name; the connection flag of a
  provider object is kept beside them. What a provider does when the cascade reaches it is given
  by an environment (`Attempt`): whether `connect` raises, what `fetch_quote` returns or raises,
  and the times at which the breaker is asked and told. One call of `fetch_quote` is

  * `filteredOut` -- the four `continue`s before the breaker is asked;
  * `tryProvider` -- one round of the loop;
  * `cascade`, `fetchQuote` -- the loop, with the providers it fetched from, in order.
-/
import BharatTicker.CircuitBreaker
import BharatTicker.Provider

namespace BharatTicker

/-- What the controller holds. `isConnected` is `provider.is_connected`. -/
structure FailoverController where
  providers : List Provider := []
  circuitBreakers : String → CircuitBreaker := fun _ => {}
  enabled : String → Bool := fun _ => true
  isConnected : String → Bool := fun _ => false

/-- The arguments of `fetch_quote`. -/
structure QuoteRequest where
  symbol : String
  source : Option String := none
  excludeDelayed : Bool := false
  exchange : Option String := none
  deriving DecidableEq, Repr

/-- What `await provider.fetch_quote(symbol)` ends in. -/
inductive FetchOutcome where
  | tick (t : TickData)
  | providerError (e : ProviderError)
  | circuitOpenError (message : String)
  | exception (message : String)
  deriving DecidableEq, Repr

/-- What the cascade meets at one provider: the time its breaker is asked, what `connect` raises
    (if it is called), the time `execute` starts, the outcome of the fetch, the time a failure is
    recorded, and the connection flag afterwards. -/
structure Attempt where
  checkedAt : ℚ
  connectError : Option String := none
  startedAt : ℚ
  fetch : FetchOutcome
  endedAt : ℚ
  leavesConnected : Bool := true

/-- How one round of the loop ends. -/
inductive RoundOutcome where
  | answer (t : TickData)
  | next (error : Option String)
  deriving DecidableEq, Repr

/-- One round: the controller after it, whether the provider was fetched from, and how it ends. -/
structure Round where
  controller : FailoverController
  fetched : Bool
  outcome : RoundOutcome

/-- One call: the controller after it, the providers fetched from in order, and the tick or the
    error raised. -/
structure CascadeResult where
  controller : FailoverController
  fetched : List Provider
  result : Except ProviderError TickData

/-- The provider that answered, with its tick; `none`: all failed. -/
def CascadeResult.answer (c : CascadeResult) : Option (Provider × TickData) :=
  match c.result with
  | .ok t => c.fetched.getLast?.map fun p => (p, t)
  | .error _ => none

namespace FailoverController

/-! ## 1. Registration and switches -/

/-- `register_provider`: append, sort by `(priority or tier * 10, name)` (a stable sort), a fresh
    breaker, enabled unless the name was switched off before. -/
def registerProvider (fc : FailoverController) (p : Provider) : FailoverController :=
  { fc with
    providers := (fc.providers ++ [p]).insertionSort (fun a b => a.sortKey ≤ b.sortKey)
    circuitBreakers := Function.update fc.circuitBreakers p.name {} }

/-- Registration of several providers, one after another. -/
def registerAll (fc : FailoverController) (ps : List Provider) : FailoverController :=
  ps.foldl registerProvider fc

/-- `set_enabled`: switch a provider or a source group; the flag says whether one matched. -/
def setEnabled (fc : FailoverController) (name : String) (enabled : Bool) :
    Bool × FailoverController :=
  let matched := fc.providers.filter fun p => p.name = name || sourceMatch p name
  (!matched.isEmpty,
    { fc with enabled := fun n => if n ∈ matched.map (·.name) then enabled else fc.enabled n })

def setBreaker (fc : FailoverController) (name : String) (cb : CircuitBreaker) :
    FailoverController :=
  { fc with circuitBreakers := Function.update fc.circuitBreakers name cb }

def setConnected (fc : FailoverController) (name : String) (c : Bool) : FailoverController :=
  { fc with isConnected := Function.update fc.isConnected name c }

end FailoverController

/-! ## 2. One call of `fetch_quote` -/

/-- `forced = bool(source and source != "auto")`, with the source. -/
def QuoteRequest.forced? (req : QuoteRequest) : Option String :=
  match req.source with
  | some s => if s = "" ∨ s = "auto" then none else some s
  | none => none

/-- `if exchange and provider.exchange != exchange`. -/
def offVenue (req : QuoteRequest) (p : Provider) : Bool :=
  match req.exchange with
  | some e => e ≠ "" && p.exchange.str ≠ e
  | none => false

/-- `if forced and not _source_match(provider, source)`. -/
def offSource (req : QuoteRequest) (p : Provider) : Bool :=
  match req.forced? with
  | some s => !sourceMatch p s
  | none => false

/-- `if exclude_delayed and provider.delayed and not forced`. -/
def barredDelayed (req : QuoteRequest) (p : Provider) : Bool :=
  req.excludeDelayed && p.delayed && req.forced?.isNone

/-- The four `continue`s before the breaker is asked. -/
def filteredOut (fc : FailoverController) (req : QuoteRequest) (p : Provider) : Bool :=
  if !fc.enabled p.name then true
  else if offVenue req p then true
  else if offSource req p then true
  else if barredDelayed req p then true
  else false

section Call

variable (cfg : BreakerConfig) (req : QuoteRequest)

/-- `await cb.execute(provider.fetch_quote, symbol)` and the `except` clauses around it. -/
def executeFetch (a : Attempt) (p : Provider) (fc : FailoverController) : Round :=
  match (fc.circuitBreakers p.name).enter cfg a.startedAt with
  | (false, cb) => ⟨fc.setBreaker p.name cb, false, .next none⟩
  | (true, cb) =>
    match a.fetch with
    | .tick t => ⟨fc.setBreaker p.name (cb.recordSuccess cfg), true, .answer t⟩
    | .providerError e =>
      ⟨fc.setBreaker p.name (cb.recordFailure cfg a.endedAt), true,
        .next (some (p.name ++ ": " ++ e.str))⟩
    -- raised inside the fetch: recorded by `execute`, and skipped over like a rejection
    | .circuitOpenError _ =>
      ⟨fc.setBreaker p.name (cb.recordFailure cfg a.endedAt), true, .next none⟩
    -- recorded by `execute`, and once more by the last `except` clause
    | .exception m =>
      ⟨fc.setBreaker p.name ((cb.recordFailure cfg a.endedAt).recordFailure cfg a.endedAt), true,
        .next (some (p.name ++ ": " ++ m))⟩

/-- One round of the loop. -/
def tryProvider (a : Attempt) (p : Provider) (fc : FailoverController) : Round :=
  if filteredOut fc req p then ⟨fc, false, .next none⟩
  else
    match (fc.circuitBreakers p.name).canExecute cfg a.checkedAt with
    | (false, cb) => ⟨fc.setBreaker p.name cb, false, .next none⟩
    | (true, cb) =>
      let fc := fc.setBreaker p.name cb
      if fc.isConnected p.name then executeFetch cfg a p fc
      else
        match a.connectError with
        | some _ => ⟨fc.setBreaker p.name (cb.recordFailure cfg a.endedAt), false, .next none⟩
        | none => executeFetch cfg a p (fc.setConnected p.name a.leavesConnected)

/-- `ProviderError("failover", f"All providers failed for {symbol}: {error_summary}")`. -/
def allFailed (symbol : String) (errors : List String) : ProviderError where
  provider := "failover"
  message := "All providers failed for " ++ symbol ++ ": " ++
    (if errors = [] then "No providers available" else String.intercalate " | " errors)

/-- The loop over the providers that are left, with the errors collected so far. -/
def cascade (env : String → Attempt) : List Provider → FailoverController → List String →
    CascadeResult
  | [], fc, errors => ⟨fc, [], .error (allFailed req.symbol errors)⟩
  | p :: ps, fc, errors =>
    let r := tryProvider cfg req (env p.name) p fc
    match r.outcome with
    | .answer t => ⟨r.controller, [p], .ok t⟩
    | .next error =>
      let rest := cascade env ps r.controller (errors ++ error.toList)
      { rest with fetched := if r.fetched then p :: rest.fetched else rest.fetched }

/-- `fetch_quote`. -/
def fetchQuote (env : String → Attempt) (fc : FailoverController) : CascadeResult :=
  cascade cfg req env fc.providers fc []

end Call

end BharatTicker
