/-
  File:      BharatTicker/MarketData.lean
  Subject:   WHAT FEEDS THE LIVE TAPE: `get_quote_through` (`engine/market_data.py`), `sample_once`
             and the recorder loop (`engine/live_candles.py`), `_do_live_fetch`
             (`api/endpoints/superbrain.py`).

  The feed is the shared failover controller, the live candle engine and the off-session retries
  that are due. `appended` is a ghost: every sample the engine has appended for the feed, with the
  provider that answered. A call of `fetch_quote` is one step; between two steps of the feed the rest of
  the program may set the engine, the switches, the breakers and the connections to anything
  (`elsewhere`). The cache writes of `get_quote_through` and of `_do_live_fetch` are left out here.

  * `controller` -- the providers that `_controller` registers;
  * `getQuoteThrough` -- the cascade for a symbol, its exceptions turned into no tick;
  * `sampleOnce`, `recordLoopTurn`, `doLiveFetch`, `retryOffSession` -- who records what it got;
  * `step` -- the feed as a transition system.
-/
import BharatTicker.Basis.Run
import BharatTicker.Failover
import BharatTicker.LiveCandles

namespace BharatTicker

/-! ## 1. Asking for a quote -/

/-- The settings that choose the providers; `proxies` says whether `proxy_list` is non-empty. -/
structure ProviderSettings where
  nseEnabled : Bool := true
  bseEnabled : Bool := true
  yahooEnabled : Bool := true
  proxies : Bool := false

/-- The controller that `_controller` builds, before `connect_all`. -/
def controller (settings : ProviderSettings) : FailoverController :=
  FailoverController.registerAll {}
    ((if settings.nseEnabled then
        [growwProvider, nseLiveProvider] ++ (if settings.proxies then [nseScraper] else []) ++
          [nseArchiveProvider]
      else []) ++
      (if settings.bseEnabled then [bseScraper, bseLiveProvider, bseArchiveProvider] else []) ++
      (if settings.yahooEnabled then [yahooFinanceProvider] else []))

/-- Its providers have distinct names, whatever the settings. -/
theorem controller_distinct (settings : ProviderSettings) :
    ((controller settings).providers.map (·.name)).Nodup := by
  obtain ⟨nse, bse, yahoo, proxies⟩ := settings
  revert nse bse yahoo proxies
  decide

/-- `SYMBOL_ALIASES`. -/
def symbolAliases : List (String × String) := [("TATAMOTORS", "TMPV")]

/-- `str.strip`. -/
def strip (s : String) : String :=
  String.ofList (((s.toList.dropWhile Char.isWhitespace).reverse.dropWhile
    Char.isWhitespace).reverse)

/-- `canonical_symbol`. -/
def canonicalSymbol (symbol : String) : String :=
  let s := upper (strip symbol)
  (symbolAliases.lookup s).getD s

/-- The arguments that `get_quote_through` passes to `fetch_quote`. -/
def throughRequest (symbol exchange : String) (source : Option String)
    (excludeDelayed pinExchange : Bool) : QuoteRequest where
  symbol := canonicalSymbol symbol
  source := source
  excludeDelayed := excludeDelayed
  exchange := if pinExchange then some exchange else none

/-- `get_quote_through`: the tick is the `answer` of the result, `none` where the cascade raises. -/
def getQuoteThrough (cfg : BreakerConfig) (symbol exchange : String) (source : Option String)
    (excludeDelayed pinExchange : Bool) (env : String → Attempt) (fc : FailoverController) :
    CascadeResult :=
  fetchQuote cfg (throughRequest symbol exchange source excludeDelayed pinExchange) env fc

/-! ## 2. The feed -/

structure LiveFeed where
  failover : FailoverController
  engine : LiveCandleEngine := {}
  retries : List (String × String) := []
  appended : List (Provider × Sample) := []

/-- One call: what it is asked for, what the providers do, and the time its tick is recorded. -/
structure LiveCall where
  symbol : String
  exchange : String
  env : String → Attempt
  now : ℚ

/-- `record(symbol, exchange, tick.ltp, tick.volume, source=tick.source)`. -/
def LiveCall.recordCall (c : LiveCall) (t : TickData) : RecordCall where
  symbol := c.symbol
  exchange := c.exchange
  price := some t.ltp
  cumVolume := some t.volume
  source := some t.source
  now := c.now

namespace LiveFeed

variable (cfg : BreakerConfig) (live : LiveSettings)

def recordTick (c : LiveCall) (p : Provider) (t : TickData) (s : LiveFeed) : LiveFeed :=
  { s with
    engine := s.engine.record live (c.recordCall t)
    appended := s.appended ++ ((s.engine.taken live (c.recordCall t)).map fun x => (p, x)).toList }

/-- `sample_once`. -/
def sampleOnce (c : LiveCall) (s : LiveFeed) : Bool × LiveFeed :=
  let r := getQuoteThrough cfg c.symbol c.exchange none true true c.env s.failover
  let s := { s with failover := r.controller }
  match r.answer with
  | some (p, t) => (true, s.recordTick live c p t)
  | none => (false, s)

/-- One turn of `_record_loop` that is past the idle check, up to its flush. -/
def recordLoopTurn (c : LiveCall) (s : LiveFeed) : LiveFeed :=
  let r := getQuoteThrough cfg c.symbol c.exchange none true true c.env s.failover
  let s := { s with failover := r.controller }
  match r.answer with
  | some (p, t) => s.recordTick live c p t
  | none => s

/-- `if tick.exchange == exchange.upper()`. -/
def sameVenue (c : LiveCall) (t : TickData) : Bool := t.exchange.str = upper c.exchange

/-- `_do_live_fetch` up to `is_market_open`: where there is no tick and the market is shut, a retry
    is due. -/
def doLiveFetch (c : LiveCall) (marketOpen : Bool) (s : LiveFeed) : LiveFeed :=
  let r := getQuoteThrough cfg c.symbol c.exchange none true false c.env s.failover
  let s := { s with failover := r.controller }
  match r.answer with
  | some (p, t) => if sameVenue c t then s.recordTick live c p t else s
  | none => if marketOpen then s else { s with retries := (c.symbol, c.exchange) :: s.retries }

/-- The rest of `_do_live_fetch` off session: delayed feeds are no longer excluded. -/
def retryOffSession (c : LiveCall) (s : LiveFeed) : LiveFeed :=
  let r := getQuoteThrough cfg c.symbol c.exchange none false false c.env s.failover
  let s := { s with failover := r.controller, retries := s.retries.erase (c.symbol, c.exchange) }
  match r.answer with
  | some (p, t) => if sameVenue c t then s.recordTick live c p t else s
  | none => s

/-- What happens to the feed. -/
inductive Action where
  | sampleOnce (c : LiveCall)
  | recordLoopTurn (c : LiveCall)
  | doLiveFetch (c : LiveCall) (marketOpen : Bool)
  | retryOffSession (c : LiveCall)
  | elsewhere (engine : LiveCandleEngine) (enabled : String → Bool)
      (circuitBreakers : String → CircuitBreaker) (isConnected : String → Bool)

def step (s : LiveFeed) : Action → Option LiveFeed
  | .sampleOnce c => some (sampleOnce cfg live c s).2
  | .recordLoopTurn c => some (recordLoopTurn cfg live c s)
  | .doLiveFetch c marketOpen => some (doLiveFetch cfg live c marketOpen s)
  | .retryOffSession c =>
    if (c.symbol, c.exchange) ∈ s.retries then some (retryOffSession cfg live c s) else none
  | .elsewhere engine enabled circuitBreakers isConnected =>
    some { s with
      engine := engine
      failover := ⟨s.failover.providers, circuitBreakers, enabled, isConnected⟩ }

end LiveFeed

/-! ### What a call appends -/

section Appended

variable {cfg : BreakerConfig} {live : LiveSettings} {c : LiveCall} {p : Provider} {t : TickData}
  {s : LiveFeed}

/-- The ghost says what the ring got. -/
theorem recordTick_taken {x : Sample} (h : s.engine.taken live (c.recordCall t) = some x) :
    (s.recordTick live c p t).appended = s.appended ++ [(p, x)] ∧
      (s.recordTick live c p t).engine.samples (engineKey c.symbol c.exchange) =
        ringAppend live.sampleMaxlen (s.engine.samples (engineKey c.symbol c.exchange)) x := by
  refine ⟨?_, LiveCandleEngine.record_taken h⟩
  simp [LiveFeed.recordTick, h]

theorem recordTick_ignored (h : s.engine.taken live (c.recordCall t) = none) :
    (s.recordTick live c p t).appended = s.appended ∧
      (s.recordTick live c p t).engine = s.engine := by
  refine ⟨?_, LiveCandleEngine.record_ignored h⟩
  simp [LiveFeed.recordTick, h]

/-- What a call appends, given the answer of its cascade and the ticks it keeps. -/
def fed (live : LiveSettings) (s : LiveFeed) (c : LiveCall) (keep : TickData → Bool) :
    Option (Provider × TickData) → List (Provider × Sample)
  | none => []
  | some (p, t) =>
    if keep t then ((s.engine.taken live (c.recordCall t)).map fun x => (p, x)).toList else []

theorem sampleOnce_appended : (s.sampleOnce cfg live c).2.appended = s.appended ++
    fed live s c (fun _ => true)
      (getQuoteThrough cfg c.symbol c.exchange none true true c.env s.failover).answer := by
  unfold LiveFeed.sampleOnce
  dsimp only
  split
  · rename_i h
    rw [h]
    rfl
  · rename_i h
    rw [h]
    exact (List.append_nil _).symm

/-- A turn of the recorder loop is `sample_once`. -/
theorem recordLoopTurn_eq : s.recordLoopTurn cfg live c = (s.sampleOnce cfg live c).2 := by
  unfold LiveFeed.sampleOnce LiveFeed.recordLoopTurn
  dsimp only
  split <;> rfl

theorem keep_appended {keep : TickData → Bool} {s₁ : LiveFeed} (he : s₁.engine = s.engine)
    (ha : s₁.appended = s.appended) :
    (if keep t then s₁.recordTick live c p t else s₁).appended =
      s.appended ++ fed live s c keep (some (p, t)) := by
  unfold fed
  dsimp only
  split
  · simp [LiveFeed.recordTick, he, ha]
  · rw [ha, List.append_nil]

theorem doLiveFetch_appended {marketOpen : Bool} :
    (s.doLiveFetch cfg live c marketOpen).appended = s.appended ++ fed live s c (LiveFeed.sameVenue c)
      (getQuoteThrough cfg c.symbol c.exchange none true false c.env s.failover).answer := by
  unfold LiveFeed.doLiveFetch
  dsimp only
  split
  · rename_i h
    rw [h]
    exact keep_appended rfl rfl
  · rename_i h
    rw [h]
    cases marketOpen <;> exact (List.append_nil _).symm

theorem retryOffSession_appended : (s.retryOffSession cfg live c).appended = s.appended ++
    fed live s c (LiveFeed.sameVenue c)
      (getQuoteThrough cfg c.symbol c.exchange none false false c.env s.failover).answer := by
  unfold LiveFeed.retryOffSession
  dsimp only
  split
  · rename_i h
    rw [h]
    exact keep_appended rfl rfl
  · rename_i h
    rw [h]
    exact (List.append_nil _).symm

end Appended

end BharatTicker
