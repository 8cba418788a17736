/-
  File:      BharatTicker/Quotes.lean
  Subject:   THE QUOTE ENDPOINT (`api/endpoints/quotes.py`: `get_quote`, `_get_realtime_quote`,
             `_get_eod_quote`).

  A request reads the clock where the code does: at its start, when it asks for the age of the
  cached tick, and when a forced source has answered. What the two reads of the cache and the
  lookup in the database find is its input, as is what the providers do. Of a response the label
  and what it rests on are kept.

  * `QuoteCall`, `QuoteResponse` -- requests and responses;
  * `getRealtimeQuote`, `getEodQuote`, `getQuote` -- the functions.
-/
import BharatTicker.IstClock
import BharatTicker.MarketData
import BharatTicker.TickerCache.Quote

namespace BharatTicker

open Basis TickerCache

/-! ## 1. Requests and responses -/

/-- `DATA_QUALITY_REALTIME`, `DATA_QUALITY_STALE`, `DATA_QUALITY_EOD`. -/
inductive DataQuality where
  | realTime
  | stale
  | endOfDay
  deriving DecidableEq, Repr

def DataQuality.str : DataQuality → String
  | .realTime => "REAL_TIME"
  | .stale => "STALE"
  | .endOfDay => "END_OF_DAY"

structure HttpException where
  statusCode : Nat
  detail : String
  deriving DecidableEq, Repr

/-- An exception that no handler catches. -/
def internalServerError : HttpException := ⟨500, "Internal Server Error"⟩

/-- The hash of a cached tick. `fetchedBy` is a ghost: the provider it came from. -/
structure CachedTick where
  fetchedBy : Provider
  data : Hash
  deriving DecidableEq, Repr

/-- What `get_latest_eod` finds, if the database is connected: a row may be unfit for a quote. -/
inductive EodLookup where
  | missing
  | row
  | malformedRow
  deriving DecidableEq, Repr

/-- A request, with what it meets. -/
structure QuoteCall where
  symbol : String
  exchange : Exchange
  source : String := "auto"
  askedAt : ℚ
  tickData : Option CachedTick := none
  /-- The second read of the cache, by `get_tick_age_ms`, and its time. -/
  agedTick : Option CachedTick := tickData
  agedAt : ℚ := askedAt
  eod : EodLookup := .missing
  env : String → Attempt
  /-- When a forced source has answered. -/
  answeredAt : ℚ := askedAt

/-- `servedBy` is a ghost: the provider the data came from; `none`: the database. -/
structure QuoteResponse where
  source : String
  dataQuality : DataQuality
  cacheAgeMs : Option ℚ := none
  providerTier : Nat := 1
  servedBy : Option Provider
  deriving DecidableEq, Repr

namespace QuoteCall

/-- `symbol.strip().upper()`. -/
def name (call : QuoteCall) : String := upper (strip call.symbol)

/-- `if source and source != "auto"`. -/
def forcedSource (call : QuoteCall) : Option String :=
  if call.source = "" ∨ call.source = "auto" then none else some call.source

/-- What `fetch_quote` is asked for. -/
def request (call : QuoteCall) (source : Option String) (excludeDelayed : Bool) : QuoteRequest :=
  throughRequest call.name call.exchange.str source excludeDelayed false

/-! ## 2. The cache -/

/-- `float(s)`. -/
def float (s : String) : Option ℚ :=
  (Decimal.parse s).map fun d =>
    (if d.negative then -1 else 1) * d.coefficient * (10 : ℚ) ^ d.exponent

/-- `get_tick_age_ms`; the outer `none` where it raises. -/
def tickAgeMs (data : Option CachedTick) (now : ℚ) : Option (Option ℚ) :=
  match data.bind fun c => Dict.get? c.data "cached_at" with
  | some cachedAt => (float cachedAt).map fun t => some ((now - t) * 1000)
  | none => some none

/-- `await ticker_cache.get_tick_age_ms(symbol, exchange) or 0`. -/
def cacheAge (call : QuoteCall) : Option ℚ :=
  (tickAgeMs call.agedTick call.agedAt).map fun age => age.getD 0

/-! ## 3. The endpoint -/

section Endpoint

variable (cfg : BreakerConfig) (call : QuoteCall) (fc : FailoverController)

/-- The response to a fetched tick, `detail` where there is none. -/
def throughResponse (source : Option String) (excludeDelayed : Bool) (quality : DataQuality)
    (cacheAgeMs : Option ℚ) (detail : String) :
    Except HttpException QuoteResponse × FailoverController :=
  let r := getQuoteThrough cfg call.name call.exchange.str source excludeDelayed false call.env fc
  match r.answer with
  | some (p, t) =>
    (.ok
      { source := t.source, dataQuality := quality, cacheAgeMs := cacheAgeMs, servedBy := some p },
      r.controller)
  | none => (.error ⟨404, detail⟩, r.controller)

/-- `_get_realtime_quote`. -/
def getRealtimeQuote : Except HttpException QuoteResponse × FailoverController :=
  match call.tickData with
  | some c =>
    match call.cacheAge, buildQuoteFromCache c.data with
    | some age, some _ =>
      (.ok
        { source := (Dict.get? c.data "source").getD "unknown"
          dataQuality := if age < 5000 then .realTime else .stale
          cacheAgeMs := some age, servedBy := some c.fetchedBy }, fc)
    | _, _ => (.error internalServerError, fc)
  | none =>
    throughResponse cfg call fc none true .realTime (some 0)
      ("No data available for " ++ call.name ++ " on " ++ call.exchange.str)

/-- `_get_eod_quote`. -/
def getEodQuote : Except HttpException QuoteResponse × FailoverController :=
  match call.tickData with
  | some c =>
    match buildQuoteFromCache c.data with
    | some _ =>
      (.ok
        { source := (Dict.get? c.data "source").getD "cache", dataQuality := .endOfDay
          servedBy := some c.fetchedBy }, fc)
    | none => (.error internalServerError, fc)
  | none =>
    match call.eod with
    | .missing => throughResponse cfg call fc none true .endOfDay none ("No data for " ++ call.name)
    | .row =>
      (.ok
        { source := "timescaledb", dataQuality := .endOfDay, providerTier := 0
          servedBy := none }, fc)
    | .malformedRow => (.error ⟨500, "Database error"⟩, fc)

variable (isTradingHoliday : ℤ → Bool)

/-- `get_quote`. -/
def getQuote : Except HttpException QuoteResponse × FailoverController :=
  match call.forcedSource with
  | some source =>
    throughResponse cfg call fc (some source) false
      (if isMarketOpen isTradingHoliday call.answeredAt then .realTime else .endOfDay) none
      ("No " ++ source ++ " data for " ++ call.name)
  | none =>
    if isMarketOpen isTradingHoliday call.askedAt then getRealtimeQuote cfg call fc
    else getEodQuote cfg call fc

end Endpoint

end QuoteCall

end BharatTicker
