/-
  File:      BharatTicker/SbIntraday.lean
  Subject:   THE INTRADAY ENDPOINT (`api/endpoints/superbrain.py`: `sb_intraday`, `_norm_candles`,
             `_latest_session_only`).

  A request reads the clock at its start, when a sample is recorded, and when it labels its
  response. What the feeds and the durable store answer is its input; the engine and the controller
  are those it finds when it samples, whatever has recorded into the engine before.

  * `isoDate`, `strptime` -- the texts of dates, and what is read from them;
  * `SbCandle`, `normCandles`, `latestSessionOnly` -- candles of a response;
  * `sbIntraday` -- the endpoint, one function for each of its four sources.
-/
import BharatTicker.Basis.Unicode
import BharatTicker.IntradayBuilder
import BharatTicker.IstClock
import BharatTicker.Quotes

namespace BharatTicker

open Basis

-- the concrete runs below compute with rationals
unseal Rat.add Rat.mul Rat.sub Rat.inv

/-! ## 1. The texts of dates -/

/-- Year, month and day of the month, in the Gregorian calendar. -/
def civil (day : ℤ) : ℤ × ℤ × ℤ :=
  -- days are counted from the first of March, so that the leap day ends a year
  let z := day + 719468
  let era := z / 146097
  let doe := z % 146097
  let yoe := (doe - doe / 1460 + doe / 36524 - doe / 146096) / 365
  let doy := doe - (365 * yoe + yoe / 4 - yoe / 100)
  let mp := (5 * doy + 2) / 153
  let month := if mp < 10 then mp + 3 else mp - 9
  (yoe + era * 400 + if month ≤ 2 then 1 else 0, month, doy - (153 * mp + 2) / 5 + 1)

/-- `f"{n:0{width}d}"`. -/
def padded (width : ℕ) (n : ℤ) : String :=
  let cs := digits n.toNat
  String.ofList (List.replicate (width - cs.length) '0' ++ cs)

/-- `date.isoformat()`. -/
def isoDate (day : ℤ) : String :=
  let (year, month, dayOfMonth) := civil day
  padded 4 year ++ "-" ++ padded 2 month ++ "-" ++ padded 2 dayOfMonth

example : isoDate 20458 = "2026-01-05" := by decide

def daysInMonth (year month : ℕ) : ℕ :=
  if month = 2 then
    if year % 4 = 0 ∧ (year % 100 ≠ 0 ∨ year % 400 = 0) then 29 else 28
  else if month ∈ [4, 6, 9, 11] then 30 else 31

/-- `int` of a group of digits; the blank before a day counts for nothing. -/
def groupValue (group : List Char) : ℕ :=
  group.foldl (fun n c => 10 * n + (decimalValue c).getD 0) 0

/-- `[1-9]`. -/
def isOneToNine (c : Char) : Bool := '1' ≤ c && c ≤ '9'

/-- The groups of the pattern for `%Y-%m-%d`. -/
structure DateText where
  year : List Char
  month : List Char
  day : List Char
  deriving DecidableEq, Repr

namespace DateText

variable (t : DateText)

/-- Four digits. -/
def yearGroup : Bool := t.year.length = 4 && t.year.all fun c => (decimalValue c).isSome

/-- `1[0-2]|0[1-9]|[1-9]`. -/
def monthGroup : Bool :=
  match t.month with
  | [c] => isOneToNine c
  | [c, c'] => c = '1' && c' ∈ ['0', '1', '2'] || c = '0' && isOneToNine c'
  | _ => false

/-- `3[0-1]|[1-2]\d|0[1-9]|[1-9]| [1-9]`. -/
def dayGroup : Bool :=
  match t.day with
  | [c] => isOneToNine c
  | [c, c'] => c = '3' && c' ∈ ['0', '1'] || c ∈ ['1', '2'] && (decimalValue c').isSome ||
      c ∈ ['0', ' '] && isOneToNine c'
  | _ => false

/-- The date that is read. -/
def date : ℤ × ℤ × ℤ := (groupValue t.year, groupValue t.month, groupValue t.day)

/-- `datetime(year, month, day)` does not raise. -/
def valid : Bool :=
  1 ≤ groupValue t.year && groupValue t.day ≤ daysInMonth (groupValue t.year) (groupValue t.month)

end DateText

/-- `strptime(date, "%Y-%m-%d")`; `none` where it raises. -/
def strptime (date : String) : Option DateText :=
  match date.toList.splitOn '-' with
  | [year, month, day] =>
    let t : DateText := ⟨year, month, day⟩
    if t.yearGroup && t.monthGroup && t.dayGroup && t.valid then some t else none
  | _ => none

/-! ## 2. Candles of a response -/

/-- `timestamp`, `open`, `high`, `low`, `close`, `volume`, `oi`. -/
structure SbCandle where
  timestamp : ℚ
  opening : Option ℚ
  high : Option ℚ
  low : Option ℚ
  close : ℚ
  volume : ℤ
  oi : ℤ := 0
  deriving DecidableEq, Repr

/-- A candle of the engine or of a curve. -/
def SbCandle.of (c : Candle) : SbCandle where
  timestamp := c.timestamp
  opening := some c.opening
  high := some c.high
  low := some c.low
  close := c.close
  volume := c.volume
  oi := c.oi

/-- A row of `get_history`; a price that is no number is absent. -/
structure HistoryRow where
  bucket : ℚ
  opening : Option ℚ
  high : Option ℚ
  low : Option ℚ
  close : Option ℚ
  volume : ℤ
  deriving DecidableEq, Repr

def HistoryRow.candle (row : HistoryRow) : Option SbCandle :=
  row.close.map fun close =>
    { timestamp := row.bucket, opening := row.opening, high := row.high, low := row.low
      close := close, volume := row.volume }

theorem HistoryRow.candle_timestamp {row : HistoryRow} {c : SbCandle} (h : row.candle = some c) :
    c.timestamp = row.bucket := by
  obtain ⟨close, -, rfl⟩ := Option.map_eq_some_iff.mp h
  rfl

/-- A row has a candle exactly when it has a close. -/
theorem HistoryRow.exists_candle {row : HistoryRow} :
    (∃ c, row.candle = some c) ↔ row.close ≠ none := by
  rw [← Option.ne_none_iff_exists', HistoryRow.candle, ne_eq, Option.map_eq_none_iff]

/-- `_norm_candles`: the texts of the stamps are in the order of the instants. -/
def normCandles (rows : List HistoryRow) : List SbCandle :=
  (rows.filterMap HistoryRow.candle).insertionSort fun c d => c.timestamp ≤ d.timestamp

/-- `_latest_session_only`, of candles or points with their stamps. -/
def latestSessionOnly {α : Type*} (timestamp : α → ℚ) (l : List α) : List α :=
  match l.getLast? with
  | some last => l.filter fun c => istDay (timestamp c) = istDay (timestamp last)
  | none => l

theorem latestSessionOnly_sublist {α : Type*} (timestamp : α → ℚ) (l : List α) :
    (latestSessionOnly timestamp l).Sublist l := by
  unfold latestSessionOnly
  cases l.getLast? with
  | none => exact List.Sublist.refl l
  | some last => exact List.filter_sublist

/-- The last one is of the latest session. -/
theorem latestSessionOnly_getLast? {α : Type*} (timestamp : α → ℚ) (l : List α) :
    (latestSessionOnly timestamp l).getLast? = l.getLast? := by
  unfold latestSessionOnly
  cases h : l.getLast? with
  | none => exact h
  | some last =>
    obtain ⟨pre, rfl⟩ := List.getLast?_eq_some_iff.mp h
    simp

/-! ## 3. Requests and responses -/

/-- The labels of the superbrain endpoints. -/
inductive FeedQuality where
  | realTime
  | todaySession
  | delayed
  | historical
  | notCaptured
  | staleNoSession
  deriving DecidableEq, Repr

def FeedQuality.str : FeedQuality → String
  | .realTime => "REAL_TIME"
  | .todaySession => "TODAY_SESSION"
  | .delayed => "DELAYED"
  | .historical => "HISTORICAL"
  | .notCaptured => "NOT_CAPTURED"
  | .staleNoSession => "STALE_NO_SESSION"

/-- `limit`: `ge=1, le=100000`. -/
abbrev Limit := { n : ℕ // 1 ≤ n ∧ n ≤ 100000 }

/-- What `read_past_intraday` finds of a day. -/
structure PastIntraday where
  captured : Bool
  candles : List Candle

/-- A request, with what it meets. -/
structure IntradayCall where
  symbol : String
  exchange : Exchange := .NSE
  interval : String := "30minute"
  limit : Option Limit := none
  date : Option String := none
  startedAt : ℚ
  /-- `None` where no durable store is connected. -/
  past : Option PastIntraday := none
  env : String → Attempt
  sampledAt : ℚ := startedAt
  /-- The curves; `None` where a feed has none or raises. -/
  tickertape : Option IntradayCurve := none
  bse : Option IntradayCurve := none
  /-- `_yahoo_history_sync`; empty where it raises. -/
  yahoo : List HistoryRow := []
  /-- When the market is asked for, to label the response. -/
  labelledAt : ℚ := startedAt

structure IntradayResponse where
  exchange : Exchange
  source : String
  dataQuality : FeedQuality
  candles : List SbCandle
  deriving DecidableEq, Repr

/-- `_SECONDS_INTERVALS`. -/
def secondsIntervals : List (String × ℚ) :=
  [("250ms", 1 / 4), ("500ms", 1 / 2), ("1second", 1), ("1s", 1), ("5second", 5), ("5s", 5),
    ("10second", 10), ("10s", 10), ("15second", 15), ("15s", 15), ("30second", 30), ("30s", 30)]

/-- The interval codes of the history feed. -/
inductive IntervalCode where
  | d1
  | w1
  | m30
  | m15
  | m5
  | m1
  deriving DecidableEq, Repr

def IntervalCode.str : IntervalCode → String
  | .d1 => "1d"
  | .w1 => "1w"
  | .m30 => "30m"
  | .m15 => "15m"
  | .m5 => "5m"
  | .m1 => "1m"

/-- `_INTERVAL_MAP`. -/
def intervalMap : List (String × IntervalCode) :=
  [("day", .d1), ("1d", .d1), ("week", .w1), ("1w", .w1), ("30minute", .m30), ("30m", .m30),
    ("15minute", .m15), ("15m", .m15), ("5minute", .m5), ("5m", .m5), ("1minute", .m1),
    ("1m", .m1)]

/-- `_INDEX_SYMBOLS`. -/
def indexSymbols : List String :=
  ["NIFTY", "NIFTY50", "NIFTY 50", "BANKNIFTY", "NIFTYBANK", "NIFTY BANK", "FINNIFTY",
    "MIDCPNIFTY", "SENSEX", "BANKEX", "NIFTYIT", "NIFTYNXT50"]

/-- `_reject_index`. -/
def rejectIndex (symbol : String) : Option HttpException :=
  if upper symbol ∈ indexSymbols then
    some ⟨400, "'" ++ symbol ++ "' is an index, not an equity. " ++
      "Use /api/v1/sb/context or /api/v1/indices."⟩
  else none

/-- `str` of a list of texts. -/
def listStr (l : List String) : String :=
  "[" ++ ", ".intercalate (l.map fun s => "'" ++ s ++ "'") ++ "]"

/-- `sorted(set(_SECONDS_INTERVALS) | set(INTRADAY_SECONDS))`. -/
def supportedIntervals : List String :=
  (secondsIntervals.map Prod.fst ++ intradaySeconds.map Prod.fst).insertionSort (· ≤ ·)

/-! ### The stamps of candles below the minute -/

theorem lookup_mem {α : Type*} {l : List (String × α)} {k : String} {a : α}
    (h : l.lookup k = some a) : (k, a) ∈ l := by
  obtain ⟨l₁, l₂, rfl, -⟩ := List.lookup_eq_some_iff.mp h
  exact List.mem_append_right _ List.mem_cons_self

/-- The intervals below the minute, in quarters of a second. -/
theorem secondsIntervals_quarters : ∀ e ∈ secondsIntervals, ∃ n : ℕ, e.2 = n / 4 ∧ 0 < n ∧
    (n < 4 ∨ 4 ∣ n) ∧ n ∣ 79200 ∧ n ∣ 345600 := by
  intro e he
  have hq : ∀ e ∈ secondsIntervals, e.2 = (e.2 * 4).num.toNat / 4 ∧ 0 < (e.2 * 4).num.toNat ∧
      ((e.2 * 4).num.toNat < 4 ∨ 4 ∣ (e.2 * 4).num.toNat) ∧ (e.2 * 4).num.toNat ∣ 79200 ∧
      (e.2 * 4).num.toNat ∣ 345600 := by decide
  exact ⟨_, hq e he⟩

/-- The buckets of such an interval begin at whole milliseconds, those of a second or more at whole
    seconds: their stamps are not cut. -/
theorem isoInstant_quarters {n : ℕ} (h : n < 4 ∨ 4 ∣ n) (k : ℤ) :
    isoInstant (decide ((n / 4 : ℚ) < 1)) (k * (n / 4)) = k * (n / 4) := by
  by_cases hlt : n < 4
  · have hsub : (n / 4 : ℚ) < 1 := by
      have hn4 : (n : ℚ) < 4 := by exact_mod_cast hlt
      linarith
    have hk : (k : ℚ) * (n / 4) = (k * n * 250 : ℤ) / 10 ^ 3 := by
      push_cast
      ring
    rw [decide_eq_true hsub, hk, isoInstant_milli]
  · obtain ⟨q, rfl⟩ := h.resolve_left hlt
    have hsub : ¬ ((4 * q : ℕ) / 4 : ℚ) < 1 := by
      have hn4 : (4 : ℚ) ≤ (4 * q : ℕ) := by exact_mod_cast not_lt.mp hlt
      linarith
    have hk : (k : ℚ) * ((4 * q : ℕ) / 4) = (k * q : ℤ) := by
      push_cast
      ring
    rw [decide_eq_false hsub, hk, isoInstant_int]

/-- The stamp of a candle of such an interval is of the day of the samples in its bucket. -/
theorem istDay_isoInstant {name : String} {seconds : ℚ}
    (h : secondsIntervals.lookup name = some seconds) (t : ℚ) :
    0 < seconds ∧ istDay (isoInstant (decide (seconds < 1)) (⌊t / seconds⌋ * seconds)) =
      istDay t := by
  obtain ⟨n, hn, hpos, hcut, ⟨m, hm⟩, ⟨d, hd⟩⟩ := secondsIntervals_quarters _ (lookup_mem h)
  dsimp only at hn
  have hs : 0 < seconds := by
    have hpos' : (0 : ℚ) < n := by exact_mod_cast hpos
    rw [hn]
    positivity
  have hday : (86400 : ℚ) = (d : ℤ) * seconds := by
    have hd' : (345600 : ℚ) = n * d := by exact_mod_cast hd
    rw [hn]
    push_cast
    linarith
  have hoffset : istOffset = (m : ℤ) * seconds := by
    have hm' : (79200 : ℚ) = n * m := by exact_mod_cast hm
    unfold istOffset
    rw [hn]
    push_cast
    linarith
  refine ⟨hs, Eq.trans (congrArg istDay ?_) (istDay_floor hs hday hoffset)⟩
  rw [hn]
  exact isoInstant_quarters hcut _

namespace IntradayCall

/-! ## 4. The endpoint -/

section Endpoint

variable (call : IntradayCall)

/-- `l[-limit:] if limit else l`. -/
def served {α : Type*} (l : List α) : List α :=
  match call.limit with
  | some n => lastSlice n.1 l
  | none => l

/-- `limit or 10**9`. -/
def limitOr : ℕ :=
  match call.limit with
  | some n => n
  | none => 10 ^ 9

/-- `(limit + 200) if limit else 10**9`. -/
def curveLimit : ℕ :=
  match call.limit with
  | some n => n + 200
  | none => 10 ^ 9

/-- The day asked for, if it is before today: `date < today` compares texts. -/
def pastDate : Except HttpException (Option String) :=
  match call.date with
  | some date =>
    if date = "" then .ok none
    else if (strptime date).isSome then
      .ok (if date < isoDate (istDay call.startedAt) then some date else none)
    else .error ⟨400, "Invalid date (want YYYY-MM-DD): " ++ date⟩
  | none => .ok none

/-- The response for a past day. -/
def pastResponse : Except HttpException IntradayResponse :=
  match call.past with
  | some past =>
    .ok
      { exchange := call.exchange, source := "timescaledb_intraday_store"
        dataQuality := if past.captured then .historical else .notCaptured
        candles := (call.served past.candles).map SbCandle.of }
  | none =>
    .error ⟨503, "Durable sub-minute store not connected — past-day 1s/10s needs a TimescaleDB " ++
      "DATABASE_URL. Same-day works without it."⟩

/-- The sample that the request takes. -/
def sampleCall : LiveCall where
  symbol := canonicalSymbol call.symbol
  exchange := call.exchange.str
  env := call.env
  now := call.sampledAt

@[simp] theorem sampleCall_symbol : call.sampleCall.symbol = canonicalSymbol call.symbol := by
  simp only [sampleCall]

@[simp] theorem sampleCall_exchange : call.sampleCall.exchange = call.exchange.str := rfl
@[simp] theorem sampleCall_env : call.sampleCall.env = call.env := rfl

variable (cfg : BreakerConfig) (live : LiveSettings) (isTradingHoliday : ℤ → Bool)

/-- The response from the live engine, with the sample just taken. -/
def tickResponse (seconds : ℚ) (s : LiveFeed) : IntradayResponse × LiveFeed :=
  let s := (s.sampleOnce cfg live call.sampleCall).2
  ({ exchange := call.exchange, source := "live_tick_aggregation"
     dataQuality := if isMarketOpen isTradingHoliday call.labelledAt then .realTime
       else .staleNoSession
     candles := (s.engine.build (canonicalSymbol call.symbol) call.exchange.str seconds
       call.limitOr).map SbCandle.of }, s)

/-- `_latest_session_only(points_to_ohlc(...))`, cut to the limit. -/
def curveCandles (seconds : ℕ) (curve : Option IntradayCurve) : List Candle :=
  match curve with
  | some curve =>
    call.served
      (latestSessionOnly (·.timestamp) (pointsToOhlc curve.points seconds call.curveLimit))
  | none => []

/-- The response from a curve. -/
def curveResponse (exchange : Exchange) (source : String) (candles : List Candle) :
    IntradayResponse where
  exchange := exchange
  source := source
  dataQuality := if isMarketOpen isTradingHoliday call.labelledAt then .realTime else .todaySession
  candles := candles.map SbCandle.of

/-- The last resort. -/
def yahooResponse : IntradayResponse :=
  let rows := if (intervalMap.lookup call.interval).isSome then call.served call.yahoo else []
  let candles := normCandles rows
  let todayBars := candles.filter fun c => istDay c.timestamp = istDay call.labelledAt
  { exchange := call.exchange, source := "yahoo_intraday_delayed", dataQuality := .delayed
    candles := if todayBars ≠ [] then todayBars else call.served candles }

/-- Tickertape, then BSE, then Yahoo. -/
def minuteResponse (seconds : ℕ) : IntradayResponse :=
  let candles := call.curveCandles seconds call.tickertape
  if candles ≠ [] then call.curveResponse isTradingHoliday .NSE "tickertape_realtime_nse" candles
  else
    let candles := call.curveCandles seconds call.bse
    if candles ≠ [] then
      call.curveResponse isTradingHoliday .BSE "bse_stockreach_realtime" candles
    else call.yahooResponse

/-- `sb_intraday`. -/
def sbIntraday (s : LiveFeed) : Except HttpException IntradayResponse × LiveFeed :=
  match rejectIndex call.symbol with
  | some e => (.error e, s)
  | none =>
    match secondsIntervals.lookup call.interval with
    | some seconds =>
      match call.pastDate with
      | .error e => (.error e, s)
      | .ok (some _) => (call.pastResponse, s)
      | .ok none =>
        let (r, s) := call.tickResponse cfg live isTradingHoliday seconds s
        (.ok r, s)
    | none =>
      match intradaySeconds.lookup call.interval with
      | some seconds => (.ok (call.minuteResponse isTradingHoliday seconds), s)
      | none =>
        (.error ⟨400, "Unsupported intraday interval '" ++ call.interval ++ "'. Supported: " ++
          listStr supportedIntervals⟩, s)

end Endpoint

end IntradayCall

end BharatTicker
