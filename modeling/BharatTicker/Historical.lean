/-
  File:      BharatTicker/Historical.lean
  Subject:   HISTORICAL CANDLES (`api/endpoints/historical.py`: `get_historical`), from the database
             or, where it has nothing, from Yahoo.

  The two queries (`db/queries.py`) are functions of the tables. What a date parameter says is an
  input: the time it denotes, or a text that no format reads. PostgreSQL and Yahoo each have a zone
  of their own for a time without one.

  * `DateTime`, `HistoricalInterval` -- times with their offset, and the intervals;
  * `EodTable`, `StoredTick`, `getEodRange`, `getOhlcvCandles` -- the tables and the queries;
  * `HistoricalCall`, `getHistorical` -- the endpoint;
  * `mem_getEodRange`, `getEodRange_ascending` -- the days of a window, each once;
  * `getOhlcvCandles_buckets` -- a candle for each bucket;
  * `getHistorical_ok` -- where the candles of a response come from.
-/
import BharatTicker.Basis.Aggregate
import BharatTicker.History
import BharatTicker.IstClock
import BharatTicker.MarketData

namespace BharatTicker

open Basis

/-! ## 1. Times and intervals -/

/-- A `datetime`: what its clock shows, and the offset, if it has one, of less than a day. -/
structure DateTime where
  wall : ℚ
  offset : Option { o : ℚ // |o| < 86400 }

/-- `dt.date()`: the date on its own clock. -/
def DateTime.date (dt : DateTime) : ℤ := ⌊dt.wall / 86400⌋

/-- The instant, in a zone for the times that have none. -/
def DateTime.instant (zone : ℚ) (dt : DateTime) : ℚ :=
  match dt.offset with
  | some o => dt.wall - o
  | none => dt.wall - zone

/-- `dt - timedelta(...)`. -/
def DateTime.minus (dt : DateTime) (seconds : ℚ) : DateTime := { dt with wall := dt.wall - seconds }

/-- `now_ist()`. -/
def nowIst (now : ℚ) : DateTime :=
  ⟨now + istOffset, some ⟨istOffset, by norm_num [istOffset]⟩⟩

inductive HistoricalInterval where
  | m1
  | m5
  | m15
  | m30
  | h1
  | h4
  | d1
  | w1
  deriving DecidableEq, Repr

namespace HistoricalInterval

def str : HistoricalInterval → String
  | .m1 => "1m"
  | .m5 => "5m"
  | .m15 => "15m"
  | .m30 => "30m"
  | .h1 => "1h"
  | .h4 => "4h"
  | .d1 => "1d"
  | .w1 => "1w"

/-- `interval_map`, each PostgreSQL interval in seconds. -/
def bucketInterval : HistoricalInterval → ℕ
  | .m1 => 60
  | .m5 => 5 * 60
  | .m15 => 15 * 60
  | .m30 => 30 * 60
  | .h1 => 3600
  | .h4 => 4 * 3600
  | .d1 => 86400
  | .w1 => 7 * 86400

/-- The `defaults` of `_default_start`, in days. -/
def defaultDays : HistoricalInterval → ℕ
  | .m1 => 1
  | .m5 => 5
  | .m15 => 10
  | .m30 => 15
  | .h1 => 30
  | .h4 => 60
  | .d1 => 365
  | .w1 => 365 * 3

/-- `interval in ("1d", "1w")`. -/
def isEod (interval : HistoricalInterval) : Bool := interval = .d1 ∨ interval = .w1

end HistoricalInterval

/-- `_default_start`. -/
def defaultStart (interval : HistoricalInterval) (finish : DateTime) : DateTime :=
  finish.minus (interval.defaultDays * 86400)

/-! ## 2. Candles, tables and queries -/

/-- `c.get("bucket", c.get("date", ""))`. -/
inductive Stamp where
  | bucket (t : ℚ)
  | date (day : ℤ)
  deriving DecidableEq, Repr

/-- A candle of the response; `value` and `vwap` are `none` where they are not true. -/
structure HistoricalCandle where
  timestamp : Stamp
  opening : Option ℚ
  high : Option ℚ
  low : Option ℚ
  close : Option ℚ
  volume : Option ℤ
  value : Option ℚ
  vwap : Option ℚ
  deriving DecidableEq, Repr

/-- A row of `eod_data`. -/
structure EodRow where
  date : ℤ
  symbol : String
  exchange : String
  opening : Option ℚ := none
  high : Option ℚ := none
  low : Option ℚ := none
  close : Option ℚ := none
  vwap : Option ℚ := none
  volume : Option ℤ := none
  value : Option ℚ := none
  deriving DecidableEq, Repr

/-- `eod_data`, with its primary key. -/
structure EodTable where
  rows : List EodRow
  primaryKey : (rows.map fun row => (row.date, row.symbol, row.exchange)).Nodup

/-- A row of `ticks`. -/
structure StoredTick where
  time : ℚ
  symbol : String
  exchange : String
  ltp : Option ℚ := none
  volume : Option ℤ := none
  value : Option ℚ := none
  vwap : Option ℚ := none
  deriving DecidableEq, Repr

/-- A value that Python takes for true. -/
def trueValue (x : Option ℚ) : Option ℚ := x.filter (· ≠ 0)

def EodRow.candle (row : EodRow) : HistoricalCandle where
  timestamp := .date row.date
  opening := row.opening
  high := row.high
  low := row.low
  close := row.close
  volume := row.volume
  value := trueValue row.value
  vwap := trueValue row.vwap

/-- `GET_EOD_RANGE`. -/
def getEodRange (table : EodTable) (symbol exchange : String) (startDate endDate : ℤ) : List EodRow :=
  (table.rows.filter fun row => row.symbol = symbol ∧ row.exchange = exchange ∧
    startDate ≤ row.date ∧ row.date ≤ endDate).insertionSort fun a b => a.date ≤ b.date

/-- `sum` over the values that are not null; null where there are none. -/
def sumOf {α : Type*} [AddMonoid α] (values : List (Option α)) : Option α :=
  if values.filterMap id = [] then none else some (values.filterMap id).sum

/-- A group of `GET_OHLCV_CANDLES`, its ticks in the order of their times. -/
def candleOfTicks (bucket : ℤ) (ticks : List StoredTick) : HistoricalCandle where
  timestamp := .bucket bucket
  opening := ticks.head?.bind (·.ltp)
  high := (ticks.filterMap (·.ltp)).max?
  low := (ticks.filterMap (·.ltp)).min?
  close := ticks.getLast?.bind (·.ltp)
  volume := sumOf (ticks.map (·.volume))
  value := trueValue (sumOf (ticks.map (·.value)))
  vwap := trueValue (ticks.getLast?.bind (·.vwap))

/-- `GET_OHLCV_CANDLES`; `time_bucket` counts from a midnight in UTC. -/
def getOhlcvCandles (ticks : List StoredTick) (symbol exchange : String) (interval : ℕ)
    (startTime endTime : ℚ) : List HistoricalCandle :=
  let rows := (ticks.filter fun t => t.symbol = symbol ∧ t.exchange = exchange ∧
    startTime ≤ t.time ∧ t.time ≤ endTime).insertionSort fun a b => a.time ≤ b.time
  let buckets := (rows.map fun t => bucketStart interval t.time).dedup
  buckets.map fun b => candleOfTicks b (rows.filter fun t => bucketStart interval t.time = b)

/-- A row of `get_history`: it has no `value` and no `vwap`. -/
def HistoryRow.historical (row : HistoryRow) : HistoricalCandle where
  timestamp := .bucket row.bucket
  opening := row.opening
  high := row.high
  low := row.low
  close := row.close
  volume := some row.volume
  value := none
  vwap := none

/-! ## 3. The endpoint -/

/-- What a request has to do with: the library, the tables (`none`: not connected; an error: the
    session or the query raises), and the zone of the process. -/
structure HistoricalEnv where
  yf : Yfinance
  db : Option (Except String (EodTable × List StoredTick))
  localZone : ℚ := istOffset

/-- `Query(500, ge=1, le=5000)`. -/
def defaultLimit : { n : ℕ // 1 ≤ n ∧ n ≤ 5000 } := ⟨500, by decide⟩

/-- The query. A date is what `_parse_datetime` reads, or the text that it cannot read. -/
structure HistoricalCall where
  symbol : String
  exchange : Exchange := .NSE
  interval : HistoricalInterval := .d1
  start : Option (Except String DateTime) := none
  finish : Option (Except String DateTime) := none
  limit : { n : ℕ // 1 ≤ n ∧ n ≤ 5000 } := defaultLimit

structure HistoricalResponse where
  symbol : String
  exchange : Exchange
  interval : HistoricalInterval
  source : String
  count : ℕ
  data : List HistoricalCandle
  deriving DecidableEq, Repr

/-- `_parse_datetime`. -/
def parseDatetime : Except String DateTime → Except HttpException DateTime
  | .ok dt => .ok dt
  | .error value => .error ⟨400, "Invalid date format: " ++ value⟩

namespace HistoricalCall

variable (call : HistoricalCall)

/-- `symbol.strip().upper()`. -/
def upperSymbol : String := upper (strip call.symbol)

/-- `start_dt` and `end_dt`. -/
def window (now : ℚ) : Except HttpException (DateTime × DateTime) := do
  let endDt ← match call.finish with
    | some value => parseDatetime value
    | none => pure (nowIst now)
  let startDt ← match call.start with
    | some value => parseDatetime value
    | none => pure (defaultStart call.interval endDt)
  pure (startDt, endDt)

/-- The rows of the table in the window, for a daily or a weekly request. -/
def eodRows (table : EodTable) (start finish : DateTime) : List EodRow :=
  getEodRange table call.upperSymbol call.exchange.str start.date finish.date

/-- The bars that the library has for the window. -/
def yahooRows (yf : Yfinance) (start finish : DateTime) : List HistoryRow :=
  getHistory yf call.upperSymbol call.exchange call.interval.str
    (some (start.instant istOffset, finish.instant istOffset)) (some call.limit.1)

/-- What the database has. -/
def storedCandles (env : HistoricalEnv) (start finish : DateTime) : List HistoricalCandle :=
  match env.db with
  | some (.ok (table, ticks)) =>
    if call.interval.isEod then (call.eodRows table start finish).map EodRow.candle
    else getOhlcvCandles ticks call.upperSymbol call.exchange.str call.interval.bucketInterval
      (start.instant env.localZone) (finish.instant env.localZone)
  | _ => []

/-- `candles` and `source`, before the cut to `limit`. -/
def candles (env : HistoricalEnv) (start finish : DateTime) : List HistoricalCandle × String :=
  let stored := call.storedCandles env start finish
  if stored = [] then
    ((call.yahooRows env.yf start finish).map HistoryRow.historical, "yahoo_finance")
  else (stored, "timescaledb")

end HistoricalCall

/-- `get_historical`. -/
def getHistorical (env : HistoricalEnv) (call : HistoricalCall) (now : ℚ) :
    Except HttpException HistoricalResponse := do
  let (start, finish) ← call.window now
  let (candles, source) := call.candles env start finish
  let candles := candles.take call.limit.1
  pure
    { symbol := call.upperSymbol
      exchange := call.exchange
      interval := call.interval
      source := source
      count := candles.length
      data := candles }

/-! ## 4. What the queries return -/

section Queries

variable {table : EodTable} {symbol exchange : String} {startDate endDate : ℤ}

theorem mem_getEodRange {row : EodRow} :
    row ∈ getEodRange table symbol exchange startDate endDate ↔ row ∈ table.rows ∧
      row.symbol = symbol ∧ row.exchange = exchange ∧ startDate ≤ row.date ∧ row.date ≤ endDate := by
  unfold getEodRange
  rw [List.mem_insertionSort, List.mem_filter, decide_eq_true_eq]

/-- **The rows of a symbol are of different days**, in order. -/
theorem getEodRange_ascending :
    ((getEodRange table symbol exchange startDate endDate).map (·.date)).Pairwise (· < ·) := by
  have hsorted : (getEodRange table symbol exchange startDate endDate).Pairwise
      fun a b => a.date ≤ b.date := insertionSort_key _ _
  have hkeys : (getEodRange table symbol exchange startDate endDate).Pairwise fun a b =>
      (a.date, a.symbol, a.exchange) ≠ (b.date, b.symbol, b.exchange) := by
    have hrows := (List.pairwise_map.mp table.primaryKey).filter fun row =>
      row.symbol = symbol ∧ row.exchange = exchange ∧ startDate ≤ row.date ∧ row.date ≤ endDate
    exact hrows.perm (List.perm_insertionSort _ _).symm fun h => h.symm
  refine List.pairwise_map.mpr ((hsorted.and hkeys).imp_of_mem fun {a b} ha hb h => ?_)
  obtain ⟨-, hsa, hea, -⟩ := mem_getEodRange.1 ha
  obtain ⟨-, hsb, heb, -⟩ := mem_getEodRange.1 hb
  refine lt_of_le_of_ne h.1 fun hdate => h.2 ?_
  rw [hdate, hsa, hsb, hea, heb]

/-- Each bucket has one candle. -/
theorem getOhlcvCandles_buckets {ticks : List StoredTick} {interval : ℕ} {startTime endTime : ℚ} :
    (getOhlcvCandles ticks symbol exchange interval startTime endTime).Pairwise fun a b =>
      a.timestamp ≠ b.timestamp := by
  refine List.pairwise_map.mpr ((List.nodup_dedup _).imp fun {x y} hne h => hne ?_)
  have h : (x : ℚ) = y := Stamp.bucket.inj h
  exact_mod_cast h

/-- The stamp of a candle is the start of a bucket. -/
theorem mem_getOhlcvCandles {ticks : List StoredTick} {interval : ℕ} {startTime endTime : ℚ}
    {c : HistoricalCandle}
    (h : c ∈ getOhlcvCandles ticks symbol exchange interval startTime endTime) :
    ∃ t, c.timestamp = .bucket (bucketStart interval t : ℤ) := by
  obtain ⟨b, hb, rfl⟩ := List.mem_map.mp h
  obtain ⟨tick, -, rfl⟩ := List.mem_map.mp (List.mem_dedup.mp hb)
  exact ⟨tick.time, rfl⟩

end Queries

/-! ## 5. The two paths -/

/-- The last `n` of the code. -/
theorem lastSlice_eq_rtake {α : Type*} {n : ℕ} (hn : 0 < n) (l : List α) :
    lastSlice n l = l.rtake n := by
  unfold lastSlice
  rw [if_pos (by exact_mod_cast hn), List.rtake_eq_reverse_take_reverse, Int.toNat_natCast]

section Paths

variable {env : HistoricalEnv} {call : HistoricalCall} {start finish : DateTime}

/-- The library's rows are the last of its bars. -/
theorem yahooRows_ok {yf : Yfinance} {bars : List HistoryRow}
    (h : yf.between (yahooSymbol (canonicalSymbol call.upperSymbol) call.exchange)
      (yfInterval call.interval.str).1 (start.instant istOffset) (finish.instant istOffset) =
        .ok bars) : call.yahooRows yf start finish = bars.rtake call.limit.1 := by
  unfold HistoricalCall.yahooRows getHistory
  dsimp only
  rw [h]
  unfold fromUpstream
  dsimp only
  rw [if_neg (Nat.ne_of_gt call.limit.2.1), lastSlice_eq_rtake call.limit.2.1]

/-- There are none where it raises. -/
theorem yahooRows_cases (yf : Yfinance) : call.yahooRows yf start finish = [] ∨
    ∃ bars, yf.between (yahooSymbol (canonicalSymbol call.upperSymbol) call.exchange)
        (yfInterval call.interval.str).1 (start.instant istOffset) (finish.instant istOffset) =
          .ok bars ∧
      call.yahooRows yf start finish = bars.rtake call.limit.1 := by
  cases h : yf.between (yahooSymbol (canonicalSymbol call.upperSymbol) call.exchange)
    (yfInterval call.interval.str).1 (start.instant istOffset) (finish.instant istOffset) with
  | ok bars => exact .inr ⟨bars, rfl, yahooRows_ok h⟩
  | error message =>
    left
    unfold HistoricalCall.yahooRows getHistory
    dsimp only
    rw [h]
    rfl

theorem yahooRows_length_le (yf : Yfinance) :
    (call.yahooRows yf start finish).length ≤ call.limit.1 := by
  have hcases : call.yahooRows yf start finish = [] ∨ _ := yahooRows_cases yf
  rcases hcases with h | ⟨bars, -, h⟩
  · rw [h]
    exact Nat.zero_le _
  · rw [h, List.rtake, List.length_drop]
    omega

/-- **A request with a window is answered**: from the database with the first of its candles, or from
    Yahoo with all that the library's rows give. -/
theorem getHistorical_ok (env : HistoricalEnv) {now : ℚ}
    (h : call.window now = .ok (start, finish)) :
    ∃ response, getHistorical env call now = .ok response ∧
      (call.storedCandles env start finish = [] →
        response.data = (call.yahooRows env.yf start finish).map HistoryRow.historical) ∧
      (call.storedCandles env start finish ≠ [] →
        response.data = (call.storedCandles env start finish).take call.limit.1) := by
  have hcut : ∃ response, getHistorical env call now = .ok response ∧
      response.data = (call.candles env start finish).1.take call.limit.1 := by
    unfold getHistorical
    rw [h]
    exact ⟨_, rfl, rfl⟩
  obtain ⟨response, hresponse, hdata⟩ := hcut
  unfold HistoricalCall.candles at hdata
  dsimp only at hdata
  refine ⟨response, hresponse, fun hnone => ?_, fun hsome => ?_⟩
  · rw [hdata, if_pos hnone, List.take_of_length_le]
    rw [List.length_map]
    exact yahooRows_length_le env.yf
  · rw [hdata, if_neg hsome]

end Paths

end BharatTicker
