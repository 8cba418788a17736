/-
  File:      BharatTicker/Historical/Granularity.lean
  Subject:   ONE CANDLE FOR EACH PERIOD. The interval picks the table and the bucket of the query, and
             the interval of the library; nothing puts the rows together afterwards. For `1w` the
             table is that of the days, and for `4h` the library is asked for hours.

  * `period`, `Granular` -- the periods of an interval, and the law;
  * `OnePerPeriod` -- the library answers with one bar for each period of its own interval;
  * `PeriodsApart` -- the condition;
  * `granular_iff` -- all intervals, tables and feeds; `not_rebucketed` -- two days for one week.
-/
import BharatTicker.Historical

namespace BharatTicker

open Basis

-- the concrete runs below compute with rationals
unseal Rat.add Rat.mul Rat.sub Rat.inv

/-! ## 1. Periods -/

/-- The week of a day, from Monday. -/
def weekOf (day : ℤ) : ℤ := (day + 3) / 7

/-- When a candle begins. -/
def Stamp.instant : Stamp → ℚ
  | .bucket t => t
  | .date day => dayStart day

/-- The period of an instant. -/
def HistoricalInterval.period (interval : HistoricalInterval) (t : ℚ) : ℤ :=
  match interval with
  | .d1 => istDay t
  | .w1 => weekOf (istDay t)
  | _ => ⌊t / interval.bucketInterval⌋

/-- No two candles are of one period. -/
def Granular (interval : HistoricalInterval) (data : List HistoricalCandle) : Prop :=
  data.Pairwise fun a b => interval.period a.timestamp.instant ≠ interval.period b.timestamp.instant

/-- The periods of the library's intervals. -/
def yfPeriods : List (String × (ℚ → ℤ)) :=
  [("1m", HistoricalInterval.m1.period), ("5m", HistoricalInterval.m5.period),
    ("15m", HistoricalInterval.m15.period), ("30m", HistoricalInterval.m30.period),
    ("60m", HistoricalInterval.h1.period), ("1d", HistoricalInterval.d1.period),
    ("1wk", HistoricalInterval.w1.period)]

/-- No two bars of an answer are of one period. -/
def OnePerPeriod (yf : Yfinance) : Prop :=
  ∀ symbol interval start finish period bars, yfPeriods.lookup interval = some period →
    yf.between symbol interval start finish = .ok bars →
    bars.Pairwise fun a b => period a.bucket ≠ period b.bucket

/-- The interval that the library is asked for. -/
def HistoricalInterval.fetched : HistoricalInterval → HistoricalInterval
  | .h4 => .h1
  | interval => interval

theorem HistoricalInterval.fetched_period (interval : HistoricalInterval) :
    yfPeriods.lookup (yfInterval interval.str).1 = some interval.fetched.period := by
  cases interval <;> rfl

/-- **The condition.** A weekly request that the table has days for: no two of the first `limit` are of
    one week. A request for four hours that the database has nothing for: no two of the last `limit`
    hours are of one four-hour bucket. -/
structure PeriodsApart (env : HistoricalEnv) (call : HistoricalCall) (start finish : DateTime) :
    Prop where
  weeks : ∀ table ticks, env.db = some (.ok (table, ticks)) → call.interval = .w1 →
    ((call.eodRows table start finish).take call.limit.1).Pairwise
      fun a b => weekOf a.date ≠ weekOf b.date
  buckets : call.storedCandles env start finish = [] → call.interval = .h4 →
    (call.yahooRows env.yf start finish).Pairwise fun a b =>
      HistoricalInterval.h4.period a.bucket ≠ HistoricalInterval.h4.period b.bucket

/-! ## 2. The paths -/

section Paths

variable {env : HistoricalEnv} {call : HistoricalCall} {start finish : DateTime}

/-- Bars of the library are of different periods of the interval it is asked for. -/
theorem yahooRows_apart (hyf : OnePerPeriod env.yf) :
    (call.yahooRows env.yf start finish).Pairwise fun a b =>
      call.interval.fetched.period a.bucket ≠ call.interval.fetched.period b.bucket := by
  have hcases : call.yahooRows env.yf start finish = [] ∨ _ := yahooRows_cases env.yf
  rcases hcases with h | ⟨bars, hbars, h⟩
  · rw [h]
    exact List.Pairwise.nil
  · rw [h]
    have hapart := hyf _ _ _ _ _ _ call.interval.fetched_period hbars
    exact hapart.sublist (List.drop_sublist _ bars)

theorem period_intraday {interval : HistoricalInterval} (h : interval.isEod = false) (t : ℚ) :
    interval.period t = ⌊t / interval.bucketInterval⌋ := by
  cases interval <;> first | rfl | cases h

/-- The buckets of the query are periods. -/
theorem bucketStart_eq_period {interval : HistoricalInterval} (h : interval.isEod = false) (t : ℚ) :
    bucketStart interval.bucketInterval t =
      interval.period (bucketStart interval.bucketInterval t) * interval.bucketInterval := by
  have hpos : (interval.bucketInterval : ℚ) ≠ 0 := by
    cases interval <;> norm_num [HistoricalInterval.bucketInterval]
  rw [period_intraday h]
  unfold bucketStart
  rw [Int.cast_mul, Int.cast_natCast, mul_div_assoc, div_self hpos, mul_one, Int.floor_intCast]

/-- **Candles of the ticks** are of different periods. -/
theorem getOhlcvCandles_granular {ticks : List StoredTick} {symbol exchange : String}
    {interval : HistoricalInterval} {startTime endTime : ℚ} (h : interval.isEod = false) :
    Granular interval
      (getOhlcvCandles ticks symbol exchange interval.bucketInterval startTime endTime) := by
  refine getOhlcvCandles_buckets.imp_of_mem fun {a b} ha hb hne heq => hne ?_
  obtain ⟨s, hs⟩ := mem_getOhlcvCandles ha
  obtain ⟨t, ht⟩ := mem_getOhlcvCandles hb
  rw [hs, ht] at heq ⊢
  dsimp only [Stamp.instant] at heq
  rw [bucketStart_eq_period h s, bucketStart_eq_period h t, heq]

/-- Candles of the table, by the period of their dates. -/
theorem granular_eod {interval : HistoricalInterval} {rows : List EodRow} :
    Granular interval (rows.map EodRow.candle) ↔
      rows.Pairwise fun a b => interval.period (dayStart a.date) ≠ interval.period (dayStart b.date) :=
  List.pairwise_map

theorem granular_yahoo {interval : HistoricalInterval} {rows : List HistoryRow} :
    Granular interval (rows.map HistoryRow.historical) ↔
      rows.Pairwise fun a b => interval.period a.bucket ≠ interval.period b.bucket :=
  List.pairwise_map

/-- A daily request has one candle for a day. -/
theorem days_apart {table : EodTable} :
    (call.eodRows table start finish).Pairwise fun a b =>
      istDay (dayStart a.date) ≠ istDay (dayStart b.date) := by
  refine (List.pairwise_map.mp getEodRange_ascending).imp fun {a b} hlt heq => ?_
  rw [istDay_dayStart, istDay_dayStart] at heq
  exact hlt.ne heq

theorem weeks_iff {rows : List EodRow} :
    (rows.Pairwise fun a b =>
      HistoricalInterval.w1.period (dayStart a.date) ≠ HistoricalInterval.w1.period (dayStart b.date)) ↔
    rows.Pairwise fun a b => weekOf a.date ≠ weekOf b.date := by
  unfold HistoricalInterval.period
  simp only [istDay_dayStart]

/-- **The path through Yahoo.** -/
theorem granular_yahoo_iff (hyf : OnePerPeriod env.yf)
    (hnone : call.storedCandles env start finish = []) :
    Granular call.interval ((call.yahooRows env.yf start finish).map HistoryRow.historical) ↔
      PeriodsApart env call start finish := by
  rw [granular_yahoo]
  have hweeks : ∀ table ticks, env.db = some (.ok (table, ticks)) → call.interval = .w1 →
      ((call.eodRows table start finish).take call.limit.1).Pairwise
        fun a b => weekOf a.date ≠ weekOf b.date := by
    intro table ticks hdb hweekly
    have heod : call.interval.isEod = true := by rw [hweekly]; rfl
    unfold HistoricalCall.storedCandles at hnone
    rw [hdb] at hnone
    dsimp only at hnone
    rw [if_pos heod, List.map_eq_nil_iff] at hnone
    rw [hnone, List.take_nil]
    exact List.Pairwise.nil
  by_cases hfour : call.interval = .h4
  · rw [hfour]
    exact ⟨fun h => ⟨hweeks, fun _ _ => h⟩, fun h => h.buckets hnone hfour⟩
  · have hsame : call.interval.fetched = call.interval := by
      cases hi : call.interval with
      | h4 => exact absurd hi hfour
      | _ => rfl
    have hapart : (call.yahooRows env.yf start finish).Pairwise fun a b =>
        call.interval.fetched.period a.bucket ≠ call.interval.fetched.period b.bucket :=
      yahooRows_apart hyf
    rw [hsame] at hapart
    exact iff_of_true hapart ⟨hweeks, fun _ h => absurd h hfour⟩

/-- What is stored is in tables. -/
theorem storedCandles_tables (h : call.storedCandles env start finish ≠ []) :
    ∃ table ticks, env.db = some (.ok (table, ticks)) := by
  unfold HistoricalCall.storedCandles at h
  split at h
  · rename_i table ticks hdb
    exact ⟨table, ticks, hdb⟩
  · exact absurd rfl h

/-- **The path through the database.** -/
theorem granular_stored_iff (hsome : call.storedCandles env start finish ≠ []) :
    Granular call.interval ((call.storedCandles env start finish).take call.limit.1) ↔
      PeriodsApart env call start finish := by
  have hbuckets : call.storedCandles env start finish = [] → call.interval = .h4 →
      (call.yahooRows env.yf start finish).Pairwise fun a b =>
        HistoricalInterval.h4.period a.bucket ≠ HistoricalInterval.h4.period b.bucket :=
    fun hnone => absurd hnone hsome
  obtain ⟨table, ticks, hdb⟩ := storedCandles_tables hsome
  unfold HistoricalCall.storedCandles
  rw [hdb]
  dsimp only
  cases heod : call.interval.isEod with
  | false =>
    have hgranular : Granular call.interval (getOhlcvCandles ticks call.upperSymbol
        call.exchange.str call.interval.bucketInterval (start.instant env.localZone)
        (finish.instant env.localZone)) := getOhlcvCandles_granular heod
    refine iff_of_true (hgranular.sublist (List.take_sublist _ _)) ⟨fun _ _ _ hweekly => ?_, hbuckets⟩
    rw [hweekly] at heod
    cases heod
  | true =>
    rw [if_pos rfl, ← List.map_take, granular_eod]
    rcases of_decide_eq_true heod with hdaily | hweekly
    · have hapart : ((call.eodRows table start finish).take call.limit.1).Pairwise fun a b =>
          istDay (dayStart a.date) ≠ istDay (dayStart b.date) :=
        days_apart.sublist (List.take_sublist _ _)
      rw [hdaily]
      refine iff_of_true hapart ⟨fun _ _ _ hweekly => ?_, hbuckets⟩
      rw [hdaily] at hweekly
      cases hweekly
    · rw [hweekly, weeks_iff]
      refine ⟨fun h => ⟨fun table' ticks' hdb' _ => ?_, hbuckets⟩, fun h => h.weeks table ticks hdb hweekly⟩
      rw [hdb] at hdb'
      cases hdb'
      exact h

end Paths

/-! ## 3. All intervals, tables and feeds -/

/-- **A response has one candle for each period exactly under the condition**, for every interval,
    table and feed. -/
theorem granular_iff (env : HistoricalEnv) (hyf : OnePerPeriod env.yf) (call : HistoricalCall)
    (now : ℚ) {start finish : DateTime} (hwindow : call.window now = .ok (start, finish)) :
    ∃ response, getHistorical env call now = .ok response ∧
      (Granular call.interval response.data ↔ PeriodsApart env call start finish) := by
  obtain ⟨response, hresponse, hyahoo, hstored⟩ := getHistorical_ok env hwindow
  refine ⟨response, hresponse, ?_⟩
  by_cases hnone : call.storedCandles env start finish = []
  · rw [hyahoo hnone]
    exact granular_yahoo_iff hyf hnone
  · rw [hstored hnone]
    exact granular_stored_iff hnone

/-! ### Two weeks, and one morning -/

/-- The hours of Monday morning, 5 January 2026. -/
def mondayHours : List HistoryRow :=
  [⟨monday 9 15, some 2433, some 2441, some 2430, some 2438, 900⟩,
    ⟨monday 10 15, some 2438, some 2449, some 2437, some 2444, 700⟩,
    ⟨monday 11 15, some 2444, some 2455, some 2440, some 2450, 800⟩]

/-- A library that has them. -/
def hourly : Yfinance where
  between _ interval start finish := .ok (if interval = "60m" then
    mondayHours.filter fun bar => start ≤ bar.bucket ∧ bar.bucket < finish else [])
  period _ _ _ := .ok []

theorem hourly_onePerPeriod : OnePerPeriod hourly := by
  intro symbol interval start finish period bars hperiod hbars
  cases hbars
  split
  · rename_i hhour
    subst hhour
    cases hperiod
    have hall : mondayHours.Pairwise fun a b =>
        HistoricalInterval.h1.period a.bucket ≠ HistoricalInterval.h1.period b.bucket := by
      decide
    exact hall.filter _
  · exact List.Pairwise.nil

/-- Closing prices of a symbol, by day. -/
def closes (day : ℤ) (close : ℚ) : EodRow :=
  { date := day, symbol := "RELIANCE", exchange := "NSE", close := some close }

/-- Mondays of two weeks. -/
def mondays : EodTable := ⟨[closes 20458 2450, closes 20465 2502], by decide⟩

/-- Monday and Tuesday of one. -/
def oneWeek : EodTable := ⟨[closes 20458 2450, closes 20459 2468], by decide⟩

/-- A request from 5 to 16 January. -/
def fortnight (interval : HistoricalInterval) : HistoricalCall where
  symbol := "RELIANCE"
  interval := interval
  start := some (.ok ⟨20458 * 86400, none⟩)
  finish := some (.ok ⟨20469 * 86400, none⟩)

/-- Two Mondays are two weeks. -/
theorem granular_mondays :
    ∃ response, getHistorical { yf := hourly, db := some (.ok (mondays, [])) } (fortnight .w1) 0 =
      .ok response ∧ Granular .w1 response.data := by
  obtain ⟨response, hresponse, h⟩ := granular_iff
    { yf := hourly, db := some (.ok (mondays, [])) } hourly_onePerPeriod (fortnight .w1) 0 rfl
  refine ⟨response, hresponse, h.mpr ⟨fun table ticks hdb _ => ?_, fun _ hfour => by cases hfour⟩⟩
  cases hdb
  decide

/-- **A weekly request gets the two days of a week, and one for four hours the two hours of a
    bucket.** -/
theorem not_rebucketed :
    (∃ response, getHistorical { yf := hourly, db := some (.ok (oneWeek, [])) } (fortnight .w1) 0 =
      .ok response ∧ ¬ Granular .w1 response.data) ∧
    ∃ response, getHistorical { yf := hourly, db := none } (fortnight .h4) 0 = .ok response ∧
      ¬ Granular .h4 response.data := by
  constructor
  · refine ⟨_, rfl, ?_⟩
    unfold Granular
    decide
  · refine ⟨_, rfl, ?_⟩
    unfold Granular
    decide

end BharatTicker
