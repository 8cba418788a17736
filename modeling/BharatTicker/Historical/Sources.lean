/-
  File:      BharatTicker/Historical/Sources.lean
  Subject:   THE DAYS OF THE TWO SOURCES. A daily request is answered from `eod_data` with the first
             `limit` rows dated in the window, both dates included, and from Yahoo with the last
             `limit` bars that begin in the window, the end left out. The table and the feed hold the
             same days.

  * `queryDays`, `yahooDays` -- the days of the two windows;
  * `SameDays` -- the condition;
  * `source_independent_iff` -- all series, windows and limits; `end_day_left_out` -- the day of the
    end, which only the table answers with.
-/
import BharatTicker.Basis.Window
import BharatTicker.Historical

namespace BharatTicker

open Basis

-- the concrete runs below compute with rationals
unseal Rat.add Rat.mul Rat.sub Rat.inv

/-! ## 1. Days -/

/-- The day of a candle. -/
def HistoricalCandle.day (c : HistoricalCandle) : ℤ :=
  match c.timestamp with
  | .bucket t => istDay t
  | .date day => day

def HistoricalResponse.days (response : HistoricalResponse) : List ℤ :=
  response.data.map HistoricalCandle.day

section Days

variable (start finish : DateTime)

/-- The days of a series that the query returns. -/
def queryDays (series : List ℤ) : List ℤ :=
  between (fun day => start.date ≤ day) (fun day => day ≤ finish.date) series

/-- The days whose bars begin in the window. -/
def yahooDays (series : List ℤ) : List ℤ :=
  between (fun day => start.instant istOffset ≤ dayStart day)
    (fun day => dayStart day < finish.instant istOffset) series

/-- **The condition.** The table has no day of the window; or none of its days there begins before the
    start, at most `limit` bars begin in the window, and they are as many as the days there or, where
    these are more, as `limit`. -/
def SameDays (series : List ℤ) (limit : ℕ) : Prop :=
  queryDays start finish series = [] ∨
    (∀ day ∈ queryDays start finish series, start.instant istOffset ≤ dayStart day) ∧
    (yahooDays start finish series).length ≤ limit ∧
    (yahooDays start finish series).length = min limit (queryDays start finish series).length

instance (series : List ℤ) (limit : ℕ) : Decidable (SameDays start finish series limit) := by
  unfold SameDays
  infer_instance

end Days

/-! ## 2. The two windows -/

section Windows

variable {start finish : DateTime} {series : List ℤ} {call : HistoricalCall}

theorem dayStart_strictMono : StrictMono dayStart := by
  intro d d' h
  have h : (d : ℚ) < d' := by exact_mod_cast h
  unfold dayStart
  linarith

/-- A day that begins in India at a time or after it is not before the time's own date. -/
theorem date_le_of_instant {day : ℤ} (h : start.instant istOffset ≤ dayStart day) :
    start.date ≤ day := by
  have hwall : start.wall < (day + 1) * 86400 := by
    unfold DateTime.instant dayStart istOffset at h
    split at h
    · rename_i o ho
      have := (abs_lt.mp o.2).2
      linarith
    · linarith
  unfold DateTime.date
  rw [Int.floor_le_iff, div_lt_iff₀ (by norm_num)]
  exact hwall

/-- **What the table answers with**: the days of the query. -/
theorem eodRows_days {table : EodTable} (hseries : series.Pairwise (· < ·))
    (htable : ∀ day, day ∈ series ↔ ∃ row ∈ table.rows, row.symbol = call.upperSymbol ∧
      row.exchange = call.exchange.str ∧ row.date = day) :
    ((call.eodRows table start finish).map EodRow.candle).map HistoricalCandle.day =
      queryDays start finish series := by
  have hdates : ((call.eodRows table start finish).map EodRow.candle).map HistoricalCandle.day =
      (call.eodRows table start finish).map (·.date) := by
    rw [List.map_map]
    rfl
  rw [hdates]
  refine getEodRange_ascending.eq_of_mem_iff (between_ascending hseries) fun day => ?_
  rw [queryDays, mem_between, htable, List.mem_map, decide_eq_true_eq, decide_eq_true_eq]
  constructor
  · rintro ⟨row, hrow, rfl⟩
    obtain ⟨hmem, hsymbol, hexchange, hstart, hfinish⟩ := mem_getEodRange.1 hrow
    exact ⟨⟨row, hmem, hsymbol, hexchange, rfl⟩, hstart, hfinish⟩
  · rintro ⟨⟨row, hmem, hsymbol, hexchange, rfl⟩, hstart, hfinish⟩
    exact ⟨row, mem_getEodRange.2 ⟨hmem, hsymbol, hexchange, hstart, hfinish⟩, rfl⟩

/-- A list of stamps that are midnights, and their days. -/
theorem istDay_stamps {rows : List HistoryRow}
    (h : rows.map (·.bucket) = series.map dayStart) :
    rows.map (fun row => istDay row.bucket) = series := by
  have hmap : rows.map (fun row => istDay row.bucket) = (rows.map (·.bucket)).map istDay := by
    rw [List.map_map]
    rfl
  have hcomp : istDay ∘ dayStart = id := funext istDay_dayStart
  rw [hmap, h, List.map_map, hcomp, List.map_id]

/-- **What Yahoo answers with**: the last bars that begin in the window. -/
theorem yahooRows_days {yf : Yfinance} {feed : String → String → List HistoryRow}
    (hyf : HalfOpen yf feed)
    (hfeed : (feedOf feed call.upperSymbol call.exchange call.interval.str).map (·.bucket) =
      series.map dayStart) :
    ((call.yahooRows yf start finish).map HistoryRow.historical).map HistoricalCandle.day =
      (yahooDays start finish series).rtake call.limit.1 := by
  let inWindow : ℚ → Bool := fun t =>
    start.instant istOffset ≤ t ∧ t < finish.instant istOffset
  have hrows : call.yahooRows yf start finish =
      ((feedOf feed call.upperSymbol call.exchange call.interval.str).filter
        fun bar => inWindow bar.bucket).rtake call.limit.1 := yahooRows_ok (hyf _ _ _ _)
  have hwindow : (((feedOf feed call.upperSymbol call.exchange call.interval.str).filter
      fun bar => inWindow bar.bucket).map (·.bucket)) =
      (yahooDays start finish series).map dayStart := by
    have hmap : ∀ rows : List HistoryRow, ((rows.filter fun bar => inWindow bar.bucket).map
        (·.bucket)) = (rows.map (·.bucket)).filter inWindow := fun rows => by
      rw [List.filter_map]
      rfl
    rw [hmap, hfeed, List.filter_map]
    unfold yahooDays between
    simp [inWindow, Function.comp_def]
  have hdays := istDay_stamps hwindow
  rw [hrows, ← hdays]
  unfold List.rtake
  rw [List.map_drop, List.map_drop, List.map_map, List.length_map]
  rfl

end Windows

/-! ## 3. All series, windows and limits -/

/-- The two bounds of Yahoo's window, and those of the query, in the order of the days. -/
theorem sameDays_iff {start finish : DateTime} {series : List ℤ} {limit : ℕ}
    (hseries : series.Pairwise (· < ·)) (hlimit : 0 < limit)
    (hne : queryDays start finish series ≠ []) :
    (∀ day, day ∈ (queryDays start finish series).take limit ↔
      day ∈ (yahooDays start finish series).rtake limit) ↔
      SameDays start finish series limit := by
  have hlo : Monotone fun day : ℤ => decide (start.instant istOffset ≤ dayStart day) := by
    refine fun d d' hd => Bool.le_iff_imp.mpr fun h => decide_eq_true ?_
    exact (of_decide_eq_true h).trans (dayStart_strictMono.monotone hd)
  have hhi : Antitone fun day : ℤ => decide (day ≤ finish.date) :=
    fun d d' hd => Bool.le_iff_imp.mpr fun h => decide_eq_true (hd.trans (of_decide_eq_true h))
  have hhi' : Antitone fun day : ℤ => decide (dayStart day < finish.instant istOffset) := by
    refine fun d d' hd => Bool.le_iff_imp.mpr fun h => decide_eq_true ?_
    exact (dayStart_strictMono.monotone hd).trans_lt (of_decide_eq_true h)
  have hsub : ∀ day : ℤ, decide (start.instant istOffset ≤ dayStart day) = true →
      decide (start.date ≤ day) = true :=
    fun day h => decide_eq_true (date_le_of_instant (of_decide_eq_true h))
  have h := take_mem_iff_rtake hseries hlo hhi hhi' hsub hlimit hne
  simp only [decide_eq_true_eq] at h
  unfold SameDays
  rw [or_iff_right hne]
  exact h

/-- **The two sources answer with the same days exactly under the condition**, for every ascending
    series that the table and the feed both hold, every window and every limit. -/
theorem source_independent_iff {yf : Yfinance} {feed : String → String → List HistoryRow}
    (hyf : HalfOpen yf feed) (table : EodTable) (ticks : List StoredTick) (localZone : ℚ)
    (call : HistoricalCall) (hdaily : call.interval = .d1) (now : ℚ) {start finish : DateTime}
    (hwindow : call.window now = .ok (start, finish)) {series : List ℤ}
    (hseries : series.Pairwise (· < ·))
    (htable : ∀ day, day ∈ series ↔ ∃ row ∈ table.rows, row.symbol = call.upperSymbol ∧
      row.exchange = call.exchange.str ∧ row.date = day)
    (hfeed : (feedOf feed call.upperSymbol call.exchange call.interval.str).map (·.bucket) =
      series.map dayStart) :
    ∃ stored yahoo, getHistorical ⟨yf, some (.ok (table, ticks)), localZone⟩ call now = .ok stored ∧
      getHistorical ⟨yf, none, localZone⟩ call now = .ok yahoo ∧
      ((∀ day, day ∈ stored.days ↔ day ∈ yahoo.days) ↔
        SameDays start finish series call.limit.1) := by
  obtain ⟨stored, hstored, hnone, hsome⟩ :=
    getHistorical_ok ⟨yf, some (.ok (table, ticks)), localZone⟩ hwindow
  obtain ⟨yahoo, hyahoo, hyahooData, -⟩ := getHistorical_ok ⟨yf, none, localZone⟩ hwindow
  refine ⟨stored, yahoo, hstored, hyahoo, ?_⟩
  have hrows : call.storedCandles ⟨yf, some (.ok (table, ticks)), localZone⟩ start finish =
      (call.eodRows table start finish).map EodRow.candle :=
    if_pos (by simp [HistoricalInterval.isEod, hdaily])
  rw [hrows] at hnone hsome
  have hquery : ((call.eodRows table start finish).map EodRow.candle).map HistoricalCandle.day =
      queryDays start finish series := eodRows_days hseries htable
  unfold HistoricalResponse.days
  by_cases hne : queryDays start finish series = []
  · rw [hne, List.map_eq_nil_iff] at hquery
    rw [hnone hquery, hyahooData rfl]
    exact iff_of_true (fun _ => Iff.rfl) (.inl hne)
  · have hnonempty : (call.eodRows table start finish).map EodRow.candle ≠ [] := by
      intro hempty
      rw [hempty] at hquery
      exact hne hquery.symm
    rw [hsome hnonempty, hyahooData rfl, List.map_take, hquery, yahooRows_days hyf hfeed]
    exact sameDays_iff hseries call.limit.2.1 hne

/-! ### Monday and Tuesday -/

/-- The daily bars of Monday, 5 January 2026, and of Tuesday. -/
def startOfWeek : String → String → List HistoryRow := fun _ _ =>
  [⟨dayStart 20458, some 2433, some 2455, some 2430, some 2450, 4800⟩,
    ⟨dayStart 20459, some 2450, some 2471, some 2444, some 2468, 5200⟩]

def startOfWeekFeed : Yfinance where
  between symbol interval start finish := .ok ((startOfWeek symbol interval).filter
    fun bar => start ≤ bar.bucket ∧ bar.bucket < finish)
  period symbol interval _ := .ok (startOfWeek symbol interval)

def startOfWeekTable : EodTable where
  rows := [{ date := 20458, symbol := "RELIANCE", exchange := "NSE", close := some 2450 },
    { date := 20459, symbol := "RELIANCE", exchange := "NSE", close := some 2468 }]
  primaryKey := by decide

/-- A date without a time. -/
def midnight (day : ℤ) : DateTime := ⟨day * 86400, none⟩

/-- A request from Monday to a day. -/
def fromMonday (finish : ℤ) : HistoricalCall where
  symbol := "RELIANCE"
  start := some (.ok (midnight 20458))
  finish := some (.ok (midnight finish))

theorem startOfWeek_held (finish : ℤ) (day : ℤ) : day ∈ [(20458 : ℤ), 20459] ↔
    ∃ row ∈ startOfWeekTable.rows, row.symbol = (fromMonday finish).upperSymbol ∧
      row.exchange = (fromMonday finish).exchange.str ∧ row.date = day := by
  have hsymbol : upper (strip "RELIANCE") = "RELIANCE" := by decide
  unfold HistoricalCall.upperSymbol
  dsimp only [fromMonday]
  rw [hsymbol]
  simp [startOfWeekTable, Exchange.str, eq_comm]

/-- Up to Wednesday both answer with Monday and Tuesday. -/
theorem source_independent_wednesday :
    ∃ stored yahoo,
      getHistorical ⟨startOfWeekFeed, some (.ok (startOfWeekTable, [])), istOffset⟩
        (fromMonday 20460) 0 = .ok stored ∧
      getHistorical ⟨startOfWeekFeed, none, istOffset⟩ (fromMonday 20460) 0 = .ok yahoo ∧
      ∀ day, day ∈ stored.days ↔ day ∈ yahoo.days := by
  obtain ⟨stored, yahoo, hstored, hyahoo, h⟩ := source_independent_iff
    (fun _ _ _ _ => rfl : HalfOpen startOfWeekFeed startOfWeek) startOfWeekTable [] istOffset
    (fromMonday 20460) rfl 0 rfl (by decide) (startOfWeek_held 20460) rfl
  refine ⟨stored, yahoo, hstored, hyahoo, h.mpr ?_⟩
  decide

/-- **Up to Tuesday the table answers with both days, and Yahoo with Monday alone.** -/
theorem end_day_left_out :
    (getHistorical ⟨startOfWeekFeed, some (.ok (startOfWeekTable, [])), istOffset⟩
      (fromMonday 20459) 0).map HistoricalResponse.days = .ok [20458, 20459] ∧
    (getHistorical ⟨startOfWeekFeed, none, istOffset⟩ (fromMonday 20459) 0).map
      HistoricalResponse.days = .ok [20458] := by
  decide

end BharatTicker
