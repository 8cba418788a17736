/-
  File:      BharatTicker/SbCandles.lean
  Subject:   DAILY CANDLES WITH THE LIVE BAR (`api/endpoints/superbrain.py`: `sb_candles`,
             `_today_bar_from_quote`).

  The history is that of `get_history`; the quote is what `_live_quote` has returned for the same
  symbol and exchange. Whether the market is open is asked between the two.

  * `DayTick`, `todayBar` -- a tick with the range of its day, and the bar that is made of it;
  * `series`, `overlay`, `sbCandles` -- the endpoint;
  * `sbCandles_last` -- the live bar is the last one, and the others are those of the series.
-/
import BharatTicker.CorpActions
import BharatTicker.History

namespace BharatTicker

open Basis

/-- A tick with the day's open, high and low. -/
structure DayTick extends TickData where
  opening : ℚ
  high : ℚ
  low : ℚ
  deriving DecidableEq, Repr

/-- `_today_bar_from_quote`, at `now`. -/
def todayBar (tick : DayTick) (now : ℚ) : DailyBar where
  timestamp := dayStart (istDay now)
  opening := some (if tick.opening ≠ 0 then tick.opening else tick.ltp)
  high := some (if tick.high ≠ 0 then tick.high else tick.ltp)
  low := some (if tick.low ≠ 0 then tick.low else tick.ltp)
  close := some tick.ltp
  volume := some tick.volume

/-- `_RANGE_LIMIT`. -/
def rangeLimits : List (String × ℕ) :=
  [("1mo", 25), ("3mo", 70), ("6mo", 130), ("1y", 260), ("2y", 520), ("3y", 780), ("5y", 1300),
    ("max", 2500)]

structure CandlesCall where
  symbol : String
  exchange : Exchange := .NSE
  range : String := "6mo"
  interval : String := "1d"
  adjust : Bool := true
  liveLast : Bool := true
  deriving DecidableEq, Repr

structure CandlesResponse where
  symbol : String
  exchange : Exchange
  interval : IntervalCode
  splitEvents : List SplitEvent
  liveLastBar : Bool
  candles : List DailyBar
  deriving DecidableEq, Repr

namespace CandlesCall

variable (call : CandlesCall)

/-- `_INTERVAL_MAP.get(interval, "1d")`. -/
def code : IntervalCode := (intervalMap.lookup call.interval).getD .d1

/-- `_RANGE_LIMIT.get(range, 130)`. -/
def limit : ℕ := (rangeLimits.lookup call.range).getD 130

/-- The candles of the history, adjusted where they are to be. -/
def series (yf : Yfinance) : List DailyBar × List SplitEvent :=
  let rows := getHistory yf (canonicalSymbol call.symbol) call.exchange call.code.str none
    (some call.limit)
  let candles := (normCandles rows).map SbCandle.daily
  if call.adjust = true ∧ (call.code = .d1 ∨ call.code = .w1) then adjustForSplits candles
  else (candles, [])

/-- `liveLast and code == "1d" and is_market_open()`. -/
def overlays (marketOpen : Bool) : Bool := call.liveLast && call.code = .d1 && marketOpen

end CandlesCall

/-- The bar of today in the place of the last candle, if that is of today, or after it. -/
def overlay (candles : List DailyBar) (bar : DailyBar) (today : ℤ) : List DailyBar :=
  match candles.getLast? with
  | some last =>
    if istDay last.timestamp = today then candles.dropLast ++ [bar] else candles ++ [bar]
  | none => candles ++ [bar]

/-- The bar that is put in. -/
def CandlesCall.liveBar (call : CandlesCall) (marketOpen : Bool) (quote : Option DayTick) (now : ℚ) :
    Option DailyBar :=
  if call.overlays marketOpen then quote.map (todayBar · now) else none

/-- The response, over the candles of the history and the live bar. -/
def CandlesCall.response (call : CandlesCall) (series : List DailyBar × List SplitEvent)
    (live : Option DailyBar) (today : ℤ) : CandlesResponse where
  symbol := canonicalSymbol call.symbol
  exchange := call.exchange
  interval := call.code
  splitEvents := series.2
  liveLastBar := live.isSome
  candles := match live with
    | some bar => overlay series.1 bar today
    | none => series.1

/-- `sb_candles`; the clock is read when the live bar is put in. -/
def sbCandles (yf : Yfinance) (call : CandlesCall) (marketOpen : Bool) (quote : Option DayTick)
    (now : ℚ) : Except HttpException CandlesResponse :=
  match rejectIndex call.symbol with
  | some e => .error e
  | none => .ok (call.response (call.series yf) (call.liveBar marketOpen quote now) (istDay now))

theorem overlay_getLast? (candles : List DailyBar) (bar : DailyBar) (today : ℤ) :
    (overlay candles bar today).getLast? = some bar := by
  unfold overlay
  split
  · split <;> exact List.getLast?_concat
  · exact List.getLast?_concat

theorem overlay_dropLast (candles : List DailyBar) (bar : DailyBar) (today : ℤ) :
    (overlay candles bar today).dropLast <+: candles := by
  unfold overlay
  split
  · split
    · rw [List.dropLast_concat]
      exact List.dropLast_prefix candles
    · rw [List.dropLast_concat]
  · rw [List.dropLast_concat]

/-- **A response with a live bar**: it is the bar of the quote, and the others are of the series. -/
theorem sbCandles_last {yf : Yfinance} {call : CandlesCall} {marketOpen : Bool}
    {quote : Option DayTick} {now : ℚ} {r : CandlesResponse}
    (h : sbCandles yf call marketOpen quote now = .ok r) (hlive : r.liveLastBar = true) :
    ∃ tick, quote = some tick ∧ r.candles.getLast? = some (todayBar tick now) ∧
      r.candles.dropLast <+: (call.series yf).1 := by
  unfold sbCandles at h
  split at h
  · cases h
  · rw [← Except.ok.inj h] at hlive ⊢
    obtain ⟨bar, hbar⟩ := Option.isSome_iff_exists.mp hlive
    obtain ⟨tick, hquote, e⟩ := Option.map_eq_some_iff.mp (Option.ite_none_right_eq_some.mp hbar).2
    refine ⟨tick, hquote, ?_⟩
    unfold CandlesCall.response
    rw [hbar, ← e]
    exact ⟨overlay_getLast? _ _ _, overlay_dropLast _ _ _⟩

end BharatTicker
