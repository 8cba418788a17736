/-
  File:      BharatTicker/History.lean
  Subject:   HISTORY FROM YAHOO (`engine/market_data.py`: `get_history`, `_yahoo_history_sync`).

  The library that fetches is a parameter: what `ticker.history` returns for a window or for a period,
  each bar with its prices rounded as `_yahoo_history_sync` rounds them, or that it raises.

  * `Yfinance` -- the library; `HalfOpen` -- it answers a window with the bars of a feed that start in
    it, the end left out;
  * `yfIntervals`, `yahooSymbol`, `getHistory` -- the function.
-/
import BharatTicker.IntradayBuilder
import BharatTicker.SbIntraday

namespace BharatTicker

/-- `ticker.history(start, end, interval)` and `ticker.history(period, interval)`. -/
structure Yfinance where
  between (symbol interval : String) (start finish : ℚ) : Except String (List HistoryRow)
  period (symbol interval period : String) : Except String (List HistoryRow)

/-- `history(start, end)` returns the bars of the feed with `start <= t < end`. -/
def HalfOpen (yf : Yfinance) (feed : String → String → List HistoryRow) : Prop :=
  ∀ symbol interval start finish, yf.between symbol interval start finish =
    .ok ((feed symbol interval).filter fun bar => start ≤ bar.bucket ∧ bar.bucket < finish)

/-- `_YF_INTERVAL`: the interval of the library, and the default period. -/
def yfIntervals : List (String × String × String) :=
  [("1m", "1m", "7d"), ("5m", "5m", "60d"), ("15m", "15m", "60d"), ("30m", "30m", "60d"),
    ("1h", "60m", "730d"), ("4h", "60m", "730d"), ("1d", "1d", "5y"), ("1w", "1wk", "10y")]

def yfInterval (interval : String) : String × String :=
  (yfIntervals.lookup interval).getD ("1d", "5y")

/-- `_INDEX_YF`. -/
def indexYf : List (String × String) :=
  [("^NSEI", "^NSEI"), ("NSEI", "^NSEI"), ("NIFTY", "^NSEI"), ("NIFTY50", "^NSEI"),
    ("NIFTY 50", "^NSEI"), ("^NSEBANK", "^NSEBANK"), ("NSEBANK", "^NSEBANK"),
    ("BANKNIFTY", "^NSEBANK"), ("NIFTYBANK", "^NSEBANK"), ("NIFTY BANK", "^NSEBANK"),
    ("^CNXIT", "^CNXIT"), ("NIFTYIT", "^CNXIT"), ("NIFTY IT", "^CNXIT"), ("^BSESN", "^BSESN"),
    ("SENSEX", "^BSESN")]

/-- `_yahoo_symbol`. -/
def yahooSymbol (symbol : String) (exchange : Exchange) : String :=
  match indexYf.lookup symbol with
  | some idx => idx
  | none =>
    if symbol.toList.head? = some '^' ∨ '.' ∈ symbol.toList ∨ '=' ∈ symbol.toList then symbol
    else symbol ++ (if exchange = .BSE then ".BO" else ".NS")

/-- What `get_history` makes of the end of its fetch: an exception is an empty list. -/
def fromUpstream (limit : Option ℕ) : Except String (List HistoryRow) → List HistoryRow
  | .error _ => []
  | .ok candles =>
    match limit with
    | some n => if n = 0 then candles else lastSlice n candles
    | none => candles

/-- `get_history`; `window` is `start` and `end`, if there is a start. -/
def getHistory (yf : Yfinance) (symbol : String) (exchange : Exchange) (interval : String)
    (window : Option (ℚ × ℚ)) (limit : Option ℕ) : List HistoryRow :=
  let s := yahooSymbol (canonicalSymbol symbol) exchange
  let (i, p) := yfInterval interval
  fromUpstream limit
    (match window with
    | some (start, finish) => yf.between s i start finish
    | none => yf.period s i p)

/-- The feed that a request draws from. -/
def feedOf (feed : String → String → List HistoryRow) (symbol : String) (exchange : Exchange)
    (interval : String) : List HistoryRow :=
  feed (yahooSymbol (canonicalSymbol symbol) exchange) (yfInterval interval).1

/-- **A window without a limit returns the feed's bars in it.** -/
theorem getHistory_window {yf : Yfinance} {feed : String → String → List HistoryRow}
    (h : HalfOpen yf feed) (symbol : String) (exchange : Exchange) (interval : String)
    (start finish : ℚ) :
    getHistory yf symbol exchange interval (some (start, finish)) none =
      (feedOf feed symbol exchange interval).filter
        fun bar => start ≤ bar.bucket ∧ bar.bucket < finish := by
  unfold getHistory feedOf
  dsimp only
  rw [h]
  rfl

end BharatTicker
