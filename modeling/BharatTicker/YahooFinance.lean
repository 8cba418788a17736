/-
  File:      BharatTicker/YahooFinance.lean
  Subject:   QUOTES OF YAHOO (`providers/yahoo_finance.py`: `fetch_quote`, `_fetch_sync`,
             `_parse_yahoo_data`).

  The library's dictionary, or where it has no price the attributes of its `fast_info`, are inputs; a
  float is the number that its text denotes. Whatever is raised becomes a `ProviderError`. The series is
  `None`, kept as the empty text.

  * `fetchSync` -- what is parsed;
  * `strDecimal`, `figure`, `rangeOf` -- how a figure is read;
  * `yahooArgs`, `parseYahooData`, `yahooFetchQuote` -- the quote;
  * `YahooQuotable`, `parseYahooData_ok_iff` -- what is a quote;
  * `YahooTick`, `yahoo_quotes` -- and what such a quote is.
-/
import BharatTicker.NseScraper.Quote

namespace BharatTicker

open Basis

/-! ## 1. What is parsed -/

/-- `_fetch_sync`, of the dictionary and of the attributes that `fast_info` has. -/
def fetchSync (info fastInfo : List (String × PyJson)) : List (String × PyJson) :=
  if info = [] ∨ (jsonGet info "regularMarketPrice").isSome = false then
    [("regularMarketPrice", jsonGetD fastInfo "last_price" (.int 0)),
      ("regularMarketOpen", jsonGetD fastInfo "open" (.int 0)),
      ("regularMarketDayHigh", jsonGetD fastInfo "day_high" (.int 0)),
      ("regularMarketDayLow", jsonGetD fastInfo "day_low" (.int 0)),
      ("regularMarketPreviousClose", jsonGetD fastInfo "previous_close" (.int 0)),
      ("regularMarketVolume", jsonGetD fastInfo "last_volume" (.int 0)),
      ("fiftyTwoWeekHigh", jsonGet fastInfo "year_high"),
      ("fiftyTwoWeekLow", jsonGet fastInfo "year_low"),
      ("marketCap", jsonGet fastInfo "market_cap")]
  else info

/-- `Decimal(str(x))`. -/
def strDecimal : PyJson → Except QuoteException DecimalValue
  | .int n => .ok (.finite n)
  | .float d => .ok d
  | .str s => ((DecimalValue.parse s).map Except.ok).getD (.error (.decimalSignal .invalidOperation))
  | .null | .bool _ | .arr _ | .obj _ => .error (.decimalSignal .invalidOperation)

/-- `Decimal(str(info.get(key, 0) or 0))`. -/
def figure (info : List (String × PyJson)) (key : String) : Except QuoteException DecimalValue :=
  strDecimal ((jsonGetD info key (.int 0)).jsonOr (.int 0))

/-- `Decimal(str(x)) if x else None`. -/
def rangeOf (x : PyJson) : Except QuoteException (Option DecimalValue) :=
  if x.truthy then (strDecimal x).map some else .ok none

/-! ## 2. The quote -/

/-- The arguments of `TickData(...)`. -/
def yahooArgs (symbol : String) (ltp opening high low close change pct : DecimalValue) (volume : ℤ)
    (week52High week52Low : Option DecimalValue) : FeedTickArgs where
  symbol := symbol
  isin := none
  exchange := .NSE
  series := ""
  ltp := ltp
  opening := opening
  high := high
  low := low
  close := close
  change := change
  pctChange := pct
  volume := volume
  value := none
  vwap := none
  source := "yahoo_finance"
  week52High := week52High
  week52Low := week52Low
  upperCircuit := none
  lowerCircuit := none
  totalBuyQty := none
  totalSellQty := none
  openInterest := none

section Model

variable (upper : String → String)

/-- `_parse_yahoo_data`. -/
def parseYahooData (info : List (String × PyJson)) (symbol : String) :
    Except ParseFailure FeedQuote := do
  let ltp ← (figure info "regularMarketPrice").mapError raised
  let openPrice ← (figure info "regularMarketOpen").mapError raised
  let high ← (figure info "regularMarketDayHigh").mapError raised
  let low ← (figure info "regularMarketDayLow").mapError raised
  let close ← (figure info "regularMarketPreviousClose").mapError raised
  let volume ← countOf info "regularMarketVolume"
  let change ← (changeOf ltp close).mapError raised
  let pct ← (pctOf change close).mapError raised
  let opening ← (ifPos openPrice ltp).mapError raised
  let high ← (ifPos high ltp).mapError raised
  let low ← (ifPos low ltp).mapError raised
  let week52High ← (rangeOf (jsonGet info "fiftyTwoWeekHigh")).mapError raised
  let week52Low ← (rangeOf (jsonGet info "fiftyTwoWeekLow")).mapError raised
  (liveTickData upper
    (yahooArgs symbol ltp opening high low close change pct volume week52High week52Low)).mapError .feed

/-- `fetch_quote`, of what the library returns; `none` where it raises a `ProviderError`. -/
def yahooFetchQuote (info fastInfo : List (String × PyJson)) (symbol : String) : Option FeedQuote :=
  (parseYahooData upper (fetchSync info fastInfo) symbol).toOption

end Model

/-! ## 3. What is a quote -/

/-- A figure that reads as a number of a kind. -/
def Reads (info : List (String × PyJson)) (key : String) (P : DecimalValue → Prop) : Prop :=
  ∃ d, figure info key = .ok d ∧ P d

/-- A range that is not there, or reads as a number that is not negative. -/
def RangeFits (x : PyJson) : Prop := x.truthy = true → ∃ d, strDecimal x = .ok d ∧ NonNeg d

/-- **The condition for what is parsed.** -/
structure YahooQuotable (upper : String → String) (info : List (String × PyJson)) (symbol : String) :
    Prop where
  symbol : 1 ≤ (normalizeSymbol upper symbol).length ∧ (normalizeSymbol upper symbol).length ≤ 30
  prices : ∃ price prev, figure info "regularMarketPrice" = .ok (.finite price) ∧ 0 ≤ price ∧
    figure info "regularMarketPreviousClose" = .ok (.finite prev) ∧ 0 ≤ prev ∧
    (0 < prev → ChangeFits price prev)
  day : ∀ key ∈ ["regularMarketOpen", "regularMarketDayHigh", "regularMarketDayLow"],
    Reads info key Usable
  volume : Counted info "regularMarketVolume"
  weeks : ∀ key ∈ ["fiftyTwoWeekHigh", "fiftyTwoWeekLow"], RangeFits (jsonGet info key)

section Quotes

variable {upper : String → String} {info fastInfo : List (String × PyJson)} {symbol : String}
  {x : PyJson} {t : FeedQuote}

theorem rangeOf_ok_iff :
    (∃ r, rangeOf x = .ok r ∧ ∀ v, r = some v → NonNeg v) ↔ RangeFits x := by
  unfold rangeOf RangeFits
  cases htruthy : x.truthy with
  | false => exact iff_of_true ⟨none, rfl, fun v hv => by cases hv⟩ fun h => by cases h
  | true =>
    cases hx : strDecimal x with
    | error e => simp [Except.map]
    | ok d => simp [Except.map]

/-- **What is parsed is a quote exactly when it meets the condition.** -/
theorem parseYahooData_ok_iff :
    (∃ t, parseYahooData upper info symbol = .ok t) ↔ YahooQuotable upper info symbol := by
  simp only [parseYahooData, exists_bind_ok, mapError_eq_ok, liveTickData_ok_iff]
  refine ⟨?_, fun h => ?_⟩
  · rintro ⟨ltp, hltp, openPrice, hopenPrice, highPrice, hhighPrice, lowPrice, hlowPrice, close, hclose,
      volume, hvolume, change, hchange, pct, hpct, opening, hopening, high, hhigh, low, hlow,
      yearHigh, hyearHigh, yearLow, hyearLow, hvalid⟩
    obtain ⟨price, rfl, hprice⟩ := hvalid.tick.ltp
    obtain ⟨prev, rfl, hprev⟩ := hvalid.tick.close
    have hother : NonNeg (.finite price) := ⟨price, rfl, hprice⟩
    refine ⟨hvalid.tick.symbol, ⟨price, prev, hltp, hprice, hclose, hprev, fun hpos => ?_⟩, ?_,
      ⟨volume, hvolume, hvalid.tick.volume⟩, ?_⟩
    · obtain ⟨y, hy, hfits⟩ := (change_ok_iff hprev).mp
        ⟨change, hchange, hvalid.tick.change, pct, hpct, hvalid.tick.pctChange⟩ hpos
      cases hy
      exact hfits
    · simp only [List.forall_mem_cons, List.not_mem_nil, false_implies, implies_true, and_true]
      exact ⟨⟨openPrice, hopenPrice, (ifPos_ok_iff hother).mp ⟨opening, hopening, hvalid.tick.opening⟩⟩,
        ⟨highPrice, hhighPrice, (ifPos_ok_iff hother).mp ⟨high, hhigh, hvalid.tick.high⟩⟩,
        ⟨lowPrice, hlowPrice, (ifPos_ok_iff hother).mp ⟨low, hlow, hvalid.tick.low⟩⟩⟩
    · simp only [List.forall_mem_cons, List.not_mem_nil, false_implies, implies_true, and_true]
      exact ⟨rangeOf_ok_iff.1 ⟨yearHigh, hyearHigh, hvalid.week52High⟩,
        rangeOf_ok_iff.1 ⟨yearLow, hyearLow, hvalid.week52Low⟩⟩
  · obtain ⟨hsymbol, ⟨price, prev, hltp, hprice, hclose, hprev, hfits⟩, hday, ⟨volume, hvolume, hvol0⟩,
      hweeks⟩ := h
    simp only [List.forall_mem_cons, List.not_mem_nil, false_implies, implies_true, and_true]
      at hday hweeks
    obtain ⟨⟨openPrice, hopenPrice, hopenUse⟩, ⟨highPrice, hhighPrice, hhighUse⟩,
      ⟨lowPrice, hlowPrice, hlowUse⟩⟩ := hday
    have hother : NonNeg (.finite price) := ⟨price, rfl, hprice⟩
    obtain ⟨change, hchange, hchangeFin, pct, hpct, hpctFin⟩ :=
      (change_ok_iff hprev).mpr fun hpos => ⟨price, rfl, hfits hpos⟩
    obtain ⟨opening, hopening, hopen0⟩ := (ifPos_ok_iff hother).mpr hopenUse
    obtain ⟨high, hhigh, hhigh0⟩ := (ifPos_ok_iff hother).mpr hhighUse
    obtain ⟨low, hlow, hlow0⟩ := (ifPos_ok_iff hother).mpr hlowUse
    obtain ⟨yearHigh, hyearHigh, hyh0⟩ := rangeOf_ok_iff.2 hweeks.1
    obtain ⟨yearLow, hyearLow, hyl0⟩ := rangeOf_ok_iff.2 hweeks.2
    exact ⟨_, hltp, openPrice, hopenPrice, highPrice, hhighPrice, lowPrice, hlowPrice, _, hclose,
      volume, hvolume, change, hchange, pct, hpct, opening, hopening, high, hhigh, low, hlow,
      yearHigh, hyearHigh, yearLow, hyearLow,
      ⟨hsymbol, fun s hs => (by cases hs), hother, hopen0, hhigh0, hlow0, ⟨prev, rfl, hprev⟩,
        hchangeFin, hpctFin, hvol0, fun v hv => (by cases hv), fun v hv => (by cases hv)⟩,
      fun v hv => (by cases hv), fun v hv => (by cases hv), fun n hn => (by cases hn),
      fun n hn => (by cases hn), fun n hn => (by cases hn), hyh0, hyl0⟩

end Quotes

/-! ## 4. What such a quote is -/

/-- A quote of Yahoo for a symbol. -/
structure YahooTick (symbol : String) (t : FeedQuote) : Prop where
  symbol : t.args.symbol = symbol
  exchange : t.args.exchange = .NSE
  source : t.args.source = "yahoo_finance"
  range : ∀ v ∈ [t.args.opening, t.args.high, t.args.low], Priced v ∨ v = t.args.ltp
  change : changeOf t.args.ltp t.args.close = .ok t.args.change
  pctChange : pctOf t.args.change t.args.close = .ok t.args.pctChange

theorem parseYahooData_tick {upper : String → String} {info : List (String × PyJson)} {symbol : String}
    {t : FeedQuote} (h : parseYahooData upper info symbol = .ok t) :
    YahooTick (normalizeSymbol upper symbol) t := by
  have hvalid := feedErrors_eq_nil_iff.1 t.valid
  simp only [parseYahooData, bind_eq_ok, mapError_eq_ok] at h
  obtain ⟨ltp, -, openPrice, -, highPrice, -, lowPrice, -, close, -, volume, -, change, hchange, pct,
    hpct, opening, hopening, high, hhigh, low, hlow, yearHigh, -, yearLow, -, h⟩ := h
  have hargs := liveTickData_args h
  rw [hargs] at hvalid
  refine ⟨congrArg (·.symbol) hargs, congrArg (·.exchange) hargs, congrArg (·.source) hargs, ?_, ?_, ?_⟩
  · rw [hargs]
    simp only [List.forall_mem_cons, List.not_mem_nil, false_implies, implies_true, and_true]
    exact ⟨ifPos_priced hopening hvalid.tick.opening, ifPos_priced hhigh hvalid.tick.high,
      ifPos_priced hlow hvalid.tick.low⟩
  · rw [hargs]
    exact hchange
  · rw [hargs]
    exact hpct

/-- **Quotes of Yahoo.** What the library returns is a quote exactly when its price and previous close
    are finite and not negative, with a change that fits, its other prices are finite or are replaced by
    the price, and its volume and ranges are numbers that are not negative. The quote has the symbol
    asked for, and is one of the NSE whatever its suffix; its open, high and low are positive or the
    price, and its changes are those from the previous close. -/
theorem yahoo_quotes (upper : String → String) (info fastInfo : List (String × PyJson))
    (symbol : String) :
    ((∃ t, yahooFetchQuote upper info fastInfo symbol = some t) ↔
        YahooQuotable upper (fetchSync info fastInfo) symbol) ∧
      ∀ t, yahooFetchQuote upper info fastInfo symbol = some t →
        YahooTick (normalizeSymbol upper symbol) t := by
  unfold yahooFetchQuote
  simp only [toOption_eq_some]
  exact ⟨parseYahooData_ok_iff, fun t ht => parseYahooData_tick ht⟩

/-- Without a price, that of `fast_info`. -/
example : (yahooFetchQuote id [("currency", .str "INR")]
    [("last_price", .float (.finite (301 / 2))), ("previous_close", .int 150)] "TCS.BO").map
    (fun t => (t.args.exchange, t.args.ltp, t.args.change)) =
    some (.NSE, .finite (301 / 2), .finite (1 / 2)) := by
  decide +kernel

end BharatTicker
