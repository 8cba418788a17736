/-
  File:      BharatTicker/NseScraper/Quote.lean
  Subject:   QUOTES OF THE NSE PAGE (`providers/nse_scraper.py`: `_parse_nse_quote`,
             `_parse_market_depth`, `_safe_decimal`; `models/tick.py`: `MarketDepth`).

  Any JSON value may come back. A value that is absent reads as 0, so a payload may be a quote without
  a price; a level of the order book that is none is left out, where a total that is none costs the
  quote. A series that is `None` is kept as the empty text. Whatever is raised becomes a
  `ProviderSchemaError`, of which the first cause is kept.

  * `textInt`, `floatInt`, `jsonInt` -- the integers of a payload;
  * `BookLevel`, `OrderBook`, `levelOf`, `parseMarketDepth` -- the order book;
  * `NsePage`, `nsePage`, `NsePage.tick`, `parseNseQuote` -- the quote;
  * `NsePage.Quotable`, `parseNseQuote_ok_iff` -- what is a quote;
  * `PageTick`, `nse_page_quotes` -- and what such a quote is.
-/
import BharatTicker.LiveFeeds

namespace BharatTicker

open Basis

/-! ## 1. Integers -/

/-- `int(s)` of a text: digits of any script, at most 4300 of them. -/
def textInt (s : String) : Option ℤ :=
  let cs := asciiDigits (stripSpaces s.toList)
  if (cs.filter Char.isDigit).length ≤ 4300 then parseInt (String.ofList cs) else none

/-- `int(x)` of a float that prints as `q`. From `2^53` on a float is a multiple of a power of two,
    which its text need not be. -/
def floatInt (q : ℚ) : ℤ :=
  if |q| < 2 ^ 53 then (if 0 ≤ q then ⌊q⌋ else ⌈q⌉)
  else
    let unit : ℤ := 2 ^ (Nat.log2 ⌊|q|⌋₊ - 52)
    unit * roundHalfEven (q / unit)

/-- What ends a parser without a tick, inside of the `try` around it. -/
inductive ParseFailure where
  /-- `.get` of a value that is no dictionary. -/
  | attributeError
  /-- `int` of a value that is no number, or a slice of one that is no sequence. -/
  | typeError
  /-- The ISIN or the series is no text. -/
  | textType
  /-- `MarketDepth(...)`. -/
  | bookError
  | feed (e : FeedFailure)
  deriving DecidableEq, Repr

/-- An exception of an `int` or of a comparison. -/
def raised (e : QuoteException) : ParseFailure := .feed (.quote e)

/-- `int(x)`. -/
def jsonInt : PyJson → Except ParseFailure ℤ
  | .bool b => .ok (if b then 1 else 0)
  | .int n => .ok n
  | .float (.finite q) => .ok (floatInt q)
  | .float (.infinity _) => .error (raised (.intError .overflowError))
  | .float .nan | .float .signalingNan => .error (raised (.intError .valueError))
  | .str s => ((textInt s).map Except.ok).getD (.error (raised (.intError .valueError)))
  | .null | .arr _ | .obj _ => .error .typeError

/-- `d.get(key, default)`. -/
def jsonGetD (d : List (String × PyJson)) (key : String) (default : PyJson) : PyJson :=
  (d.lookup key).getD default

/-- `int(d.get(key, 0) or 0)`. -/
def countOf (d : List (String × PyJson)) (key : String) : Except ParseFailure ℤ :=
  jsonInt ((jsonGetD d key (.int 0)).jsonOr (.int 0))

/-- A value whose `.get` is called. -/
def pageDict : PyJson → Except ParseFailure (List (String × PyJson))
  | .obj entries => .ok entries
  | _ => .error .attributeError

/-- `_safe_decimal`. -/
def safeDecimal : PyJson → DecimalValue := feedDec ["-"]

/-! ## 2. The order book -/

/-- A `MarketDepthLevel`. -/
structure BookLevel where
  price : ℚ
  quantity : ℕ
  orders : ℕ
  deriving DecidableEq, Repr

/-- A `MarketDepth`. -/
structure OrderBook where
  buy : List BookLevel
  sell : List BookLevel
  totalBuyQuantity : ℕ
  totalSellQuantity : ℕ
  buyFits : buy.length ≤ 20
  sellFits : sell.length ≤ 20
  deriving DecidableEq, Repr

/-- `MarketDepthLevel(...)` of a price, a quantity and a number of orders. -/
def bookLevel : DecimalValue → ℤ → ℤ → Option BookLevel
  | .finite price, .ofNat quantity, .ofNat orders => some ⟨price, quantity, orders⟩
  | _, _, _ => none

/-- A level of the payload; `none` where the loop goes on to the next. -/
def levelOf (x : PyJson) : Option BookLevel := do
  let b ← (pageDict x).toOption
  let quantity ← (countOf b "quantity").toOption
  let orders ← (countOf b "number").toOption
  bookLevel (safeDecimal (jsonGetD b "price" (.int 0))) quantity orders

/-- `levels[:5]`. -/
def firstFive : PyJson → Except ParseFailure (List PyJson)
  | .arr items => .ok (items.take 5)
  | .str s => .ok ((s.toList.take 5).map fun c => .str (String.singleton c))
  | _ => .error .typeError

/-- `MarketDepth(...)` of two sides and their totals. -/
def orderBook (buy sell : List BookLevel) (totalBuy totalSell : ℤ) : Except ParseFailure OrderBook :=
  if h : buy.length ≤ 20 ∧ sell.length ≤ 20 ∧ 0 ≤ totalBuy ∧ 0 ≤ totalSell then
    .ok ⟨buy, sell, totalBuy.toNat, totalSell.toNat, h.1, h.2.1⟩
  else .error .bookError

/-- `_parse_market_depth`. -/
def parseMarketDepth (depth : PyJson) : Except ParseFailure (Option OrderBook) :=
  if depth.truthy then do
    let d ← pageDict depth
    let bids := jsonGetD d "bid" (.arr [])
    let asks := jsonGetD d "ask" (.arr [])
    if bids.truthy || asks.truthy then
      let buy ← firstFive bids
      let sell ← firstFive asks
      let totalBuy ← countOf d "totalBuyQuantity"
      let totalSell ← countOf d "totalSellQuantity"
      let book ← orderBook (buy.filterMap levelOf) (sell.filterMap levelOf) totalBuy totalSell
      return some book
    else return none
  else .ok none

/-! ## 3. The quote -/

/-- The dictionaries of a payload. -/
structure NsePage where
  info : List (String × PyJson)
  priceInfo : List (String × PyJson)
  securityInfo : List (String × PyJson)
  intraDayHighLow : List (String × PyJson)
  weekHighLow : List (String × PyJson)
  depth : PyJson

/-- A tick with its order book. -/
structure PageQuote where
  quote : FeedQuote
  marketDepth : Option OrderBook

/-- The calls of `.get` in `_parse_nse_quote`. -/
def nsePage (data : PyJson) : Except ParseFailure NsePage := do
  let d ← pageDict data
  let info ← pageDict (jsonGetD d "info" (.obj []))
  let priceInfo ← pageDict (jsonGetD d "priceInfo" (.obj []))
  let securityInfo ← pageDict (jsonGetD d "securityInfo" (.obj []))
  let intraDayHighLow ← pageDict (jsonGetD priceInfo "intraDayHighLow" (.obj []))
  let weekHighLow ← pageDict (jsonGetD priceInfo "weekHighLow" (.obj []))
  return ⟨info, priceInfo, securityInfo, intraDayHighLow, weekHighLow,
    jsonGetD d "marketDeptOrderBook" (.obj [])⟩

/-- A text, or `None`. -/
def textOrNull : PyJson → Except ParseFailure (Option String)
  | .str s => .ok (some s)
  | .null => .ok none
  | _ => .error .textType

namespace NsePage

/-- `self._safe_decimal(price_info.get(key, 0))`. -/
def price (page : NsePage) (key : String) : DecimalValue :=
  safeDecimal (jsonGetD page.priceInfo key (.int 0))

/-- `self._safe_decimal(price_info.get(key, None))`. -/
def limit (page : NsePage) (key : String) : DecimalValue := safeDecimal (jsonGet page.priceInfo key)

/-- `self._safe_decimal(price_info.get("intraDayHighLow", {}).get(key, 0))`. -/
def dayRange (page : NsePage) (key : String) : DecimalValue :=
  safeDecimal (jsonGetD page.intraDayHighLow key (.int 0))

/-- `self._safe_decimal(wk52.get(key, None))`. -/
def weekRange (page : NsePage) (key : String) : DecimalValue :=
  safeDecimal (jsonGet page.weekHighLow key)

/-- The arguments of `TickData(...)`, the order book aside. -/
def args (page : NsePage) (symbol : String) (isin series : Option String) (high low : DecimalValue)
    (volume : ℤ) : FeedTickArgs where
  symbol := symbol
  isin := isin
  exchange := .NSE
  series := series.getD ""
  ltp := page.price "lastPrice"
  opening := page.price "open"
  high := high
  low := low
  close := page.price "previousClose"
  change := page.price "change"
  pctChange := page.price "pChange"
  volume := volume
  value := some (safeDecimal (jsonGet page.securityInfo "totalTradedValue"))
  vwap := some (page.limit "vwap")
  source := "nse_scraper"
  week52High := some (page.weekRange "max")
  week52Low := some (page.weekRange "min")
  upperCircuit := some (page.limit "upperCP")
  lowerCircuit := some (page.limit "lowerCP")
  totalBuyQty := none
  totalSellQty := none
  openInterest := none

end NsePage

section Model

variable (upper : String → String)

/-- The rest of `_parse_nse_quote`. -/
def NsePage.tick (page : NsePage) (symbol : String) : Except ParseFailure PageQuote := do
  let marketDepth ← parseMarketDepth page.depth
  let volume ← countOf page.securityInfo "tradedVolume"
  let isin ← textOrNull (jsonGet page.info "isin")
  let series ← textOrNull (jsonGetD page.info "series" (.str "EQ"))
  let high ← (ifPos (page.dayRange "max") (page.price "lastPrice")).mapError raised
  let low ← (ifPos (page.dayRange "min") (page.price "lastPrice")).mapError raised
  let quote ← (liveTickData upper (page.args symbol isin series high low volume)).mapError .feed
  return ⟨quote, marketDepth⟩

/-- `_parse_nse_quote`. -/
def parseNseQuote (data : PyJson) (symbol : String) : Except ParseFailure PageQuote :=
  nsePage data >>= fun page => page.tick upper symbol

end Model

/-! ## 4. The order book that is read -/

/-- A level of the payload as the book has it. -/
def ShownAs (x : PyJson) (level : BookLevel) : Prop :=
  ∃ b, x = .obj b ∧ safeDecimal (jsonGet b "price") = .finite level.price ∧
    countOf b "quantity" = .ok level.quantity ∧ countOf b "number" = .ok level.orders

/-- A value that can be sliced. -/
def Sliceable : PyJson → Prop
  | .arr _ | .str _ => True
  | _ => False

/-- A number that may be negative, and one that is not. -/
def Counted (d : List (String × PyJson)) (key : String) : Prop := ∃ n, countOf d key = .ok n ∧ 0 ≤ n

/-- **The condition for an order book**: there is none, or nothing in it, or two sequences and totals. -/
def BookFits (depth : PyJson) : Prop :=
  depth.truthy = true → ∃ d, depth = .obj d ∧
    let bids := jsonGetD d "bid" (.arr [])
    let asks := jsonGetD d "ask" (.arr [])
    (bids.truthy || asks.truthy) = true →
      Sliceable bids ∧ Sliceable asks ∧ Counted d "totalBuyQuantity" ∧ Counted d "totalSellQuantity"

section Book

variable {x depth : PyJson} {d : List (String × PyJson)} {key : String} {items : List PyJson}
  {level : BookLevel} {ε α : Type} {e : Except ε α} {a : α} {dec : DecimalValue}
  {quantity orders totalBuy totalSell : ℤ} {buy sell : List BookLevel} {book : OrderBook}

/-- What is not there reads as 0, whatever stands for it. -/
theorem safeDecimal_getD : safeDecimal (jsonGetD d key (.int 0)) = safeDecimal (jsonGet d key) := by
  unfold jsonGetD jsonGet
  cases d.lookup key with
  | none => rfl
  | some v => rfl

/-- A limit reads as a price does. -/
theorem limit_eq (page : NsePage) (key : String) : page.limit key = page.price key :=
  safeDecimal_getD.symm

theorem toOption_eq_some : e.toOption = some a ↔ e = .ok a := by
  cases e <;> simp [Except.toOption]

theorem pageDict_eq_ok : pageDict x = .ok d ↔ x = .obj d := by
  cases x <;> simp [pageDict]

theorem bookLevel_eq_some : bookLevel dec quantity orders = some level ↔
    dec = .finite level.price ∧ quantity = level.quantity ∧ orders = level.orders := by
  obtain ⟨price, q, o⟩ := level
  cases dec with
  | finite v =>
    cases quantity with
    | ofNat m =>
      cases orders with
      | ofNat n => simp [bookLevel]
      | negSucc n => simp [bookLevel]
    | negSucc m => simp [bookLevel]
  | infinity negative | nan | signalingNan => simp [bookLevel]

/-- **A level is shown** where it is a dictionary with a price and two numbers. -/
theorem levelOf_eq_some : levelOf x = some level ↔ ShownAs x level := by
  simp only [levelOf, ShownAs, Option.bind_eq_bind, Option.bind_eq_some_iff, toOption_eq_some,
    pageDict_eq_ok, bookLevel_eq_some, safeDecimal_getD]
  refine ⟨?_, ?_⟩
  · rintro ⟨b, rfl, q, hq, o, ho, hprice, rfl, rfl⟩
    exact ⟨b, rfl, hprice, hq, ho⟩
  · rintro ⟨b, rfl, hprice, hq, ho⟩
    exact ⟨b, rfl, level.quantity, hq, level.orders, ho, hprice, rfl, rfl⟩

theorem firstFive_length (h : firstFive x = .ok items) : items.length ≤ 5 := by
  unfold firstFive at h
  split at h
  · cases h
    exact List.length_take_le 5 _
  · cases h
    rw [List.length_map]
    exact List.length_take_le 5 _
  · cases h

theorem exists_firstFive_iff : (∃ items, firstFive x = .ok items) ↔ Sliceable x := by
  cases x <;> simp [firstFive, Sliceable]

/-- A side has five levels at most. -/
theorem side_length (h : firstFive x = .ok items) : (items.filterMap levelOf).length ≤ 5 :=
  (List.length_filterMap_le levelOf items).trans (firstFive_length h)

theorem orderBook_eq_ok : orderBook buy sell totalBuy totalSell = .ok book ↔
    buy = book.buy ∧ sell = book.sell ∧ totalBuy = book.totalBuyQuantity ∧
      totalSell = book.totalSellQuantity := by
  unfold orderBook
  split
  · rename_i h
    obtain ⟨-, -, hbuy, hsell⟩ := h
    refine ⟨fun e => ?_, ?_⟩
    · cases e
      exact ⟨rfl, rfl, (Int.toNat_of_nonneg hbuy).symm, (Int.toNat_of_nonneg hsell).symm⟩
    · obtain ⟨b, s, tb, ts, hb, hs⟩ := book
      rintro ⟨rfl, rfl, rfl, rfl⟩
      rfl
  · rename_i h
    refine iff_of_false (fun e => by cases e) ?_
    rintro ⟨rfl, rfl, rfl, rfl⟩
    exact h ⟨book.buyFits, book.sellFits, Int.natCast_nonneg _, Int.natCast_nonneg _⟩

/-- **The order book is read** exactly where it is in order. -/
theorem parseMarketDepth_ok_iff : (∃ b, parseMarketDepth depth = .ok b) ↔ BookFits depth := by
  unfold parseMarketDepth BookFits
  cases htruthy : depth.truthy with
  | false => exact iff_of_true ⟨none, rfl⟩ fun h => by cases h
  | true =>
    simp only [if_true, exists_bind_ok, pageDict_eq_ok, forall_const]
    refine exists_congr fun d => and_congr_right fun _ => ?_
    cases hsome : (jsonGetD d "bid" (.arr [])).truthy || (jsonGetD d "ask" (.arr [])).truthy with
    | false => exact iff_of_true ⟨none, rfl⟩ fun h => by cases h
    | true =>
      simp only [if_true, exists_bind_ok, forall_const]
      refine ⟨?_, ?_⟩
      · rintro ⟨buy, hbuy, sell, hsell, totalBuy, htb, totalSell, hts, book, hbook, -⟩
        obtain ⟨-, -, rfl, rfl⟩ := orderBook_eq_ok.1 hbook
        exact ⟨exists_firstFive_iff.1 ⟨buy, hbuy⟩, exists_firstFive_iff.1 ⟨sell, hsell⟩,
          ⟨_, htb, Int.natCast_nonneg _⟩, ⟨_, hts, Int.natCast_nonneg _⟩⟩
      · rintro ⟨hbids, hasks, ⟨tb, htb, htb0⟩, ts, hts, hts0⟩
        obtain ⟨buy, hbuy⟩ := exists_firstFive_iff.2 hbids
        obtain ⟨sell, hsell⟩ := exists_firstFive_iff.2 hasks
        have hb := (side_length hbuy).trans (by decide : 5 ≤ 20)
        have hs := (side_length hsell).trans (by decide : 5 ≤ 20)
        exact ⟨buy, hbuy, sell, hsell, tb, htb, ts, hts, ⟨_, _, tb.toNat, ts.toNat, hb, hs⟩,
          orderBook_eq_ok.2 ⟨rfl, rfl, (Int.toNat_of_nonneg htb0).symm,
            (Int.toNat_of_nonneg hts0).symm⟩, _, rfl⟩

/-- **What the book shows**: of each side the levels among its first five entries. -/
theorem parseMarketDepth_levels (h : parseMarketDepth depth = .ok (some book)) :
    ∃ d bids asks, depth = .obj d ∧ firstFive (jsonGetD d "bid" (.arr [])) = .ok bids ∧
      firstFive (jsonGetD d "ask" (.arr [])) = .ok asks ∧
      book.buy = bids.filterMap levelOf ∧ book.sell = asks.filterMap levelOf := by
  unfold parseMarketDepth at h
  cases htruthy : depth.truthy with
  | false =>
    rw [htruthy] at h
    cases h
  | true =>
    simp only [htruthy, if_true, bind_eq_ok, pageDict_eq_ok] at h
    obtain ⟨d, hd, h⟩ := h
    cases hsome : (jsonGetD d "bid" (.arr [])).truthy || (jsonGetD d "ask" (.arr [])).truthy with
    | false =>
      rw [hsome] at h
      cases h
    | true =>
      simp only [hsome, if_true, bind_eq_ok] at h
      obtain ⟨buy, hbuy, sell, hsell, totalBuy, -, totalSell, -, book', hbook, h⟩ := h
      cases h
      obtain ⟨hb, hs, -, -⟩ := orderBook_eq_ok.1 hbook
      exact ⟨d, buy, sell, hd, hbuy, hsell, hb.symm, hs.symm⟩

end Book

/-! ## 5. What is a quote -/

/-- A value that is a text or `None`. -/
def IsText : PyJson → Prop
  | .str _ | .null => True
  | _ => False

/-- **The condition for a payload**, of its dictionaries. -/
structure NsePage.Quotable (page : NsePage) (upper : String → String) (symbol : String) : Prop where
  symbol : 1 ≤ (normalizeSymbol upper symbol).length ∧ (normalizeSymbol upper symbol).length ≤ 30
  isin : IsText (jsonGet page.info "isin") ∧
    ∀ s, jsonGet page.info "isin" = .str s → isIsin s = true
  series : IsText (jsonGetD page.info "series" (.str "EQ"))
  prices : ∀ key ∈ ["lastPrice", "open", "previousClose", "vwap", "upperCP", "lowerCP"],
    NonNeg (page.price key)
  changes : ∀ key ∈ ["change", "pChange"], IsFinite (page.price key)
  day : ∀ key ∈ ["max", "min"], Usable (page.dayRange key)
  weeks : ∀ key ∈ ["max", "min"], NonNeg (page.weekRange key)
  value : NonNeg (safeDecimal (jsonGet page.securityInfo "totalTradedValue"))
  volume : Counted page.securityInfo "tradedVolume"
  book : BookFits page.depth

section Quote

variable {x : PyJson} {page : NsePage} {upper : String → String} {data : PyJson} {symbol : String}
  {t : PageQuote}

/-- A field that is a text, or is not there. -/
theorem textOrNull_ok_iff {P : String → Prop} :
    (∃ s, textOrNull x = .ok s ∧ ∀ v, s = some v → P v) ↔ IsText x ∧ ∀ v, x = .str v → P v := by
  cases x <;> simp [textOrNull, IsText]

theorem exists_textOrNull_iff : (∃ s, textOrNull x = .ok s) ↔ IsText x := by
  cases x <;> simp [textOrNull, IsText]

/-- **A payload is a quote exactly when it meets the condition.** -/
theorem tick_ok_iff : (∃ t, page.tick upper symbol = .ok t) ↔ page.Quotable upper symbol := by
  simp only [NsePage.tick, exists_bind_ok, mapError_eq_ok]
  refine ⟨?_, fun h => ?_⟩
  · rintro ⟨depth, hdepth, volume, hvolume, isin, hisin, series, hseries, high, hhigh, low, hlow,
      t, ht, -⟩
    have hvalid := liveTickData_ok_iff.1 ⟨t, ht⟩
    refine ⟨hvalid.tick.symbol, textOrNull_ok_iff.1 ⟨isin, hisin, hvalid.tick.isin⟩,
      exists_textOrNull_iff.1 ⟨series, hseries⟩, ?_, ?_, ?_, ?_, hvalid.tick.value _ rfl,
      ⟨volume, hvolume, hvalid.tick.volume⟩, parseMarketDepth_ok_iff.1 ⟨depth, hdepth⟩⟩
    · simp only [List.forall_mem_cons, List.not_mem_nil, false_implies, implies_true, and_true,
        ← limit_eq page "vwap", ← limit_eq page "upperCP", ← limit_eq page "lowerCP"]
      exact ⟨hvalid.tick.ltp, hvalid.tick.opening, hvalid.tick.close, hvalid.tick.vwap _ rfl,
        hvalid.upperCircuit _ rfl, hvalid.lowerCircuit _ rfl⟩
    · simp only [List.forall_mem_cons, List.not_mem_nil, false_implies, implies_true, and_true]
      exact ⟨hvalid.tick.change, hvalid.tick.pctChange⟩
    · simp only [List.forall_mem_cons, List.not_mem_nil, false_implies, implies_true, and_true]
      exact ⟨(ifPos_ok_iff hvalid.tick.ltp).mp ⟨high, hhigh, hvalid.tick.high⟩,
        (ifPos_ok_iff hvalid.tick.ltp).mp ⟨low, hlow, hvalid.tick.low⟩⟩
    · simp only [List.forall_mem_cons, List.not_mem_nil, false_implies, implies_true, and_true]
      exact ⟨hvalid.week52High _ rfl, hvalid.week52Low _ rfl⟩
  · obtain ⟨hsymbol, hisin, hseries, hprices, hchanges, hday, hweeks, hvalue, ⟨volume, hvolume, hvol0⟩,
      hbook⟩ := h
    simp only [List.forall_mem_cons, List.not_mem_nil, false_implies, implies_true, and_true,
      ← limit_eq page "vwap", ← limit_eq page "upperCP", ← limit_eq page "lowerCP"]
      at hprices hchanges hday hweeks
    obtain ⟨hltp, hopen, hclose, hvwap, hupper, hlower⟩ := hprices
    obtain ⟨depth, hdepth⟩ := parseMarketDepth_ok_iff.2 hbook
    obtain ⟨isin, hi, hi0⟩ := textOrNull_ok_iff.2 hisin
    obtain ⟨series, hs⟩ := exists_textOrNull_iff.2 hseries
    obtain ⟨high, hh, hh0⟩ := (ifPos_ok_iff hltp).mpr hday.1
    obtain ⟨low, hl, hl0⟩ := (ifPos_ok_iff hltp).mpr hday.2
    have hsome : ∀ {d : DecimalValue}, NonNeg d → ∀ v, some d = some v → NonNeg v :=
      fun hd v hv => Option.some_inj.mp hv ▸ hd
    have hvalid : ∃ t, liveTickData upper (page.args symbol isin series high low volume) = .ok t :=
      liveTickData_ok_iff.2
      ⟨⟨hsymbol, hi0, hltp, hopen, hh0, hl0, hclose, hchanges.1, hchanges.2, hvol0, hsome hvalue,
        hsome hvwap⟩, hsome hupper, hsome hlower, fun n hn => (by cases hn), fun n hn => (by cases hn),
        fun n hn => (by cases hn), hsome hweeks.1, hsome hweeks.2⟩
    obtain ⟨t, ht⟩ := hvalid
    exact ⟨depth, hdepth, volume, hvolume, isin, hi, series, hs, high, hh, low, hl, t, ht, _, rfl⟩

end Quote

/-! ## 6. What such a quote is -/

/-- A side of the book shows the levels among the first five entries of the payload. -/
def Shows (x : PyJson) (levels : List BookLevel) : Prop :=
  levels.length ≤ 5 ∧ ∃ items, firstFive x = .ok items ∧
    ∀ level, level ∈ levels ↔ ∃ y ∈ items, ShownAs y level

/-- A quote of the page for a symbol. -/
structure PageTick (symbol : String) (page : NsePage) (t : PageQuote) : Prop where
  symbol : t.quote.args.symbol = symbol
  exchange : t.quote.args.exchange = .NSE
  source : t.quote.args.source = "nse_scraper"
  ltp : t.quote.args.ltp = page.price "lastPrice"
  range : ∀ v ∈ [t.quote.args.high, t.quote.args.low], Priced v ∨ v = t.quote.args.ltp
  book : ∀ book, t.marketDepth = some book → ∃ d, page.depth = .obj d ∧
    Shows (jsonGetD d "bid" (.arr [])) book.buy ∧ Shows (jsonGetD d "ask" (.arr [])) book.sell

section Ticks

variable {x : PyJson} {items : List PyJson} {page : NsePage} {upper : String → String}
  {symbol : String} {t : PageQuote} {d other r : DecimalValue}

theorem shows_filterMap (h : firstFive x = .ok items) : Shows x (items.filterMap levelOf) :=
  ⟨side_length h, items, h, fun level => by simp only [List.mem_filterMap, levelOf_eq_some]⟩

/-- The high and the low are positive, or the price. -/
theorem ifPos_priced (h : ifPos d other = .ok r) (hr : NonNeg r) : Priced r ∨ r = other := by
  rcases ifPos_cases h with ⟨hpos, rfl⟩ | ⟨-, rfl⟩
  · obtain ⟨q, rfl, -⟩ := hr
    exact .inl ⟨q, rfl, of_decide_eq_true (isPos_finite_iff.1 hpos)⟩
  · exact .inr rfl

theorem tick_pageTick (h : page.tick upper symbol = .ok t) :
    PageTick (normalizeSymbol upper symbol) page t := by
  simp only [NsePage.tick, bind_eq_ok, mapError_eq_ok] at h
  obtain ⟨depth, hdepth, volume, -, isin, -, series, -, high, hhigh, low, hlow, quote, hquote, h⟩ := h
  cases h
  have hvalid := feedErrors_eq_nil_iff.1 quote.valid
  have hargs := liveTickData_args hquote
  rw [hargs] at hvalid
  refine ⟨congrArg (·.symbol) hargs, congrArg (·.exchange) hargs, congrArg (·.source) hargs,
    congrArg (·.ltp) hargs, ?_, ?_⟩
  · rw [hargs]
    simp only [List.forall_mem_cons, List.not_mem_nil, false_implies, implies_true, and_true]
    exact ⟨ifPos_priced hhigh hvalid.tick.high, ifPos_priced hlow hvalid.tick.low⟩
  · rintro book rfl
    obtain ⟨d, bids, asks, hd, hbids, hasks, hbuy, hsell⟩ := parseMarketDepth_levels hdepth
    rw [hbuy, hsell]
    exact ⟨d, hd, shows_filterMap hbids, shows_filterMap hasks⟩

end Ticks

/-- A payload with nothing in it is a quote, at the price of 0. -/
example : (parseNseQuote id (.obj []) "TCS").toOption.map (·.quote.args.ltp) = some (.finite 0) := by
  decide +kernel

/-- Of the second level the quantity is no number. -/
example : (parseMarketDepth (.obj [("bid", .arr [
    .obj [("price", .str "2,001.50"), ("quantity", .int 40), ("number", .null)],
    .obj [("price", .int 2001), ("quantity", .str "-")]])])).toOption.map (·.map (·.buy)) =
    some (some [⟨4003 / 2, 40, 0⟩]) := by decide +kernel

end BharatTicker
