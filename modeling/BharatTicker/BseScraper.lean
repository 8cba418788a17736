/-
  File:      BharatTicker/BseScraper.lean
  Subject:   LIVE QUOTES OF THE BSE (`providers/bse_scraper.py`: `_parse`, `_dec`).

  A payload is any JSON value; of a float it has the number that its `repr` denotes, since `_dec` reads
  that. Whatever is raised becomes a `ProviderSchemaError`. The latency of a quote is not kept.

  * `PyJson`, `truthy`, `jsonOr` -- values of a payload;
  * `ScrapedTickArgs`, `ScrapedTick`, `scrapedTickData` -- a tick with its 52-week range;
  * `BseFields`, `bseFields` -- what is read from a payload;
  * `bseTick`, `bseScraperParse` -- the tick.
-/
import BharatTicker.Bhavcopy.Quote

namespace BharatTicker

open Basis

/-! ## 1. Payloads -/

/-- What `resp.json()` returns. -/
inductive PyJson where
  | null
  | bool (b : Bool)
  | int (n : ℤ)
  | float (repr : DecimalValue)
  | str (s : String)
  | arr (items : List PyJson)
  | obj (entries : List (String × PyJson))

namespace PyJson

/-- `bool(x)`. -/
def truthy : PyJson → Bool
  | .null => false
  | .bool b => b
  | .int n => n ≠ 0
  | .float d => d.truthy
  | .str s => s ≠ ""
  | .arr items => !items.isEmpty
  | .obj entries => !entries.isEmpty

/-- `x or y`. -/
def jsonOr (x y : PyJson) : PyJson := if x.truthy then x else y

end PyJson

/-- `_dec`. -/
def jsonDec : PyJson → DecimalValue
  | .int n => .finite n
  | .float d => d
  | .str s => dec (some s)
  -- `Decimal` raises on the texts of these
  | .null | .bool _ | .arr _ | .obj _ => .finite 0

/-! ## 2. The tick -/

/-- The arguments of `TickData(...)` that the scraper passes with a value. -/
structure ScrapedTickArgs extends TickArgs where
  week52High : Option DecimalValue
  week52Low : Option DecimalValue
  deriving DecidableEq, Repr

/-- The errors of all fields, in their order. -/
def ScrapedTickArgs.allErrors (a : ScrapedTickArgs) : List FieldError :=
  a.errors ++ optionalErrors "week_52_high" a.week52High ++ optionalErrors "week_52_low" a.week52Low

/-- A `TickData`. -/
structure ScrapedTick where
  args : ScrapedTickArgs
  valid : args.allErrors = []

/-- What ends `_parse` without a tick, inside of its `try`. -/
inductive BseFailure where
  /-- `.get` of a value that is no dictionary. -/
  | attributeError
  /-- `ValueError("empty BSE payload")`. -/
  | emptyPayload
  /-- The ISIN is no text. -/
  | isinType
  | quote (e : QuoteException)
  deriving DecidableEq, Repr

/-- `ProviderSchemaError`: its text is `Failed to parse BSE response for`, the symbol and the cause. -/
structure ProviderSchemaError where
  symbol : String
  cause : BseFailure
  deriving DecidableEq, Repr

/-! ## 3. The fields -/

structure BseFields where
  ltp : DecimalValue
  prevClose : DecimalValue
  opening : DecimalValue
  high : DecimalValue
  low : DecimalValue
  change : DecimalValue
  pct : DecimalValue
  volume : ℤ
  wkHigh : DecimalValue
  wkLow : DecimalValue
  isin : PyJson

/-- A value whose `.get` is called. -/
def asDict : PyJson → Except BseFailure (List (String × PyJson))
  | .obj entries => .ok entries
  | _ => .error .attributeError

/-- `x or {}`. -/
def orEmpty (x : PyJson) : Except BseFailure (List (String × PyJson)) :=
  if x.truthy then asDict x else .ok []

/-- `d.get(key)`. -/
def jsonGet (d : List (String × PyJson)) (key : String) : PyJson := (d.lookup key).getD .null

/-- `header.get("ISIN") or None`. -/
def isinOf (x : PyJson) : Except BseFailure (Option String) :=
  if x.truthy then
    match x with
    | .str s => .ok (some s)
    | _ => .error .isinType
  else .ok none

/-- The first lines of `_parse`. -/
def bseFields (data : PyJson) : Except BseFailure BseFields := do
  let entries ← asDict data
  let header ← orEmpty ((entries.lookup "Header").getD data)
  let curr ← orEmpty ((header.lookup "CurrRate").getD (.obj []))
  let volume ← (int (jsonDec
    ((jsonGet header "Volume").jsonOr (jsonGet header "TotalTradedQty")))).mapError .quote
  return {
    ltp := jsonDec
      (((jsonGet curr "LTP").jsonOr (jsonGet header "LTP")).jsonOr (jsonGet curr "Ltp"))
    prevClose := jsonDec ((jsonGet header "PrevClose").jsonOr (jsonGet header "Prevclose"))
    opening := jsonDec (jsonGet header "Open")
    high := jsonDec (jsonGet header "High")
    low := jsonDec (jsonGet header "Low")
    change := jsonDec ((jsonGet curr "Chg").jsonOr (jsonGet header "Change"))
    pct := jsonDec ((jsonGet curr "PcChg").jsonOr (jsonGet header "PChange"))
    volume := volume
    wkHigh := jsonDec ((jsonGet header "Week52High").jsonOr (jsonGet header "WeekHigh"))
    wkLow := jsonDec ((jsonGet header "Week52Low").jsonOr (jsonGet header "WeekLow"))
    isin := jsonGet header "ISIN" }

/-! ## 4. The quote -/

section Model

variable (upper : String → String)

/-- `TickData(...)`. -/
def scrapedTickData (args : ScrapedTickArgs) : Except BseFailure ScrapedTick :=
  let a := { args with symbol := normalizeSymbol upper args.symbol }
  if h : a.allErrors = [] then .ok ⟨a, h⟩ else .error (.quote (.validationError a.allErrors))

/-- `d == 0`. -/
def isZero (d : DecimalValue) : Except DecimalSignal Bool :=
  if d = .signalingNan then .error .invalidOperation else .ok (d = .finite 0)

/-- `ltp <= 0 and prev_close <= 0`. -/
def noPrice (f : BseFields) : Except DecimalSignal Bool := do
  let pos ← f.ltp.isPos
  if pos then return false
  else
    let prevPos ← f.prevClose.isPos
    return !prevPos

/-- The change of the feed, or where that is zero the one from the previous close. -/
def bseChange (f : BseFields) : Except QuoteException DecimalValue := do
  let zero ← signal (isZero f.change)
  if zero then changeOf f.ltp f.prevClose else return f.change

/-- The same in percent. -/
def bsePct (f : BseFields) (change : DecimalValue) : Except QuoteException DecimalValue := do
  let zero ← signal (isZero f.pct)
  if zero then pctOf change f.prevClose else return f.pct

/-- The arguments of the tick, the ISIN aside. -/
def bseArgs (f : BseFields) (symbol : String) : Except QuoteException ScrapedTickArgs := do
  let change ← bseChange f
  let pct ← bsePct f change
  let ltp ← ifPos f.ltp f.prevClose
  let openP ← ifPos f.opening ltp
  let high ← ifPos f.high ltp
  let low ← ifPos f.low ltp
  let week52High ← noneUnlessPos f.wkHigh
  let week52Low ← noneUnlessPos f.wkLow
  return {
    symbol := symbol
    isin := none
    exchange := .BSE
    series := "EQ"
    ltp := ltp
    opening := openP
    high := high
    low := low
    close := f.prevClose
    change := change
    pctChange := pct
    volume := f.volume
    value := none
    vwap := none
    source := "bse_scraper"
    week52High := week52High
    week52Low := week52Low }

/-- The rest of `_parse`. -/
def bseTick (f : BseFields) (symbol : String) : Except BseFailure ScrapedTick := do
  let empty ← (signal (noPrice f)).mapError .quote
  if empty then .error .emptyPayload
  else
    let args ← (bseArgs f symbol).mapError .quote
    let isin ← isinOf f.isin
    scrapedTickData upper { args with isin := isin }

/-- `BSEScraper._parse`. -/
def bseScraperParse (data : PyJson) (symbol : String) : Except ProviderSchemaError ScrapedTick :=
  (bseFields data >>= fun f => bseTick upper f symbol).mapError fun cause => ⟨symbol, cause⟩

end Model

end BharatTicker
