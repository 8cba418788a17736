/-
  File:      BharatTicker/Bhavcopy/Quote.lean
  Subject:   END-OF-DAY QUOTES (`providers/bse_archive.py`, `providers/nse_archive.py`: `fetch_quote`,
             `_parse`, `_dec`; `models/tick.py`: `TickData`).

  A quote is made from the row of a symbol in the loaded file; the cells are any texts. Whatever is
  raised on the way is a value of `QuoteException`. `str.upper` is a parameter: its table is that of
  Unicode. The counters of a provider, and the latency of a quote, are not kept.

  * `TickArgs`, `tickData`, `ValidTick` -- the model of a tick and its validation;
  * `dec` -- a cell as a number;
  * `bseParse`, `nseParse` -- a row as a tick;
  * `bseFetchQuote`, `nseFetchQuote` -- the quotes.
-/
import BharatTicker.Basis.DecimalContext
import BharatTicker.Bhavcopy

namespace BharatTicker

open Basis

/-! ## 1. The validated tick -/

/-- A field that does not validate, and how. -/
structure FieldError where
  field : String
  type : String
  deriving DecidableEq, Repr

/-- What ends a call of `fetch_quote` without a tick. -/
inductive QuoteException where
  | providerError (e : ProviderError)
  | decimalSignal (s : DecimalSignal)
  | intError (e : DecimalValue.IntError)
  | validationError (errors : List FieldError)
  deriving DecidableEq, Repr

/-- The arguments of `TickData(...)` that the archives pass with a value. -/
structure TickArgs where
  symbol : String
  isin : Option String
  exchange : Exchange
  series : String
  ltp : DecimalValue
  opening : DecimalValue
  high : DecimalValue
  low : DecimalValue
  close : DecimalValue
  change : DecimalValue
  pctChange : DecimalValue
  volume : ℤ
  value : Option DecimalValue
  vwap : Option DecimalValue
  source : String
  deriving DecidableEq, Repr

/-- `^INE[A-Z0-9]{9}$`. -/
def isIsin (s : String) : Bool :=
  s.length = 12 && "INE".toList.isPrefixOf s.toList &&
    (s.toList.drop 3).all fun c => c.isUpper || c.isDigit

/-- A `Decimal` that is finite, and at least 0 where `ge=0` says so. -/
def decimalErrors (field : String) (ge : Bool) : DecimalValue → List FieldError
  | .finite q => if ge ∧ q < 0 then [⟨field, "greater_than_equal"⟩] else []
  | _ => [⟨field, "finite_number"⟩]

/-- The same, where `None` is allowed. -/
def optionalErrors (field : String) : Option DecimalValue → List FieldError
  | some d => decimalErrors field true d
  | none => []

namespace TickArgs

/-- `min_length=1, max_length=30`. -/
def symbolErrors (a : TickArgs) : List FieldError :=
  if a.symbol.length < 1 then [⟨"symbol", "string_too_short"⟩]
  else if 30 < a.symbol.length then [⟨"symbol", "string_too_long"⟩]
  else []

def isinErrors (a : TickArgs) : List FieldError :=
  match a.isin with
  | some s => if isIsin s then [] else [⟨"isin", "string_pattern_mismatch"⟩]
  | none => []

def volumeErrors (a : TickArgs) : List FieldError :=
  if a.volume < 0 then [⟨"volume", "greater_than_equal"⟩] else []

/-- The errors of all fields, in their order. -/
def errors (a : TickArgs) : List FieldError :=
  a.symbolErrors ++ a.isinErrors ++ decimalErrors "ltp" true a.ltp ++
    decimalErrors "open" true a.opening ++ decimalErrors "high" true a.high ++
    decimalErrors "low" true a.low ++ decimalErrors "close" true a.close ++
    decimalErrors "change" false a.change ++ decimalErrors "pct_change" false a.pctChange ++
    a.volumeErrors ++ optionalErrors "value" a.value ++ optionalErrors "vwap" a.vwap

end TickArgs

/-- A `TickData`. -/
structure ValidTick where
  args : TickArgs
  valid : args.errors = []

section Model

variable (upper : String → String)

/-- `normalize_symbol`. -/
def normalizeSymbol (v : String) : String := upper (String.ofList (stripSpaces v.toList))

/-- `TickData(...)`. -/
def tickData (args : TickArgs) : Except QuoteException ValidTick :=
  let a := { args with symbol := normalizeSymbol upper args.symbol }
  if h : a.errors = [] then .ok ⟨a, h⟩ else .error (.validationError a.errors)

/-! ## 2. Numbers -/

/-- The context of every thread: `prec=28, Emin=-999999, Emax=999999`. -/
def defaultContext : DecimalContext where
  prec := 28
  eMin := -999999
  eMax := 999999

/-- `_dec`. -/
def dec : Option String → DecimalValue
  | none => .finite 0
  | some value =>
    let s := String.ofList (stripSpaces (value.toList.filter (· ≠ ',')))
    if s = "" ∨ s = "-" then .finite 0 else (DecimalValue.parse s).getD (.finite 0)

/-- `self._dec(row.get(column))`. -/
def cell (row : BhavRow) (column : String) : DecimalValue := dec (Dict.get? row column)

/-- An operation of the context. -/
def signal {α : Type} (x : Except DecimalSignal α) : Except QuoteException α :=
  x.mapError .decimalSignal

/-- `int(d)`. -/
def int (d : DecimalValue) : Except QuoteException ℤ := d.toInt.mapError .intError

/-- `d if d > 0 else other`. -/
def ifPos (d other : DecimalValue) : Except QuoteException DecimalValue := do
  let pos ← signal d.isPos
  return if pos then d else other

/-- `(price - prev) if prev > 0 else Decimal("0")`. -/
def changeOf (price prev : DecimalValue) : Except QuoteException DecimalValue := do
  let pos ← signal prev.isPos
  if pos then signal (defaultContext.sub price prev) else return .finite 0

/-- `(change / prev * 100).quantize(Decimal("0.01")) if prev > 0 else Decimal("0")`. -/
def pctOf (change prev : DecimalValue) : Except QuoteException DecimalValue := do
  let pos ← signal prev.isPos
  if pos then
    let ratio ← signal (defaultContext.div change prev)
    let percent ← signal (defaultContext.mul ratio (.finite 100))
    signal (defaultContext.quantize 2 percent)
  else return .finite 0

/-- `turnover_lacs * Decimal("100000") if turnover_lacs > 0 else None`. -/
def valueOf (turnoverLacs : DecimalValue) : Except QuoteException (Option DecimalValue) := do
  let pos ← signal turnoverLacs.isPos
  if pos then
    let value ← signal (defaultContext.mul turnoverLacs (.finite 100000))
    return some value
  else return none

/-- `d if d > 0 else None`. -/
def noneUnlessPos (d : DecimalValue) : Except QuoteException (Option DecimalValue) := do
  let pos ← signal d.isPos
  return if pos then some d else none

/-- `s or None`. -/
def orNoText (s : Option String) : Option String := s.filter (· ≠ "")

/-! ## 3. Rows -/

/-- `BSEArchiveProvider._parse`. -/
def bseParse (row : BhavRow) (symbol : String) : Except QuoteException ValidTick := do
  let close := cell row "ClsPric"
  let last := if (cell row "LastPric").truthy then cell row "LastPric" else close
  let prev := cell row "PrvsClsgPric"
  let openP := cell row "OpnPric"
  let high := cell row "HghPric"
  let low := cell row "LwPric"
  let vol ← int (cell row "TtlTradgVol")
  let value := if (cell row "TtlTrfVal").truthy then some (cell row "TtlTrfVal") else none
  let ltp ← ifPos close last
  let change ← changeOf ltp prev
  let pct ← pctOf change prev
  let openP ← ifPos openP ltp
  let high ← ifPos high ltp
  let low ← ifPos low ltp
  tickData upper
    { symbol := upper symbol
      isin := orNoText (Dict.get? row "ISIN")
      exchange := .BSE
      series := (orNoText (Dict.get? row "SctySrs")).getD "A"
      ltp := ltp
      opening := openP
      high := high
      low := low
      close := prev
      change := change
      pctChange := pct
      volume := vol
      value := value
      vwap := none
      source := "bse_archive" }

/-- `NSEArchiveProvider._parse`. -/
def nseParse (row : BhavRow) (symbol : String) : Except QuoteException ValidTick := do
  let close := cell row "CLOSE_PRICE"
  let last := if (cell row "LAST_PRICE").truthy then cell row "LAST_PRICE" else close
  let prev := cell row "PREV_CLOSE"
  let openP := cell row "OPEN_PRICE"
  let high := cell row "HIGH_PRICE"
  let low := cell row "LOW_PRICE"
  let vwap := cell row "AVG_PRICE"
  let vol ← int (cell row "TTL_TRD_QNTY")
  let turnoverLacs := cell row "TURNOVER_LACS"
  let value ← valueOf turnoverLacs
  let change ← changeOf close prev
  let pct ← pctOf change prev
  let ltp ← ifPos close last
  let openP ← ifPos openP ltp
  let high ← ifPos high ltp
  let low ← ifPos low ltp
  let vwap ← noneUnlessPos vwap
  tickData upper
    { symbol := upper symbol
      isin := none
      exchange := .NSE
      series := (orNoText (Dict.get? row "SERIES")).getD "EQ"
      ltp := ltp
      opening := openP
      high := high
      low := low
      close := prev
      change := change
      pctChange := pct
      volume := vol
      value := value
      vwap := vwap
      source := "nse_archive" }

/-! ## 4. Quotes -/

/-- `rows.get(symbol.upper())`, where the row is not empty. -/
def rowFor (rows : BhavRows) (symbol : String) : Option BhavRow :=
  (Dict.get? rows (upper symbol)).filter (· ≠ [])

/-- `BSEArchiveProvider.fetch_quote`, the file being loaded. -/
def bseFetchQuote (rows : BhavRows) (symbol : String) : Except QuoteException ValidTick :=
  match rowFor upper rows symbol with
  | none => .error (.providerError ⟨"bse_archive", symbol ++ " not in BSE bhavcopy"⟩)
  | some row => bseParse upper row symbol

/-- `NSEArchiveProvider.fetch_quote`, the file being loaded. -/
def nseFetchQuote (rows : BhavRows) (symbol : String) : Except QuoteException ValidTick :=
  match rowFor upper rows symbol with
  | none => .error (.providerError ⟨"nse_archive", symbol ++ " not in NSE bhavcopy"⟩)
  | some row => nseParse upper row symbol

end Model

end BharatTicker
