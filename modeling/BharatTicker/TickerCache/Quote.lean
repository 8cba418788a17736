/-
  File:      BharatTicker/TickerCache/Quote.lean
  Subject:   A QUOTE FROM A TICK, AND FROM ITS HASH (`api/endpoints/quotes.py`:
             `_build_quote_from_tick`, `_build_quote_from_cache`).

  The hash writes an optional decimal as `""` when it is false, that is absent or zero, and the
  reader takes `""` for absent; likewise the series. Every other field comes back as it was.

  * `FullQuoteData` -- the blocks of a quote, with the fields that the two functions fill in;
  * `buildQuoteFromTick`, `buildQuoteFromCache` -- the functions;
  * `cached_eq_direct_iff` -- when they agree on a tick.
-/
import BharatTicker.TickerCache

namespace BharatTicker

open Basis

/-! ## 1. Quotes -/

structure QuoteInfo where
  symbol : String
  isin : Option String
  exchange : Exchange
  series : Option String
  deriving DecidableEq, Repr

structure QuotePrice where
  ltp : Decimal
  opening : Decimal
  high : Decimal
  low : Decimal
  close : Decimal
  change : Decimal
  pctChange : Decimal
  vwap : Option Decimal
  upperCircuit : Option Decimal
  lowerCircuit : Option Decimal
  week52High : Option Decimal
  week52Low : Option Decimal
  deriving DecidableEq, Repr

structure QuoteVolume where
  totalTradedVolume : Int
  totalTradedValue : Option Decimal
  deriving DecidableEq, Repr

structure FullQuoteData where
  info : QuoteInfo
  price : QuotePrice
  volume : QuoteVolume
  deriving DecidableEq, Repr

namespace TickerCache

/-- `_build_quote_from_tick`. -/
def buildQuoteFromTick (tick : FullTick) : FullQuoteData where
  info :=
    { symbol := tick.symbol, isin := tick.isin, exchange := tick.exchange, series := tick.series }
  price :=
    { ltp := tick.ltp, opening := tick.opening, high := tick.high, low := tick.low
      close := tick.close, change := tick.change, pctChange := tick.pctChange
      vwap := tick.vwap, upperCircuit := tick.upperCircuit, lowerCircuit := tick.lowerCircuit
      week52High := tick.week52High, week52Low := tick.week52Low }
  volume := { totalTradedVolume := tick.volume, totalTradedValue := tick.value }

/-- `data.get(key) or None`. -/
def textOrNone (data : Hash) (key : String) : Option String :=
  (Dict.get? data key).filter (· ≠ "")

/-- `Decimal(data.get(key, "0"))`; `none` where it raises. -/
def requiredDecimal (data : Hash) (key : String) : Option Decimal :=
  Decimal.parse ((Dict.get? data key).getD "0")

/-- `Decimal(data[key]) if data.get(key) else None`; the outer `none` where it raises. -/
def optionalDecimal (data : Hash) (key : String) : Option (Option Decimal) :=
  match textOrNone data key with
  | some s => (Decimal.parse s).map some
  | none => some none

/-- The `Literal["NSE", "BSE"]` of the model. -/
def exchangeOf (s : String) : Option Exchange :=
  if s = "NSE" then some .NSE else if s = "BSE" then some .BSE else none

/-- `_build_quote_from_cache`; `none` where it raises. -/
def buildQuoteFromCache (data : Hash) : Option FullQuoteData := do
  let exchange ← exchangeOf ((Dict.get? data "exchange").getD "NSE")
  let ltp ← requiredDecimal data "ltp"
  let opening ← requiredDecimal data "open"
  let high ← requiredDecimal data "high"
  let low ← requiredDecimal data "low"
  let close ← requiredDecimal data "close"
  let change ← requiredDecimal data "change"
  let pctChange ← requiredDecimal data "pct_change"
  let vwap ← optionalDecimal data "vwap"
  let upperCircuit ← optionalDecimal data "upper_circuit"
  let lowerCircuit ← optionalDecimal data "lower_circuit"
  let week52High ← optionalDecimal data "week_52_high"
  let week52Low ← optionalDecimal data "week_52_low"
  let volume ← parseInt ((Dict.get? data "volume").getD "0")
  let value ← optionalDecimal data "value"
  return {
    info :=
      { symbol := (Dict.get? data "symbol").getD "", isin := textOrNone data "isin"
        exchange := exchange, series := textOrNone data "series" }
    price :=
      { ltp := ltp, opening := opening, high := high, low := low, close := close, change := change
        pctChange := pctChange, vwap := vwap, upperCircuit := upperCircuit
        lowerCircuit := lowerCircuit, week52High := week52High, week52Low := week52Low }
    volume := { totalTradedVolume := volume, totalTradedValue := value } }

/-! ## 2. What comes back of a field -/

/-- A decimal that is true (`if d`): present and not zero. -/
def whenTrue (d : Option Decimal) : Option Decimal := d.filter fun d => !d.isZero

theorem str_ne_empty (d : Decimal) : d.str ≠ "" := by
  intro h
  have hparse := Decimal.parse_str d
  rw [h] at hparse
  have hempty : Decimal.parse "" = none := by decide
  rw [hempty] at hparse
  cases hparse

/-- **An optional decimal comes back if it is not zero, and else as absent.** -/
theorem optionalDecimal_optionalStr {data : Hash} {key : String} {d : Option Decimal}
    (h : Dict.get? data key = some (optionalStr d)) :
    optionalDecimal data key = some (whenTrue d) := by
  have habsent : optionalStr d = "" → optionalDecimal data key = some none := by
    intro he
    have hnone : textOrNone data key = none := by simp [textOrNone, h, he]
    unfold optionalDecimal
    rw [hnone]
  cases d with
  | none => exact habsent rfl
  | some d =>
    cases hz : d.isZero with
    | true =>
      have he : optionalStr (some d) = "" := by simp [optionalStr, hz]
      rw [habsent he, whenTrue, Option.filter_some, hz]
      rfl
    | false =>
      have he : optionalStr (some d) = d.str := by simp [optionalStr, hz]
      have hsome : textOrNone data key = some d.str := by
        simp [textOrNone, h, he, str_ne_empty d]
      have hread : optionalDecimal data key = (Decimal.parse d.str).map some := by
        unfold optionalDecimal
        rw [hsome]
      rw [hread, whenTrue, Option.filter_some, hz, Decimal.parse_str]
      rfl

theorem requiredDecimal_str {data : Hash} {key : String} {d : Decimal}
    (h : Dict.get? data key = some d.str) : requiredDecimal data key = some d := by
  unfold requiredDecimal
  rw [h]
  exact Decimal.parse_str d

theorem exchangeOf_str (e : Exchange) : exchangeOf e.str = some e := by
  cases e <;> rfl

/-- `s or ""`, read with `or None`. -/
theorem textOrNone_getD {data : Hash} {key : String} {s : Option String}
    (h : Dict.get? data key = some (s.getD "")) : textOrNone data key = s.filter (· ≠ "") := by
  unfold textOrNone
  rw [h]
  cases s with
  | none => rfl
  | some s => rfl

/-- An ISIN that matches its pattern is not empty. -/
theorem isin_filter (tick : FullTick) : tick.isin.filter (· ≠ "") = tick.isin := by
  cases h : tick.isin with
  | none => rfl
  | some s =>
    have hne : s ≠ "" := by
      intro e
      have hp := tick.isin_pattern s h
      rw [e] at hp
      revert hp
      decide
    simp [hne]

/-- The quote that is read back: optional decimals that are zero, and a series that is empty, are
    absent. -/
def readBack (tick : FullTick) : FullQuoteData where
  info :=
    { symbol := tick.symbol, isin := tick.isin, exchange := tick.exchange
      series := tick.series.filter (· ≠ "") }
  price :=
    { ltp := tick.ltp, opening := tick.opening, high := tick.high, low := tick.low
      close := tick.close, change := tick.change, pctChange := tick.pctChange
      vwap := whenTrue tick.vwap, upperCircuit := whenTrue tick.upperCircuit
      lowerCircuit := whenTrue tick.lowerCircuit, week52High := whenTrue tick.week52High
      week52Low := whenTrue tick.week52Low }
  volume := { totalTradedVolume := tick.volume, totalTradedValue := whenTrue tick.value }

/-- **What is read back of the hash of a tick.** -/
theorem buildQuoteFromCache_tickToHash (tick : FullTick) (cachedAt : String) :
    buildQuoteFromCache (tickToHash tick cachedAt) = some (readBack tick) := by
  generalize hdata : tickToHash tick cachedAt = data
  have hget : ∀ key s, Dict.get? (tickToHash tick cachedAt) key = some s →
      Dict.get? data key = some s := fun key s h => hdata ▸ h
  have hsymbol : Dict.get? data "symbol" = some tick.symbol := hget _ _ rfl
  have hexchange : Dict.get? data "exchange" = some tick.exchange.str := hget _ _ rfl
  have hvolume : Dict.get? data "volume" = some (toString tick.volume) := hget _ _ rfl
  have hisin : textOrNone data "isin" = tick.isin :=
    (textOrNone_getD (hget _ _ rfl)).trans (isin_filter tick)
  have hseries : textOrNone data "series" = tick.series.filter (· ≠ "") :=
    textOrNone_getD (hget _ _ rfl)
  -- the prices
  have hltp : requiredDecimal data "ltp" = some tick.ltp := requiredDecimal_str (hget _ _ rfl)
  have hopen : requiredDecimal data "open" = some tick.opening :=
    requiredDecimal_str (hget _ _ rfl)
  have hhigh : requiredDecimal data "high" = some tick.high := requiredDecimal_str (hget _ _ rfl)
  have hlow : requiredDecimal data "low" = some tick.low := requiredDecimal_str (hget _ _ rfl)
  have hclose : requiredDecimal data "close" = some tick.close :=
    requiredDecimal_str (hget _ _ rfl)
  have hchange : requiredDecimal data "change" = some tick.change :=
    requiredDecimal_str (hget _ _ rfl)
  have hpct : requiredDecimal data "pct_change" = some tick.pctChange :=
    requiredDecimal_str (hget _ _ rfl)
  -- the optional decimals
  have hvwap : optionalDecimal data "vwap" = some (whenTrue tick.vwap) :=
    optionalDecimal_optionalStr (hget _ _ rfl)
  have hupper : optionalDecimal data "upper_circuit" = some (whenTrue tick.upperCircuit) :=
    optionalDecimal_optionalStr (hget _ _ rfl)
  have hlower : optionalDecimal data "lower_circuit" = some (whenTrue tick.lowerCircuit) :=
    optionalDecimal_optionalStr (hget _ _ rfl)
  have hhigh52 : optionalDecimal data "week_52_high" = some (whenTrue tick.week52High) :=
    optionalDecimal_optionalStr (hget _ _ rfl)
  have hlow52 : optionalDecimal data "week_52_low" = some (whenTrue tick.week52Low) :=
    optionalDecimal_optionalStr (hget _ _ rfl)
  have hvalue : optionalDecimal data "value" = some (whenTrue tick.value) :=
    optionalDecimal_optionalStr (hget _ _ rfl)
  have hint : parseInt (toString tick.volume) = some (tick.volume : Int) :=
    parseInt_toString (tick.volume : Int)
  simp only [buildQuoteFromCache, hsymbol, hexchange, hvolume, hisin, hseries, hltp, hopen, hhigh,
    hlow, hclose, hchange, hpct, hvwap, hupper, hlower, hhigh52, hlow52, hvalue, Option.getD_some,
    exchangeOf_str, hint, Option.bind_eq_bind, Option.bind_some, Option.pure_def, readBack]

/-! ## 3. Agreement -/

/-- The decimals that a tick may lack. -/
def optionalDecimals (tick : FullTick) : List (Option Decimal) :=
  [tick.value, tick.vwap, tick.upperCircuit, tick.lowerCircuit, tick.week52High, tick.week52Low]

theorem whenTrue_eq_iff (d : Option Decimal) : whenTrue d = d ↔ ∀ x, d = some x → x.isZero = false := by
  cases d with
  | none => exact iff_of_true rfl fun x h => by cases h
  | some d =>
    rw [whenTrue, Option.filter_some]
    cases hz : d.isZero with
    | true => simp [hz]
    | false => simp [hz]

theorem filter_ne_empty_iff (s : Option String) : s.filter (· ≠ "") = s ↔ s ≠ some "" := by
  cases s with
  | none => simp
  | some s =>
    rw [Option.filter_some]
    by_cases hs : s = ""
    · simp [hs]
    · simp [hs]

/-- **The cached quote is the direct quote exactly when no optional decimal of the tick is zero and
    its series is not the empty text.** -/
theorem cached_eq_direct_iff (tick : FullTick) (cachedAt : String) :
    buildQuoteFromCache (tickToHash tick cachedAt) = some (buildQuoteFromTick tick) ↔
      (∀ d, some d ∈ optionalDecimals tick → d.isZero = false) ∧ tick.series ≠ some "" := by
  rw [buildQuoteFromCache_tickToHash, Option.some.injEq]
  have hfields : readBack tick = buildQuoteFromTick tick ↔
      (∀ d ∈ optionalDecimals tick, whenTrue d = d) ∧ tick.series.filter (· ≠ "") = tick.series := by
    simp only [readBack, buildQuoteFromTick, FullQuoteData.mk.injEq, QuoteInfo.mk.injEq,
      QuotePrice.mk.injEq, QuoteVolume.mk.injEq, optionalDecimals, List.forall_mem_cons, true_and]
    tauto
  rw [hfields, filter_ne_empty_iff]
  refine and_congr_left fun _ => ?_
  constructor
  · exact fun h d hd => (whenTrue_eq_iff (some d)).mp (h (some d) hd) d rfl
  · exact fun h d hd => (whenTrue_eq_iff d).mpr fun x hx => h x (hx ▸ hd)

theorem reliance_length : 1 ≤ "RELIANCE".length ∧ "RELIANCE".length ≤ 30 := by decide

/-- A tick before the first trade of the day, its VWAP given as `0`. -/
def zeroVwapTick : FullTick where
  symbol := "RELIANCE"
  exchange := .NSE
  series := some "EQ"
  ltp := ⟨false, 2930, 0⟩
  opening := ⟨false, 0, 0⟩
  high := ⟨false, 0, 0⟩
  low := ⟨false, 0, 0⟩
  close := ⟨false, 29205, -1⟩
  vwap := some ⟨false, 0, 0⟩
  timestamp := "2026-01-05T09:00:00+05:30"
  source := "nse_scraper"
  symbol_length := reliance_length
  isin_pattern := no_isin
  options_nonNegative := by
    intro d hd
    simp only [List.mem_cons, reduceCtorEq, Option.some.injEq, List.not_mem_nil, false_or,
      or_false] at hd
    subst hd
    rfl

/-- Its direct quote has the VWAP `0`, the cached one has none. -/
theorem zero_vwap_lost :
    buildQuoteFromCache (tickToHash zeroVwapTick "1.0") ≠ some (buildQuoteFromTick zeroVwapTick) ∧
    (buildQuoteFromCache (tickToHash zeroVwapTick "1.0")).map (·.price.vwap) = some none ∧
    (buildQuoteFromTick zeroVwapTick).price.vwap = some ⟨false, 0, 0⟩ := by
  rw [buildQuoteFromCache_tickToHash]
  decide

end TickerCache

end BharatTicker
