/-
  File:      BharatTicker/LiveFeeds.lean
  Subject:   THE TICKS OF THE LIVE FEEDS (`providers/groww.py`, `providers/nse_live.py`: `_parse`,
             `_dec`; `models/tick.py`: `TickData`).

  Groww, and Moneycontrol for each exchange, answer with a flat dictionary of any values. The tick has
  every figure that a feed passes on; its time and latency are not kept.

  * `FeedTickArgs`, `FeedQuote`, `liveTickData` -- a tick with its circuit limits and quantities;
  * `feedDec`, `orPrice`, `orNothing`, `qtyWhen` -- how a figure is read;
  * `growwParse`, `nseLiveParse` -- the ticks;
  * `GrowwQuotable`, `NseLiveQuotable`, `growwParse_ok_iff`, `nseLiveParse_ok_iff` -- what is a tick;
  * `FeedTick`, `live_feed_ticks` -- and what such a tick is: no price of it is zero.
-/
import BharatTicker.BseScraper
import BharatTicker.DerivedChange

namespace BharatTicker

open Basis

/-! ## 1. The tick -/

/-- The arguments of `TickData(...)` that the live feeds pass with a value. -/
structure FeedTickArgs extends ScrapedTickArgs where
  upperCircuit : Option DecimalValue
  lowerCircuit : Option DecimalValue
  totalBuyQty : Option ℤ
  totalSellQty : Option ℤ
  openInterest : Option ℤ
  deriving DecidableEq, Repr

/-- A quantity that is at least 0, where it is not `None`. -/
def qtyErrors (field : String) (qty : Option ℤ) : List FieldError :=
  if qty.any (· < 0) then [⟨field, "greater_than_equal"⟩] else []

/-- The errors of all fields, in their order. -/
def FeedTickArgs.feedErrors (a : FeedTickArgs) : List FieldError :=
  a.errors ++ optionalErrors "upper_circuit" a.upperCircuit ++
    optionalErrors "lower_circuit" a.lowerCircuit ++ qtyErrors "total_buy_qty" a.totalBuyQty ++
    qtyErrors "total_sell_qty" a.totalSellQty ++ qtyErrors "open_interest" a.openInterest ++
    optionalErrors "week_52_high" a.week52High ++ optionalErrors "week_52_low" a.week52Low

/-- A `TickData`. -/
structure FeedQuote where
  args : FeedTickArgs
  valid : args.feedErrors = []

/-- What ends `_parse` without a tick. -/
inductive FeedFailure where
  /-- `ProviderError(name, "empty Groww payload")`, `ProviderError(name, "empty MC payload")`. -/
  | emptyPayload
  | quote (e : QuoteException)
  deriving DecidableEq, Repr

section Model

variable (upper : String → String)

/-- `TickData(...)`. -/
def liveTickData (args : FeedTickArgs) : Except FeedFailure FeedQuote :=
  let a := { args with symbol := normalizeSymbol upper args.symbol }
  if h : a.feedErrors = [] then .ok ⟨a, h⟩ else .error (.quote (.validationError a.feedErrors))

/-! ## 2. Figures -/

/-- `_dec`, with the texts that stand for nothing. -/
def feedDec (blanks : List String) : PyJson → DecimalValue
  | .int n => .finite n
  | .float d => d
  | .str s =>
    let s := String.ofList (stripSpaces (s.toList.filter (· ≠ ',')))
    if s = "" ∨ s ∈ blanks then .finite 0 else (DecimalValue.parse s).getD (.finite 0)
  -- `Decimal` raises on the texts of these
  | .null | .bool _ | .arr _ | .obj _ => .finite 0

/-- `GrowwProvider._dec`. -/
def growwDec : PyJson → DecimalValue := feedDec ["-", "NA", "None"]

/-- `NSELiveProvider._dec`. -/
def nseLiveDec : PyJson → DecimalValue := feedDec ["-", "NA"]

/-- `d or ltp`. -/
def orPrice (d ltp : DecimalValue) : DecimalValue := if d.truthy then d else ltp

/-- `d or None`. -/
def orNothing (d : DecimalValue) : Option DecimalValue := if d.truthy then some d else none

/-- `int(d) if present else None`. -/
def qtyWhen (present : Bool) (d : DecimalValue) : Except QuoteException (Option ℤ) :=
  if present then (int d).map some else .ok none

/-- `x is not None`. -/
def PyJson.isSome : PyJson → Bool
  | .null => false
  | _ => true

/-! ## 3. Groww -/

/-- The price: the last one, else the previous close. -/
def growwLtp (ltp prev : DecimalValue) : Except FeedFailure DecimalValue := do
  let pos ← (signal ltp.isPos).mapError .quote
  if pos then return ltp
  else
    let prevPos ← (signal prev.isPos).mapError .quote
    if prevPos then return prev else .error .emptyPayload

/-- `GrowwProvider._parse`. -/
def growwParse (d : List (String × PyJson)) (symbol : String) : Except FeedFailure FeedQuote := do
  let g := fun key => growwDec (jsonGet d key)
  let prev := g "close"
  let ltp ← growwLtp (g "ltp") prev
  let volume ← (int (g "volume")).mapError .quote
  let buy ← (qtyWhen (jsonGet d "totalBuyQty").isSome (g "totalBuyQty")).mapError .quote
  let sell ← (qtyWhen (jsonGet d "totalSellQty").isSome (g "totalSellQty")).mapError .quote
  let interest ← (qtyWhen (jsonGet d "openInterest").truthy (g "openInterest")).mapError .quote
  liveTickData upper
    { symbol := symbol
      isin := none
      exchange := .NSE
      series := "EQ"
      ltp := ltp
      opening := orPrice (g "open") ltp
      high := orPrice (g "high") ltp
      low := orPrice (g "low") ltp
      close := prev
      change := g "dayChange"
      pctChange := g "dayChangePerc"
      volume := volume
      value := none
      vwap := none
      source := "groww"
      week52High := orNothing (g "yearHighPrice")
      week52Low := orNothing (g "yearLowPrice")
      upperCircuit := orNothing (g "highPriceRange")
      lowerCircuit := orNothing (g "lowPriceRange")
      totalBuyQty := buy
      totalSellQty := sell
      openInterest := interest }

/-! ## 4. Moneycontrol -/

/-- `name`: the class for the BSE is a subclass. -/
def nseLiveName : Exchange → String
  | .NSE => "nse_live"
  | .BSE => "bse_live"

/-- The price: the last one only. -/
def nseLiveLtp (ltp : DecimalValue) : Except FeedFailure DecimalValue := do
  let pos ← (signal ltp.isPos).mapError .quote
  if pos then return ltp else .error .emptyPayload

/-- `NSELiveProvider._parse`, on the exchange of `_ex_code`. -/
def nseLiveParse (exCode : Exchange) (d : List (String × PyJson)) (symbol : String) :
    Except FeedFailure FeedQuote := do
  let g := fun key => nseLiveDec (jsonGet d key)
  let ltp ← nseLiveLtp (g "pricecurrent")
  let volume ← (int (g "VOL")).mapError .quote
  liveTickData upper
    { symbol := upper symbol
      isin := none
      exchange := exCode
      series := "EQ"
      ltp := ltp
      opening := orPrice (g "OPN") ltp
      high := orPrice (g "HP") ltp
      low := orPrice (g "LP") ltp
      close := g "priceprevclose"
      change := g "pricechange"
      pctChange := g "pricepercentchange"
      volume := volume
      value := none
      vwap := orNothing (g "VWAP")
      source := nseLiveName exCode
      week52High := orNothing (g "52H")
      week52Low := orNothing (g "52L")
      upperCircuit := none
      lowerCircuit := none
      totalBuyQty := none
      totalSellQty := none
      openInterest := none }

end Model

/-! ## 5. Figures that are in order -/

section Figures

variable {d other ltp prev : DecimalValue} {present : Bool} {price close : ℚ}

/-- A figure that is used for itself or replaced by the price. -/
theorem orPrice_nonNeg_iff (hother : NonNeg other) : NonNeg (orPrice d other) ↔ NonNeg d := by
  unfold orPrice
  by_cases hd : d = .finite 0
  · subst hd
    exact iff_of_true hother ⟨0, rfl, le_rfl⟩
  · have htruthy : d.truthy = true := decide_eq_true hd
    rw [if_pos htruthy]

theorem orNothing_nonNeg_iff : (∀ v, orNothing d = some v → NonNeg v) ↔ NonNeg d := by
  unfold orNothing
  by_cases hd : d = .finite 0
  · subst hd
    exact iff_of_true (fun v hv => by cases hv) ⟨0, rfl, le_rfl⟩
  · have htruthy : d.truthy = true := decide_eq_true hd
    rw [if_pos htruthy]
    exact ⟨fun h => h d rfl, fun h v hv => Option.some_inj.mp hv ▸ h⟩

/-- A quantity is one where its number is, if what is absent reads as 0. -/
theorem qtyWhen_ok_iff (habsent : present = false → d = .finite 0) :
    (∃ n, qtyWhen present d = .ok n ∧ ∀ m, n = some m → 0 ≤ m) ↔
      ∃ q, d = .finite q ∧ -1 < q := by
  rw [← int_ok_iff]
  cases present with
  | false =>
    rw [habsent rfl]
    exact iff_of_true ⟨none, rfl, fun m hm => by cases hm⟩ ⟨0, by decide, le_rfl⟩
  | true =>
    refine ⟨?_, ?_⟩
    · rintro ⟨n, hn, hnonneg⟩
      change (int d).map some = .ok n at hn
      cases hint : int d with
      | error e =>
        rw [hint] at hn
        cases hn
      | ok m =>
        rw [hint] at hn
        cases hn
        exact ⟨m, rfl, hnonneg m rfl⟩
    · rintro ⟨m, hint, hm⟩
      refine ⟨some m, ?_, fun m' e => Option.some_inj.mp e ▸ hm⟩
      change (int d).map some = .ok (some m)
      rw [hint]
      rfl

/-- What is not there reads as 0. -/
theorem feedDec_of_not_isSome {blanks : List String} {x : PyJson} (h : x.isSome = false) :
    feedDec blanks x = .finite 0 := by
  cases x with
  | null => rfl
  | bool b | int n | float d | str s | arr items | obj entries => cases h

/-- And so does what is not true. -/
theorem feedDec_of_not_truthy {blanks : List String} {x : PyJson} (h : x.truthy = false) :
    feedDec blanks x = .finite 0 := by
  cases x with
  | null | bool b | arr items | obj entries => rfl
  | int n =>
    have hn : n = 0 := by simpa [PyJson.truthy] using h
    subst hn
    rfl
  | float d =>
    have hd : d = .finite 0 := by simpa [PyJson.truthy, DecimalValue.truthy] using h
    exact hd
  | str s =>
    have hs : s = "" := by simpa [PyJson.truthy] using h
    subst hs
    rfl

/-- The price of Groww, and the previous close. -/
def GrowwPrice (ltp prev : DecimalValue) (price close : ℚ) : Prop :=
  prev = .finite close ∧ 0 ≤ close ∧ 0 < price ∧
    (ltp = .finite price ∨ NotPos ltp ∧ price = close)

theorem isPos_step {f : Bool → Except FeedFailure DecimalValue} {r : DecimalValue} :
    ((signal d.isPos).mapError FeedFailure.quote >>= f) = .ok r ↔
      ∃ pos, d.isPos = .ok pos ∧ f pos = .ok r := by
  simp only [bind_eq_ok, mapError_eq_ok, signal_eq_ok]

theorem isPos_finite_iff {q : ℚ} {pos : Bool} :
    (DecimalValue.finite q).isPos = .ok pos ↔ decide (0 < q) = pos := by
  simp [DecimalValue.isPos]

theorem isPos_false_iff : d.isPos = .ok false ↔ NotPos d := by
  rcases isPos_cases d with ⟨q, rfl, hq, h⟩ | ⟨hnot, h⟩ | ⟨rfl, h⟩ | ⟨hnan, h⟩
  · rw [h]
    refine iff_of_false (fun e => by cases e) fun hnot => hnot.not_pos ⟨q, rfl, hq⟩
  · exact iff_of_true h hnot
  · rw [h]
    exact iff_of_false (fun e => by cases e) fun hnot => hnot.ne_infinity rfl
  · rw [h]
    refine iff_of_false (fun e => by cases e) ?_
    rcases hnan with rfl | rfl <;> simp [NotPos]

/-- **The price of Groww** is the last one where that is positive, else the previous close. -/
theorem growwLtp_ok_iff (hprev : prev = .finite close) (hclose : 0 ≤ close) :
    growwLtp ltp prev = .ok (.finite price) ↔ GrowwPrice ltp prev price close := by
  subst hprev
  unfold growwLtp
  rw [isPos_step]
  refine ⟨?_, ?_⟩
  · rintro ⟨pos, hpos, h⟩
    cases pos with
    | true =>
      cases h
      have hprice : 0 < price := of_decide_eq_true (isPos_finite_iff.1 hpos)
      exact ⟨rfl, hclose, hprice, .inl rfl⟩
    | false =>
      obtain ⟨prevPos, hprevPos, h⟩ := isPos_step.1 h
      cases prevPos with
      | true =>
        cases h
        have hprice : 0 < price := of_decide_eq_true (isPos_finite_iff.1 hprevPos)
        exact ⟨rfl, hclose, hprice, .inr ⟨isPos_false_iff.1 hpos, rfl⟩⟩
      | false => cases h
  · rintro ⟨-, -, hprice, rfl | ⟨hnot, rfl⟩⟩
    · exact ⟨true, isPos_of_pos hprice, rfl⟩
    · exact ⟨false, isPos_false_iff.2 hnot, isPos_step.2 ⟨true, isPos_of_pos hprice, rfl⟩⟩

/-- **The price of Moneycontrol** is the last one. -/
theorem nseLiveLtp_ok_iff :
    nseLiveLtp ltp = .ok (.finite price) ↔ ltp = .finite price ∧ 0 < price := by
  unfold nseLiveLtp
  rw [isPos_step]
  refine ⟨?_, ?_⟩
  · rintro ⟨pos, hpos, h⟩
    cases pos with
    | true =>
      cases h
      exact ⟨rfl, of_decide_eq_true (isPos_finite_iff.1 hpos)⟩
    | false => cases h
  · rintro ⟨rfl, hprice⟩
    exact ⟨true, isPos_of_pos hprice, rfl⟩

end Figures

/-! ## 6. The validation -/

/-- What such a tick must be. -/
structure FeedTickArgs.FeedValid (a : FeedTickArgs) : Prop where
  tick : a.toTickArgs.Valid
  upperCircuit : ∀ v, a.upperCircuit = some v → NonNeg v
  lowerCircuit : ∀ v, a.lowerCircuit = some v → NonNeg v
  totalBuyQty : ∀ n, a.totalBuyQty = some n → 0 ≤ n
  totalSellQty : ∀ n, a.totalSellQty = some n → 0 ≤ n
  openInterest : ∀ n, a.openInterest = some n → 0 ≤ n
  week52High : ∀ v, a.week52High = some v → NonNeg v
  week52Low : ∀ v, a.week52Low = some v → NonNeg v

section Validation

variable {field : String} {qty : Option ℤ} {a : FeedTickArgs} {upper : String → String}

theorem qtyErrors_eq_nil : qtyErrors field qty = [] ↔ ∀ n, qty = some n → 0 ≤ n := by
  cases qty with
  | none => simp [qtyErrors]
  | some n => simp [qtyErrors]

/-- **No error, where every field is what it must be.** -/
theorem feedErrors_eq_nil_iff : a.feedErrors = [] ↔ a.FeedValid := by
  simp only [FeedTickArgs.feedErrors, List.append_eq_nil_iff, errors_eq_nil_iff, optionalErrors_eq_nil,
    qtyErrors_eq_nil]
  refine ⟨?_, ?_⟩
  · rintro ⟨⟨⟨⟨⟨⟨⟨h1, h2⟩, h3⟩, h4⟩, h5⟩, h6⟩, h7⟩, h8⟩
    exact ⟨h1, h2, h3, h4, h5, h6, h7, h8⟩
  · rintro ⟨h1, h2, h3, h4, h5, h6, h7, h8⟩
    exact ⟨⟨⟨⟨⟨⟨⟨h1, h2⟩, h3⟩, h4⟩, h5⟩, h6⟩, h7⟩, h8⟩

theorem liveTickData_ok_iff :
    (∃ t, liveTickData upper a = .ok t) ↔
      FeedTickArgs.FeedValid { a with symbol := normalizeSymbol upper a.symbol } := by
  rw [← feedErrors_eq_nil_iff]
  unfold liveTickData
  dsimp only
  split
  · rename_i h
    exact iff_of_true ⟨_, rfl⟩ h
  · rename_i h
    exact iff_of_false (by simp) h

theorem liveTickData_args {t : FeedQuote} (h : liveTickData upper a = .ok t) :
    t.args = { a with symbol := normalizeSymbol upper a.symbol } := by
  unfold liveTickData at h
  dsimp only at h
  split at h
  · cases h
    rfl
  · cases h

end Validation

/-! ## 7. The payloads that are ticks -/

section Payloads

variable (upper : String → String) (d : List (String × PyJson)) (symbol : String)

/-- **The condition for a payload of Groww.** -/
structure GrowwQuotable : Prop where
  symbol : 1 ≤ (normalizeSymbol upper symbol).length ∧ (normalizeSymbol upper symbol).length ≤ 30
  price : ∃ price close, GrowwPrice (growwDec (jsonGet d "ltp")) (growwDec (jsonGet d "close")) price close
  prices : ∀ key ∈ ["open", "high", "low", "highPriceRange", "lowPriceRange", "yearHighPrice",
    "yearLowPrice"], NonNeg (growwDec (jsonGet d key))
  changes : ∀ key ∈ ["dayChange", "dayChangePerc"], IsFinite (growwDec (jsonGet d key))
  quantities : ∀ key ∈ ["volume", "totalBuyQty", "totalSellQty", "openInterest"],
    ∃ q, growwDec (jsonGet d key) = .finite q ∧ -1 < q

/-- **The condition for a payload of Moneycontrol.** -/
structure NseLiveQuotable : Prop where
  symbol : SymbolFits upper symbol
  price : ∃ price, nseLiveDec (jsonGet d "pricecurrent") = .finite price ∧ 0 < price
  prices : ∀ key ∈ ["priceprevclose", "OPN", "HP", "LP", "VWAP", "52H", "52L"],
    NonNeg (nseLiveDec (jsonGet d key))
  changes : ∀ key ∈ ["pricechange", "pricepercentchange"], IsFinite (nseLiveDec (jsonGet d key))
  volume : ∃ q, nseLiveDec (jsonGet d "VOL") = .finite q ∧ -1 < q

variable {upper d symbol}

/-- **A payload of Groww is a tick exactly when it meets the condition.** -/
theorem growwParse_ok_iff : (∃ t, growwParse upper d symbol = .ok t) ↔ GrowwQuotable upper d symbol := by
  simp only [growwParse, exists_bind_ok, mapError_eq_ok, liveTickData_ok_iff]
  have hbuy := qtyWhen_ok_iff (d := growwDec (jsonGet d "totalBuyQty"))
    (fun h => feedDec_of_not_isSome (x := jsonGet d "totalBuyQty") h)
  have hsell := qtyWhen_ok_iff (d := growwDec (jsonGet d "totalSellQty"))
    (fun h => feedDec_of_not_isSome (x := jsonGet d "totalSellQty") h)
  have hinterest := qtyWhen_ok_iff (d := growwDec (jsonGet d "openInterest"))
    (fun h => feedDec_of_not_truthy (x := jsonGet d "openInterest") h)
  refine ⟨?_, fun h => ?_⟩
  · rintro ⟨ltp, hltp, volume, hvolume, buy, hb, sell, hs, interest, hi, hvalid⟩
    obtain ⟨price, rfl, hprice⟩ := hvalid.tick.ltp
    obtain ⟨close, hclose, hclose0⟩ := hvalid.tick.close
    have hother : NonNeg (.finite price) := ⟨price, rfl, hprice⟩
    refine ⟨hvalid.tick.symbol, ⟨price, close, (growwLtp_ok_iff hclose hclose0).mp hltp⟩, ?_, ?_, ?_⟩
    · simp only [List.forall_mem_cons, List.not_mem_nil, false_implies, implies_true, and_true]
      exact ⟨(orPrice_nonNeg_iff hother).mp hvalid.tick.opening,
        (orPrice_nonNeg_iff hother).mp hvalid.tick.high, (orPrice_nonNeg_iff hother).mp hvalid.tick.low,
        orNothing_nonNeg_iff.1 hvalid.upperCircuit, orNothing_nonNeg_iff.1 hvalid.lowerCircuit,
        orNothing_nonNeg_iff.1 hvalid.week52High, orNothing_nonNeg_iff.1 hvalid.week52Low⟩
    · simp only [List.forall_mem_cons, List.not_mem_nil, false_implies, implies_true, and_true]
      exact ⟨hvalid.tick.change, hvalid.tick.pctChange⟩
    · simp only [List.forall_mem_cons, List.not_mem_nil, false_implies, implies_true, and_true]
      exact ⟨int_ok_iff.1 ⟨volume, hvolume, hvalid.tick.volume⟩,
        hbuy.mp ⟨buy, hb, hvalid.totalBuyQty⟩, hsell.mp ⟨sell, hs, hvalid.totalSellQty⟩,
        hinterest.mp ⟨interest, hi, hvalid.openInterest⟩⟩
  · obtain ⟨hsymbol, ⟨price, close, hprice⟩, hprices, hchanges, hquantities⟩ := h
    simp only [List.forall_mem_cons, List.not_mem_nil, false_implies, implies_true, and_true]
      at hprices hchanges hquantities
    obtain ⟨hopen, hhigh, hlow, hupper, hlower, hyearHigh, hyearLow⟩ := hprices
    obtain ⟨volume, hvolume, hvolume0⟩ := int_ok_iff.2 hquantities.1
    obtain ⟨buy, hb, hb0⟩ := hbuy.mpr hquantities.2.1
    obtain ⟨sell, hs, hs0⟩ := hsell.mpr hquantities.2.2.1
    obtain ⟨interest, hi, hi0⟩ := hinterest.mpr hquantities.2.2.2
    have hother : NonNeg (.finite price) := ⟨price, rfl, hprice.2.2.1.le⟩
    exact ⟨.finite price, (growwLtp_ok_iff hprice.1 hprice.2.1).mpr hprice, volume, hvolume, buy, hb,
      sell, hs, interest, hi,
      ⟨hsymbol, fun s hs => (by cases hs), hother, (orPrice_nonNeg_iff hother).mpr hopen,
        (orPrice_nonNeg_iff hother).mpr hhigh, (orPrice_nonNeg_iff hother).mpr hlow,
        ⟨close, hprice.1, hprice.2.1⟩, hchanges.1, hchanges.2, hvolume0, fun v hv => (by cases hv),
        fun v hv => (by cases hv)⟩,
      orNothing_nonNeg_iff.2 hupper, orNothing_nonNeg_iff.2 hlower, hb0, hs0, hi0,
      orNothing_nonNeg_iff.2 hyearHigh, orNothing_nonNeg_iff.2 hyearLow⟩

/-- **A payload of Moneycontrol is a tick exactly when it meets the condition.** -/
theorem nseLiveParse_ok_iff {exCode : Exchange} :
    (∃ t, nseLiveParse upper exCode d symbol = .ok t) ↔ NseLiveQuotable upper d symbol := by
  simp only [nseLiveParse, exists_bind_ok, mapError_eq_ok, liveTickData_ok_iff]
  refine ⟨?_, fun h => ?_⟩
  · rintro ⟨ltp, hltp, volume, hvolume, hvalid⟩
    obtain ⟨price, rfl, hprice⟩ := hvalid.tick.ltp
    have hother : NonNeg (.finite price) := ⟨price, rfl, hprice⟩
    refine ⟨hvalid.tick.symbol, ⟨price, nseLiveLtp_ok_iff.1 hltp⟩, ?_, ?_,
      int_ok_iff.1 ⟨volume, hvolume, hvalid.tick.volume⟩⟩
    · simp only [List.forall_mem_cons, List.not_mem_nil, false_implies, implies_true, and_true]
      exact ⟨hvalid.tick.close, (orPrice_nonNeg_iff hother).mp hvalid.tick.opening,
        (orPrice_nonNeg_iff hother).mp hvalid.tick.high, (orPrice_nonNeg_iff hother).mp hvalid.tick.low,
        orNothing_nonNeg_iff.1 hvalid.tick.vwap, orNothing_nonNeg_iff.1 hvalid.week52High,
        orNothing_nonNeg_iff.1 hvalid.week52Low⟩
    · simp only [List.forall_mem_cons, List.not_mem_nil, false_implies, implies_true, and_true]
      exact ⟨hvalid.tick.change, hvalid.tick.pctChange⟩
  · obtain ⟨hsymbol, ⟨price, hprice⟩, hprices, hchanges, hvolume⟩ := h
    simp only [List.forall_mem_cons, List.not_mem_nil, false_implies, implies_true, and_true]
      at hprices hchanges
    obtain ⟨hclose, hopen, hhigh, hlow, hvwap, hyearHigh, hyearLow⟩ := hprices
    obtain ⟨volume, hvol, hvol0⟩ := int_ok_iff.2 hvolume
    have hother : NonNeg (.finite price) := ⟨price, rfl, hprice.2.le⟩
    exact ⟨.finite price, nseLiveLtp_ok_iff.2 hprice, volume, hvol,
      ⟨hsymbol, fun s hs => (by cases hs), hother, (orPrice_nonNeg_iff hother).mpr hopen,
        (orPrice_nonNeg_iff hother).mpr hhigh, (orPrice_nonNeg_iff hother).mpr hlow, hclose, hchanges.1,
        hchanges.2, hvol0, fun v hv => (by cases hv), orNothing_nonNeg_iff.2 hvwap⟩,
      fun v hv => (by cases hv), fun v hv => (by cases hv), fun n hn => (by cases hn),
      fun n hn => (by cases hn), fun n hn => (by cases hn), orNothing_nonNeg_iff.2 hyearHigh,
      orNothing_nonNeg_iff.2 hyearLow⟩

end Payloads

/-! ## 8. What such a tick is -/

/-- A price that is one. -/
def Priced (d : DecimalValue) : Prop := ∃ q, d = .finite q ∧ 0 < q

/-- A tick of a live feed for a symbol. -/
structure FeedTick (symbol : String) (exchange : Exchange) (source : String) (t : FeedQuote) : Prop where
  symbol : t.args.symbol = symbol
  exchange : t.args.exchange = exchange
  source : t.args.source = source
  prices : ∀ v ∈ [t.args.ltp, t.args.opening, t.args.high, t.args.low], Priced v
  ranges : ∀ o ∈ [t.args.vwap, t.args.upperCircuit, t.args.lowerCircuit, t.args.week52High,
    t.args.week52Low], ∀ v, o = some v → Priced v
  volume : 0 ≤ t.args.volume

section Ticks

variable {upper : String → String} {d : List (String × PyJson)} {symbol : String} {t : FeedQuote}
  {v other : DecimalValue}

theorem orPrice_priced (h : NonNeg (orPrice v other)) (hother : Priced other) :
    Priced (orPrice v other) := by
  unfold orPrice at h ⊢
  by_cases hv : v = .finite 0
  · subst hv
    exact hother
  · have htruthy : v.truthy = true := decide_eq_true hv
    rw [if_pos htruthy] at h ⊢
    obtain ⟨q, rfl, hq⟩ := h
    exact ⟨q, rfl, lt_of_le_of_ne hq fun e => hv (e ▸ rfl)⟩

theorem orNothing_priced (h : ∀ w, orNothing v = some w → NonNeg w) :
    ∀ w, orNothing v = some w → Priced w := by
  intro w hw
  have hnonneg := h w hw
  unfold orNothing at hw
  by_cases hv : v = .finite 0
  · subst hv
    cases hw
  · have htruthy : v.truthy = true := decide_eq_true hv
    rw [if_pos htruthy, Option.some_inj] at hw
    subst hw
    obtain ⟨q, rfl, hq⟩ := hnonneg
    exact ⟨q, rfl, lt_of_le_of_ne hq fun e => hv (e ▸ rfl)⟩

/-- **No price of a tick of Groww is zero.** -/
theorem growwParse_feedTick (h : growwParse upper d symbol = .ok t) :
    FeedTick (normalizeSymbol upper symbol) .NSE "groww" t := by
  have hvalid := feedErrors_eq_nil_iff.1 t.valid
  simp only [growwParse, bind_eq_ok, mapError_eq_ok] at h
  obtain ⟨ltp, hltp, volume, -, buy, -, sell, -, interest, -, h⟩ := h
  have hargs := liveTickData_args h
  rw [hargs] at hvalid
  obtain ⟨price, rfl, hprice0⟩ := hvalid.tick.ltp
  obtain ⟨close, hclose, hclose0⟩ := hvalid.tick.close
  have hprice : Priced (.finite price) := by
    obtain ⟨-, -, hpos, -⟩ := (growwLtp_ok_iff hclose hclose0).mp hltp
    exact ⟨price, rfl, hpos⟩
  refine ⟨by rw [hargs], by rw [hargs], by rw [hargs], ?_, ?_, by rw [hargs]; exact hvalid.tick.volume⟩
  · rw [hargs]
    simp only [List.forall_mem_cons, List.not_mem_nil, false_implies, implies_true, and_true]
    exact ⟨hprice, orPrice_priced hvalid.tick.opening hprice, orPrice_priced hvalid.tick.high hprice,
      orPrice_priced hvalid.tick.low hprice⟩
  · rw [hargs]
    simp only [List.forall_mem_cons, List.not_mem_nil, false_implies, implies_true, and_true]
    exact ⟨fun v hv => (by cases hv), orNothing_priced hvalid.upperCircuit,
      orNothing_priced hvalid.lowerCircuit,
      orNothing_priced (v := growwDec (jsonGet d "yearHighPrice")) hvalid.week52High,
      orNothing_priced (v := growwDec (jsonGet d "yearLowPrice")) hvalid.week52Low⟩

/-- **No price of a tick of Moneycontrol is zero.** -/
theorem nseLiveParse_feedTick {exCode : Exchange} (h : nseLiveParse upper exCode d symbol = .ok t) :
    FeedTick (normalizeSymbol upper (upper symbol)) exCode (nseLiveName exCode) t := by
  have hvalid := feedErrors_eq_nil_iff.1 t.valid
  simp only [nseLiveParse, bind_eq_ok, mapError_eq_ok] at h
  obtain ⟨ltp, hltp, volume, -, h⟩ := h
  have hargs := liveTickData_args h
  rw [hargs] at hvalid
  obtain ⟨price, rfl, hprice0⟩ := hvalid.tick.ltp
  have hprice : Priced (.finite price) := ⟨price, rfl, (nseLiveLtp_ok_iff.1 hltp).2⟩
  refine ⟨by rw [hargs], by rw [hargs], by rw [hargs], ?_, ?_, by rw [hargs]; exact hvalid.tick.volume⟩
  · rw [hargs]
    simp only [List.forall_mem_cons, List.not_mem_nil, false_implies, implies_true, and_true]
    exact ⟨hprice, orPrice_priced hvalid.tick.opening hprice, orPrice_priced hvalid.tick.high hprice,
      orPrice_priced hvalid.tick.low hprice⟩
  · rw [hargs]
    simp only [List.forall_mem_cons, List.not_mem_nil, false_implies, implies_true, and_true]
    exact ⟨orNothing_priced (v := nseLiveDec (jsonGet d "VWAP")) hvalid.tick.vwap,
      fun v hv => (by cases hv), fun v hv => (by cases hv),
      orNothing_priced (v := nseLiveDec (jsonGet d "52H")) hvalid.week52High,
      orNothing_priced (v := nseLiveDec (jsonGet d "52L")) hvalid.week52Low⟩

end Ticks

/-- **The live feeds pass on no quote without a price.** A payload is a tick exactly when it has a
    positive price (of Groww the previous close will do), its other prices are finite and not negative,
    its changes finite and its quantities above -1; and the tick has the symbol asked for, a positive
    price, open, high and low, and positive limits and ranges or none. -/
theorem live_feed_ticks (upper : String → String) (d : List (String × PyJson)) (symbol : String) :
    ((∃ t, growwParse upper d symbol = .ok t) ↔ GrowwQuotable upper d symbol) ∧
      (∀ t, growwParse upper d symbol = .ok t →
        FeedTick (normalizeSymbol upper symbol) .NSE "groww" t) ∧
      ∀ exCode, ((∃ t, nseLiveParse upper exCode d symbol = .ok t) ↔ NseLiveQuotable upper d symbol) ∧
        ∀ t, nseLiveParse upper exCode d symbol = .ok t →
          FeedTick (normalizeSymbol upper (upper symbol)) exCode (nseLiveName exCode) t :=
  ⟨growwParse_ok_iff, fun _ h => growwParse_feedTick h,
    fun _ => ⟨nseLiveParse_ok_iff, fun _ h => nseLiveParse_feedTick h⟩⟩

/-- Before the open there is the previous close only. -/
example : (growwParse id [("ltp", .int 0), ("close", .str "1,234.50")] "TCS").toOption.map (·.args.ltp) =
    some (.finite (2469 / 2)) := by decide +kernel

end BharatTicker
