/-
  File:      BharatTicker/Bhavcopy/QuoteErrors.lean
  Subject:   WHAT AN END-OF-DAY QUOTE RAISES. Nothing around `_parse` turns an exception into a
             `ProviderError`: a row that is no tick ends in whatever its first bad cell raises.

  * `NonNeg`, `Usable`, `LastPrice`, `ChangeFits` -- what is asked of the cells;
  * `int_ok_iff`, `ifPos_ok_iff`, `ltp_ok_iff`, `change_ok_iff`, `value_ok_iff` -- step by step;
  * `errors_eq_nil_iff`, `tickData_ok_iff` -- the validation;
  * `BseQuotable`, `NseQuotable`, `bseParse_ok_iff`, `nseParse_ok_iff` -- the rows that are ticks;
  * `only_provider_errors_iff` -- both providers; `fund_row_escapes` -- a row of a fund.
-/
import BharatTicker.Bhavcopy.Quote

namespace BharatTicker

open Basis

/-! ## 1. What is asked of the cells -/

def IsFinite (d : DecimalValue) : Prop := ∃ q, d = .finite q

/-- Finite, and not negative. -/
def NonNeg (d : DecimalValue) : Prop := ∃ q, d = .finite q ∧ 0 ≤ q

/-- A price that is optional: one that is not positive is left out. -/
def Usable (d : DecimalValue) : Prop := IsFinite d ∨ d = .infinity true

/-- Not positive, and a number. -/
def NotPos (d : DecimalValue) : Prop := (∃ q, d = .finite q ∧ q ≤ 0) ∨ d = .infinity true

/-- The price is the close where that is positive, else the last price; or both are zero. -/
def LastPrice (close last : DecimalValue) (x : ℚ) : Prop :=
  (close = .finite x ∧ 0 < x) ∨ (NotPos close ∧ last = .finite x ∧ 0 < x) ∨
    (close = .finite 0 ∧ last = .finite 0 ∧ x = 0)

/-- The numbers from here on overflow: half a unit of the last digit below `10^1000000`. -/
def overflowFrom : ℚ := 10 ^ (1000000 : ℤ) - 10 ^ (999972 : ℤ) / 2

/-- The change of a price is no overflow, and in percent it has 28 digits at most: it is less than
    `10^24` times the previous close, by half a unit of the last digit. -/
def ChangeFits (price prev : ℚ) : Prop :=
  |price - prev| < overflowFrom ∧
    |defaultContext.round (price - prev)| < (10 ^ 24 - 1 / 20000) * prev

/-! ## 2. Step by step -/

section Steps

variable {ε α β : Type} {d other t : DecimalValue} {q x p : ℚ}

theorem bind_eq_ok {e : Except ε α} {f : α → Except ε β} {b : β} :
    (e >>= f) = .ok b ↔ ∃ a, e = .ok a ∧ f a = .ok b := by
  cases e with
  | error e => exact iff_of_false (fun h => by cases h) fun hex => by obtain ⟨a, h, -⟩ := hex; cases h
  | ok a =>
    constructor
    · exact fun h => ⟨a, rfl, h⟩
    · intro hex
      obtain ⟨a', h, hf⟩ := hex
      cases h
      exact hf

/-- A computation returns exactly when its first step does and the rest returns. -/
theorem exists_bind_ok {e : Except ε α} {f : α → Except ε β} :
    (∃ b, (e >>= f) = .ok b) ↔ ∃ a, e = .ok a ∧ ∃ b, f a = .ok b := by
  simp only [bind_eq_ok]
  constructor
  · intro hex
    obtain ⟨b, a, ha, hb⟩ := hex
    exact ⟨a, ha, b, hb⟩
  · intro hex
    obtain ⟨a, ha, b, hb⟩ := hex
    exact ⟨b, a, ha, hb⟩

theorem signal_eq_ok {e : Except DecimalSignal α} {a : α} : signal e = .ok a ↔ e = .ok a := by
  unfold signal
  cases e <;> simp [Except.mapError]

/-- What `d > 0` can be. -/
theorem isPos_cases (d : DecimalValue) :
    (∃ q, d = .finite q ∧ 0 < q ∧ d.isPos = .ok true) ∨ (NotPos d ∧ d.isPos = .ok false) ∨
      (d = .infinity false ∧ d.isPos = .ok true) ∨
      ((d = .nan ∨ d = .signalingNan) ∧ d.isPos = .error .invalidOperation) := by
  cases d with
  | finite q =>
    by_cases hq : 0 < q
    · exact .inl ⟨q, rfl, hq, congrArg _ (decide_eq_true hq)⟩
    · exact .inr (.inl ⟨.inl ⟨q, rfl, not_lt.mp hq⟩, congrArg _ (decide_eq_false hq)⟩)
  | infinity negative =>
    cases negative with
    | true => exact .inr (.inl ⟨.inr rfl, rfl⟩)
    | false => exact .inr (.inr (.inl ⟨rfl, rfl⟩))
  | nan => exact .inr (.inr (.inr ⟨.inl rfl, rfl⟩))
  | signalingNan => exact .inr (.inr (.inr ⟨.inr rfl, rfl⟩))

theorem NotPos.not_pos (h : NotPos d) : ¬ ∃ q, d = .finite q ∧ 0 < q := by
  intro hex
  obtain ⟨q, rfl, hq⟩ := hex
  rcases h with ⟨q', e, hq'⟩ | e
  · cases e
    exact absurd hq (not_lt.mpr hq')
  · cases e

theorem NotPos.ne_infinity (h : NotPos d) : d ≠ .infinity false := by
  rintro rfl
  rcases h with ⟨q, e, -⟩ | e <;> cases e

/-- A price is used, or left out. -/
theorem usable_iff : Usable d ↔ (∃ q, d = .finite q ∧ 0 < q) ∨ NotPos d := by
  constructor
  · rintro (⟨q, rfl⟩ | rfl)
    · rcases lt_or_ge 0 q with hq | hq
      · exact .inl ⟨q, rfl, hq⟩
      · exact .inr (.inl ⟨q, rfl, hq⟩)
    · exact .inr (.inr rfl)
  · rintro (⟨q, rfl, -⟩ | ⟨q, rfl, -⟩ | rfl)
    · exact .inl ⟨q, rfl⟩
    · exact .inl ⟨q, rfl⟩
    · exact .inr rfl

/-- **A step that asks for `d > 0`**, of the numbers that it takes: the other ones raise. -/
theorem whenPos_ok_iff {f : Bool → Except QuoteException α} {P : α → Prop} :
    (∃ r, (signal d.isPos >>= f) = .ok r ∧ P r) ↔
      ((∃ q, d = .finite q ∧ 0 < q) ∧ ∃ r, f true = .ok r ∧ P r) ∨
      (NotPos d ∧ ∃ r, f false = .ok r ∧ P r) ∨
      (d = .infinity false ∧ ∃ r, f true = .ok r ∧ P r) := by
  rcases isPos_cases d with ⟨q, rfl, hq, h⟩ | ⟨hnot, h⟩ | ⟨rfl, h⟩ | ⟨hnan, h⟩
  · have hstep : (signal (DecimalValue.finite q).isPos >>= f) = f true := by
      rw [h]
      rfl
    simp [hstep, NotPos, hq]
  · have hstep : (signal d.isPos >>= f) = f false := by
      rw [h]
      rfl
    simp [hstep, hnot, hnot.not_pos, hnot.ne_infinity]
  · have hstep : (signal (DecimalValue.infinity false).isPos >>= f) = f true := rfl
    simp [hstep, NotPos]
  · have hstep : (signal d.isPos >>= f) = .error (.decimalSignal .invalidOperation) := by
      rw [h]
      rfl
    rcases hnan with rfl | rfl <;> simp [hstep, NotPos]

theorem NotPos.eq_zero (h : NotPos d) (h' : NonNeg d) : d = .finite 0 := by
  obtain ⟨q, rfl, hq⟩ := h'
  rcases h with ⟨q', e, hq'⟩ | h
  · cases e
    rw [le_antisymm hq' hq]
  · cases h

/-- **`int` of a volume** is a number that is not negative from just above -1 on. -/
theorem int_ok_iff : (∃ n, int d = .ok n ∧ 0 ≤ n) ↔ ∃ q, d = .finite q ∧ -1 < q := by
  cases d with
  | finite q =>
    have hint : int (.finite q) = .ok (if 0 ≤ q then ⌊q⌋ else ⌈q⌉) := rfl
    have hvalue : (0 ≤ if 0 ≤ q then ⌊q⌋ else ⌈q⌉) ↔ -1 < q := by
      split
      · rename_i h
        exact iff_of_true (Int.floor_nonneg.mpr h) (by linarith)
      · have hceil : (-1 : ℤ) < ⌈q⌉ ↔ ((-1 : ℤ) : ℚ) < q := Int.lt_ceil
        rw [Int.cast_neg, Int.cast_one] at hceil
        rw [← hceil]
        omega
    simp [hint, hvalue]
  | infinity n => simp [int, DecimalValue.toInt, Except.mapError]
  | nan => simp [int, DecimalValue.toInt, Except.mapError]
  | signalingNan => simp [int, DecimalValue.toInt, Except.mapError]

/-- **`d if d > 0 else ltp`**, the price being one. -/
theorem ifPos_ok_iff (hother : NonNeg other) :
    (∃ r, ifPos d other = .ok r ∧ NonNeg r) ↔ Usable d := by
  refine Iff.trans whenPos_ok_iff (Iff.trans ?_ (Iff.symm usable_iff))
  constructor
  · rintro (⟨hpos, -⟩ | ⟨hnot, -⟩ | ⟨rfl, r, hr, q, rfl, -⟩)
    · exact .inl hpos
    · exact .inr hnot
    · cases hr
  · rintro (⟨q, rfl, hq⟩ | hnot)
    · exact .inl ⟨⟨q, rfl, hq⟩, .finite q, rfl, q, rfl, hq.le⟩
    · exact .inr (.inl ⟨hnot, other, rfl, hother⟩)

/-- **`d if d > 0 else None`**. -/
theorem noneUnlessPos_ok_iff :
    (∃ r, noneUnlessPos d = .ok r ∧ ∀ v, r = some v → NonNeg v) ↔ Usable d := by
  refine Iff.trans whenPos_ok_iff (Iff.trans ?_ (Iff.symm usable_iff))
  constructor
  · rintro (⟨hpos, -⟩ | ⟨hnot, -⟩ | ⟨rfl, r, hr, hnonneg⟩)
    · exact .inl hpos
    · exact .inr hnot
    · cases hr
      obtain ⟨q, e, -⟩ := hnonneg _ rfl
      cases e
  · rintro (⟨q, rfl, hq⟩ | hnot)
    · refine .inl ⟨⟨q, rfl, hq⟩, some (.finite q), rfl, fun v hv => ?_⟩
      cases hv
      exact ⟨q, rfl, hq.le⟩
    · exact .inr (.inl ⟨hnot, none, rfl, fun v hv => by cases hv⟩)

theorem ifPos_eq_iff : (ifPos d other = .ok (.finite x) ∧ 0 ≤ x) ↔
    (d = .finite x ∧ 0 < x) ∨ (NotPos d ∧ other = .finite x ∧ 0 ≤ x) := by
  have hex : (ifPos d other = .ok (.finite x) ∧ 0 ≤ x) ↔
      ∃ r, ifPos d other = .ok r ∧ r = .finite x ∧ 0 ≤ x := by simp
  refine hex.trans (Iff.trans whenPos_ok_iff ?_)
  constructor
  · rintro (⟨⟨q, rfl, hq⟩, r, hr, rfl, -⟩ | ⟨hnot, r, hr, rfl, hx⟩ | ⟨rfl, r, hr, rfl, -⟩)
    · cases hr
      exact .inl ⟨rfl, hq⟩
    · cases hr
      exact .inr ⟨hnot, rfl, hx⟩
    · cases hr
  · rintro (⟨rfl, hx⟩ | ⟨hnot, rfl, hx⟩)
    · exact .inl ⟨⟨x, rfl, hx⟩, .finite x, rfl, rfl, hx.le⟩
    · exact .inr (.inl ⟨hnot, .finite x, rfl, rfl, hx⟩)

/-- **The price**: `close if close > 0 else last`, the last price being the close where it is 0. -/
theorem ltp_ok_iff {close last : DecimalValue} :
    (ifPos close (if last.truthy then last else close) = .ok (.finite x) ∧ 0 ≤ x) ↔
      LastPrice close last x := by
  refine Iff.trans ifPos_eq_iff (or_congr_right ?_)
  by_cases hzero : last = .finite 0
  · have hsame : (if last.truthy then last else close) = close := by
      rw [hzero]
      rfl
    rw [hsame]
    constructor
    · rintro ⟨hnot, rfl, hx⟩
      have e := hnot.eq_zero ⟨x, rfl, hx⟩
      cases e
      exact .inr ⟨rfl, hzero, rfl⟩
    · rintro (⟨-, e, hx⟩ | ⟨rfl, -, rfl⟩)
      · rw [hzero] at e
        cases e
        exact absurd hx (lt_irrefl 0)
      · exact ⟨.inl ⟨0, rfl, le_refl 0⟩, rfl, le_refl 0⟩
  · have hlast : (if last.truthy then last else close) = last := if_pos (decide_eq_true hzero)
    rw [hlast]
    constructor
    · rintro ⟨hnot, rfl, hx⟩
      refine .inl ⟨hnot, rfl, lt_of_le_of_ne hx fun e => hzero ?_⟩
      rw [← e]
    · rintro (⟨hnot, e, hx⟩ | ⟨-, e, -⟩)
      · exact ⟨hnot, e, hx.le⟩
      · exact absurd e hzero

/-- The default context rounds below its largest power of ten, or overflows. -/
theorem finish_ok_iff {v : DecimalValue} : defaultContext.finish q = .ok v ↔
    |q| < overflowFrom ∧ v = .finite (defaultContext.round q) :=
  DecimalContext.finish_eq_ok (by decide) (by decide) (by decide)

/-- A quotient in percent, with two places. -/
theorem percent_ok_iff :
    (∃ v, DecimalContext.scaledQuantize defaultContext 2 2 q = .ok v) ↔
      |q| < 10 ^ 24 - 1 / 20000 := by
  have h : (∃ v, DecimalContext.scaledQuantize defaultContext 2 2 q = .ok v) ↔
      |q| < 10 ^ ((defaultContext.prec : ℤ) - (2 : ℕ) - (2 : ℕ)) -
        10 ^ (-((2 : ℕ) : ℤ) - (2 : ℕ)) / 2 :=
    DecimalContext.scaledQuantize_ok_iff (by decide) (by decide) (by decide) (by decide)
  rw [h]
  norm_num [defaultContext]

theorem signal_bind (e : Except DecimalSignal α) (f : α → Except DecimalSignal β) :
    signal (e >>= f) = signal e >>= fun a => signal (f a) := by
  cases e <;> rfl

theorem isPos_of_pos (hp : 0 < p) : (DecimalValue.finite p).isPos = .ok true :=
  congrArg _ (decide_eq_true hp)

theorem isPos_zero : (DecimalValue.finite 0).isPos = .ok false := by
  decide

theorem changeOf_pos (hp : 0 < p) (price : DecimalValue) :
    changeOf price (.finite p) = signal (defaultContext.sub price (.finite p)) := by
  unfold changeOf
  rw [isPos_of_pos hp]
  rfl

theorem pctOf_pos (hp : 0 < p) (c : ℚ) : pctOf (.finite c) (.finite p) =
    signal (DecimalContext.scaledQuantize defaultContext 2 2 (c / p)) := by
  have hdiv : defaultContext.div (.finite c) (.finite p) = defaultContext.finish (c / p) :=
    if_neg hp.ne'
  have hscale : (.finite 100 : DecimalValue) = .finite (10 ^ 2) := by norm_num
  unfold pctOf DecimalContext.scaledQuantize
  simp only [isPos_of_pos hp, hdiv, hscale, signal_bind]
  rfl

/-- **The change, in rupees and in percent**: with a previous close, the price is finite and the change
    fits; without one, both are 0. -/
theorem change_ok_iff {price : DecimalValue} (hp : 0 ≤ p) :
    (∃ c, changeOf price (.finite p) = .ok c ∧ IsFinite c ∧
      ∃ v, pctOf c (.finite p) = .ok v ∧ IsFinite v) ↔
      (0 < p → ∃ y, price = .finite y ∧ ChangeFits y p) := by
  rcases hp.eq_or_lt with rfl | hp
  · refine iff_of_true ⟨.finite 0, ?_, ⟨0, rfl⟩, .finite 0, ?_, 0, rfl⟩ fun h => absurd h (lt_irrefl 0)
    · unfold changeOf
      rw [isPos_zero]
      rfl
    · unfold pctOf
      rw [isPos_zero]
      rfl
  · rw [forall_prop_of_true hp]
    constructor
    · intro hex
      obtain ⟨c, hc, ⟨y', rfl⟩, v, hv, -⟩ := hex
      rw [changeOf_pos hp, signal_eq_ok] at hc
      rw [pctOf_pos hp, signal_eq_ok] at hv
      have hpct := percent_ok_iff.1 ⟨v, hv⟩
      rw [abs_div, abs_of_pos hp, div_lt_iff₀ hp] at hpct
      cases price with
      | finite y =>
        obtain ⟨hover, e⟩ := finish_ok_iff.1 hc
        cases e
        exact ⟨y, rfl, hover, hpct⟩
      | infinity n => cases hc
      | nan => cases hc
      | signalingNan => cases hc
    · intro hex
      obtain ⟨y, rfl, hover, hpct⟩ := hex
      refine ⟨.finite (defaultContext.round (y - p)), ?_, ⟨_, rfl⟩, ?_⟩
      · rw [changeOf_pos hp, signal_eq_ok]
        exact finish_ok_iff.2 ⟨hover, rfl⟩
      · rw [← div_lt_iff₀ hp, ← abs_of_pos hp, ← abs_div, abs_of_pos hp] at hpct
        obtain ⟨v, hv⟩ := percent_ok_iff.2 hpct
        refine ⟨v, ?_, ?_⟩
        · rw [pctOf_pos hp, signal_eq_ok]
          exact hv
        · obtain ⟨-, -, hq⟩ := DecimalContext.scaledQuantize_eq_ok.mp hv
          exact ⟨_, DecimalContext.quantize_ok_finite hq⟩

theorem overflowFrom_pos : 0 < overflowFrom := by
  unfold overflowFrom
  have hle : (10 : ℚ) ^ (999972 : ℤ) ≤ 10 ^ (1000000 : ℤ) :=
    zpow_le_zpow_right₀ (by norm_num) (by omega)
  have hunit : (0 : ℚ) < 10 ^ (999972 : ℤ) := DecimalContext.ten_zpow_pos 999972
  generalize (10 : ℚ) ^ (1000000 : ℤ) = top at hle ⊢
  generalize (10 : ℚ) ^ (999972 : ℤ) = unit at hle hunit ⊢
  linarith

/-- `turnover_lacs * Decimal("100000")`, of a positive number. -/
theorem rupees_ok_iff (hq : 0 < q) :
    (∃ r, (signal (defaultContext.finish (q * 100000)) >>= fun v => Except.ok (some v)) = .ok r ∧
      ∀ v, r = some v → NonNeg v) ↔ q * 100000 < overflowFrom := by
  have hq' : 0 < q * 100000 := by linarith
  constructor
  · intro hex
    obtain ⟨r, hr, -⟩ := hex
    obtain ⟨v, hv, -⟩ := bind_eq_ok.1 hr
    obtain ⟨hover, -⟩ := finish_ok_iff.1 (signal_eq_ok.1 hv)
    rwa [abs_of_pos hq'] at hover
  · intro hover
    rw [← abs_of_pos hq'] at hover
    refine ⟨_, bind_eq_ok.2 ⟨_, signal_eq_ok.2 (finish_ok_iff.2 ⟨hover, rfl⟩), rfl⟩, ?_⟩
    intro v hv
    cases hv
    exact ⟨_, rfl, DecimalContext.round_nonneg hq'.le⟩

/-- **The value of the trades**: no overflow. -/
theorem valueOf_ok_iff : (∃ r, valueOf t = .ok r ∧ ∀ v, r = some v → NonNeg v) ↔
    (∃ q, t = .finite q ∧ q * 100000 < overflowFrom) ∨ t = .infinity true := by
  refine Iff.trans whenPos_ok_iff ?_
  constructor
  · rintro (⟨⟨q, rfl, hq⟩, hex⟩ | ⟨⟨q, rfl, hq⟩ | rfl, -⟩ | ⟨rfl, r, hr, hnonneg⟩)
    · exact .inl ⟨q, rfl, (rupees_ok_iff hq).mp hex⟩
    · have hpos := overflowFrom_pos
      exact .inl ⟨q, rfl, by linarith⟩
    · exact .inr rfl
    · cases hr
      obtain ⟨q, e, -⟩ := hnonneg _ rfl
      cases e
  · have hnone : ∀ v, (none : Option DecimalValue) = some v → NonNeg v := fun v hv => by cases hv
    rintro (⟨q, rfl, hover⟩ | rfl)
    · rcases lt_or_ge 0 q with hq | hq
      · exact .inl ⟨⟨q, rfl, hq⟩, (rupees_ok_iff hq).mpr hover⟩
      · exact .inr (.inl ⟨.inl ⟨q, rfl, hq⟩, none, rfl, hnone⟩)
    · exact .inr (.inl ⟨.inr rfl, none, rfl, hnone⟩)

/-- `self._dec(row.get("TtlTrfVal")) or None`. -/
theorem orNone_ok_iff :
    (∀ v, (if d.truthy then some d else none) = some v → NonNeg v) ↔ NonNeg d := by
  by_cases hzero : d = .finite 0
  · subst hzero
    refine iff_of_true (fun v hv => ?_) ⟨0, rfl, le_refl 0⟩
    cases hv
  · rw [if_pos (show d.truthy = true from decide_eq_true hzero)]
    simp

end Steps

/-! ## 3. The validation -/

/-- What a tick must be. -/
structure TickArgs.Valid (a : TickArgs) : Prop where
  symbol : 1 ≤ a.symbol.length ∧ a.symbol.length ≤ 30
  isin : ∀ s, a.isin = some s → isIsin s = true
  ltp : NonNeg a.ltp
  opening : NonNeg a.opening
  high : NonNeg a.high
  low : NonNeg a.low
  close : NonNeg a.close
  change : IsFinite a.change
  pctChange : IsFinite a.pctChange
  volume : 0 ≤ a.volume
  value : ∀ d, a.value = some d → NonNeg d
  vwap : ∀ d, a.vwap = some d → NonNeg d

section Validation

variable {field : String} {d : DecimalValue} {a : TickArgs}

theorem decimalErrors_ge : decimalErrors field true d = [] ↔ NonNeg d := by
  cases d <;> simp [decimalErrors, NonNeg]

theorem decimalErrors_any : decimalErrors field false d = [] ↔ IsFinite d := by
  cases d <;> simp [decimalErrors, IsFinite]

theorem optionalErrors_eq_nil {d : Option DecimalValue} :
    optionalErrors field d = [] ↔ ∀ v, d = some v → NonNeg v := by
  cases d with
  | none => simp [optionalErrors]
  | some d => simp [optionalErrors, decimalErrors_ge]

theorem symbolErrors_eq_nil : a.symbolErrors = [] ↔ 1 ≤ a.symbol.length ∧ a.symbol.length ≤ 30 := by
  unfold TickArgs.symbolErrors
  split
  · rename_i h
    exact iff_of_false (List.cons_ne_nil _ _) (by omega)
  · split
    · exact iff_of_false (List.cons_ne_nil _ _) (by omega)
    · exact iff_of_true rfl (by omega)

theorem isinErrors_eq_nil : a.isinErrors = [] ↔ ∀ s, a.isin = some s → isIsin s = true := by
  unfold TickArgs.isinErrors
  cases a.isin <;> simp

theorem volumeErrors_eq_nil : a.volumeErrors = [] ↔ 0 ≤ a.volume := by
  unfold TickArgs.volumeErrors
  split
  · exact iff_of_false (List.cons_ne_nil _ _) (by omega)
  · exact iff_of_true rfl (by omega)

/-- **No error, where every field is what it must be.** -/
theorem errors_eq_nil_iff : a.errors = [] ↔ a.Valid := by
  simp only [TickArgs.errors, List.append_eq_nil_iff, symbolErrors_eq_nil, isinErrors_eq_nil,
    decimalErrors_ge, decimalErrors_any, volumeErrors_eq_nil, optionalErrors_eq_nil]
  constructor
  · intro hex
    obtain ⟨⟨⟨⟨⟨⟨⟨⟨⟨⟨⟨h1, h2⟩, h3⟩, h4⟩, h5⟩, h6⟩, h7⟩, h8⟩, h9⟩, h10⟩, h11⟩, h12⟩ := hex
    exact ⟨h1, h2, h3, h4, h5, h6, h7, h8, h9, h10, h11, h12⟩
  · intro hex
    obtain ⟨h1, h2, h3, h4, h5, h6, h7, h8, h9, h10, h11, h12⟩ := hex
    exact ⟨⟨⟨⟨⟨⟨⟨⟨⟨⟨⟨h1, h2⟩, h3⟩, h4⟩, h5⟩, h6⟩, h7⟩, h8⟩, h9⟩, h10⟩, h11⟩, h12⟩

theorem tickData_ok_iff {upper : String → String} :
    (∃ t, tickData upper a = .ok t) ↔
      TickArgs.Valid { a with symbol := normalizeSymbol upper a.symbol } := by
  rw [← errors_eq_nil_iff]
  unfold tickData
  dsimp only
  split
  · rename_i h
    exact iff_of_true ⟨_, rfl⟩ h
  · rename_i h
    exact iff_of_false (by simp) h

end Validation

/-! ## 4. The rows that are ticks -/

section Rows

variable (upper : String → String) (row : BhavRow) (symbol : String)

/-- The symbol, as the tick keeps it, has 1 to 30 characters. -/
def SymbolFits : Prop :=
  1 ≤ (normalizeSymbol upper (upper symbol)).length ∧
    (normalizeSymbol upper (upper symbol)).length ≤ 30

/-- **The condition for a row of the BSE.** -/
structure BseQuotable : Prop where
  symbol : SymbolFits upper symbol
  isin : ∀ isin, Dict.get? row "ISIN" = some isin → isin = "" ∨ isIsin isin = true
  volume : ∃ q, cell row "TtlTradgVol" = .finite q ∧ -1 < q
  value : NonNeg (cell row "TtlTrfVal")
  opening : Usable (cell row "OpnPric")
  high : Usable (cell row "HghPric")
  low : Usable (cell row "LwPric")
  prices : ∃ price prev, LastPrice (cell row "ClsPric") (cell row "LastPric") price ∧
    cell row "PrvsClsgPric" = .finite prev ∧ 0 ≤ prev ∧ (0 < prev → ChangeFits price prev)

/-- **The condition for a row of the NSE.** The change is that of the close. -/
structure NseQuotable : Prop where
  symbol : SymbolFits upper symbol
  volume : ∃ q, cell row "TTL_TRD_QNTY" = .finite q ∧ -1 < q
  value : (∃ q, cell row "TURNOVER_LACS" = .finite q ∧ q * 100000 < overflowFrom) ∨
    cell row "TURNOVER_LACS" = .infinity true
  vwap : Usable (cell row "AVG_PRICE")
  opening : Usable (cell row "OPEN_PRICE")
  high : Usable (cell row "HIGH_PRICE")
  low : Usable (cell row "LOW_PRICE")
  prices : ∃ price prev, LastPrice (cell row "CLOSE_PRICE") (cell row "LAST_PRICE") price ∧
    cell row "PREV_CLOSE" = .finite prev ∧ 0 ≤ prev ∧
    (0 < prev → ∃ close, cell row "CLOSE_PRICE" = .finite close ∧ ChangeFits close prev)

variable {upper row symbol}

theorem LastPrice.nonneg {close last : DecimalValue} {x : ℚ} (h : LastPrice close last x) :
    0 ≤ x := (ltp_ok_iff.2 h).2

/-- `row.get("ISIN") or None`. -/
theorem orNoText_isin {isin : Option String} :
    (∀ s, orNoText isin = some s → isIsin s = true) ↔
      ∀ s, isin = some s → s = "" ∨ isIsin s = true := by
  unfold orNoText
  simp only [Option.filter_eq_some_iff, decide_eq_true_eq]
  constructor
  · intro h s hs
    by_cases hempty : s = ""
    · exact .inl hempty
    · exact .inr (h s ⟨hs, hempty⟩)
  · intro h s hex
    exact (h s hex.1).resolve_left hex.2

/-- **A row of the BSE is a tick exactly when it meets the condition.** -/
theorem bseParse_ok_iff :
    (∃ t, bseParse upper row symbol = .ok t) ↔ BseQuotable upper row symbol := by
  simp only [bseParse, exists_bind_ok, tickData_ok_iff]
  constructor
  · intro hex
    obtain ⟨vol, hvol, ltp, hltp, change, hchange, pct, hpct, openP, hopen, high, hhigh, low, hlow,
      hvalid⟩ := hex
    obtain ⟨price, rfl, hprice⟩ := hvalid.ltp
    obtain ⟨prev, hprev, hprev0⟩ := hvalid.close
    dsimp only at hprev
    rw [hprev] at hchange hpct
    have hother : NonNeg (.finite price) := ⟨price, rfl, hprice⟩
    refine ⟨hvalid.symbol, orNoText_isin.1 hvalid.isin, int_ok_iff.1 ⟨vol, hvol, hvalid.volume⟩,
      orNone_ok_iff.1 hvalid.value, (ifPos_ok_iff hother).mp ⟨_, hopen, hvalid.opening⟩,
      (ifPos_ok_iff hother).mp ⟨_, hhigh, hvalid.high⟩,
      (ifPos_ok_iff hother).mp ⟨_, hlow, hvalid.low⟩,
      price, prev, ltp_ok_iff.1 ⟨hltp, hprice⟩, hprev, hprev0, fun hpos => ?_⟩
    obtain ⟨y, hy, hfits⟩ := (change_ok_iff hprev0).mp
      ⟨change, hchange, hvalid.change, pct, hpct, hvalid.pctChange⟩ hpos
    cases hy
    exact hfits
  · intro h
    obtain ⟨price, prev, hlast, hprev, hprev0, hfits⟩ := h.prices
    obtain ⟨hltp, hprice⟩ := ltp_ok_iff.2 hlast
    obtain ⟨vol, hvol, hvol0⟩ := int_ok_iff.2 h.volume
    obtain ⟨change, hchange, hchangeFin, pct, hpct, hpctFin⟩ :=
      (change_ok_iff hprev0).mpr fun hpos => ⟨price, rfl, hfits hpos⟩
    have hother : NonNeg (.finite price) := ⟨price, rfl, hprice⟩
    obtain ⟨openP, hopen, hopen0⟩ := (ifPos_ok_iff hother).mpr h.opening
    obtain ⟨high, hhigh, hhigh0⟩ := (ifPos_ok_iff hother).mpr h.high
    obtain ⟨low, hlow, hlow0⟩ := (ifPos_ok_iff hother).mpr h.low
    rw [← hprev] at hchange hpct
    exact ⟨vol, hvol, _, hltp, change, hchange, pct, hpct, openP, hopen, high, hhigh, low, hlow,
      h.symbol, orNoText_isin.2 h.isin, hother, hopen0, hhigh0, hlow0, ⟨prev, hprev, hprev0⟩,
      hchangeFin, hpctFin, hvol0, orNone_ok_iff.2 h.value, fun d hd => by cases hd⟩

/-- **A row of the NSE is a tick exactly when it meets the condition.** -/
theorem nseParse_ok_iff :
    (∃ t, nseParse upper row symbol = .ok t) ↔ NseQuotable upper row symbol := by
  simp only [nseParse, exists_bind_ok, tickData_ok_iff]
  constructor
  · intro hex
    obtain ⟨vol, hvol, value, hvalue, change, hchange, pct, hpct, ltp, hltp, openP, hopen, high,
      hhigh, low, hlow, vwap, hvwap, hvalid⟩ := hex
    obtain ⟨price, rfl, hprice⟩ := hvalid.ltp
    obtain ⟨prev, hprev, hprev0⟩ := hvalid.close
    dsimp only at hprev
    rw [hprev] at hchange hpct
    have hother : NonNeg (.finite price) := ⟨price, rfl, hprice⟩
    exact ⟨hvalid.symbol, int_ok_iff.1 ⟨vol, hvol, hvalid.volume⟩,
      valueOf_ok_iff.1 ⟨value, hvalue, hvalid.value⟩,
      noneUnlessPos_ok_iff.1 ⟨vwap, hvwap, hvalid.vwap⟩,
      (ifPos_ok_iff hother).mp ⟨_, hopen, hvalid.opening⟩,
      (ifPos_ok_iff hother).mp ⟨_, hhigh, hvalid.high⟩,
      (ifPos_ok_iff hother).mp ⟨_, hlow, hvalid.low⟩,
      price, prev, ltp_ok_iff.1 ⟨hltp, hprice⟩, hprev, hprev0,
      (change_ok_iff hprev0).mp ⟨change, hchange, hvalid.change, pct, hpct, hvalid.pctChange⟩⟩
  · intro h
    obtain ⟨price, prev, hlast, hprev, hprev0, hfits⟩ := h.prices
    obtain ⟨hltp, hprice⟩ := ltp_ok_iff.2 hlast
    obtain ⟨vol, hvol, hvol0⟩ := int_ok_iff.2 h.volume
    obtain ⟨value, hvalue, hvalue0⟩ := valueOf_ok_iff.2 h.value
    obtain ⟨vwap, hvwap, hvwap0⟩ := noneUnlessPos_ok_iff.2 h.vwap
    obtain ⟨change, hchange, hchangeFin, pct, hpct, hpctFin⟩ := (change_ok_iff hprev0).mpr hfits
    have hother : NonNeg (.finite price) := ⟨price, rfl, hprice⟩
    obtain ⟨openP, hopen, hopen0⟩ := (ifPos_ok_iff hother).mpr h.opening
    obtain ⟨high, hhigh, hhigh0⟩ := (ifPos_ok_iff hother).mpr h.high
    obtain ⟨low, hlow, hlow0⟩ := (ifPos_ok_iff hother).mpr h.low
    rw [← hprev] at hchange hpct
    exact ⟨vol, hvol, value, hvalue, change, hchange, pct, hpct, _, hltp, openP, hopen, high, hhigh,
      low, hlow, vwap, hvwap, h.symbol, fun s hs => (by cases hs), hother, hopen0, hhigh0, hlow0,
      ⟨prev, hprev, hprev0⟩, hchangeFin, hpctFin, hvol0, hvalue0, hvwap0⟩

/-! ## 5. Both providers -/

/-- A tick, or a `ProviderError`. -/
def OnlyProviderErrors (r : Except QuoteException ValidTick) : Prop :=
  (∃ t, r = .ok t) ∨ ∃ e, r = .error (.providerError e)

/-- No `ProviderError` comes out of it. -/
def Foreign {α : Type} (r : Except QuoteException α) : Prop := ∀ e, r ≠ .error (.providerError e)

section Foreign

variable {α β : Type} {r : Except QuoteException α} {f : α → Except QuoteException β}

theorem Foreign.bind (hr : Foreign r) (hf : ∀ a, Foreign (f a)) : Foreign (r >>= f) := by
  cases r with
  | error e => exact fun e' h => hr e' (by cases h; rfl)
  | ok a => exact hf a

theorem foreign_ok (a : α) : Foreign (.ok a : Except QuoteException α) := fun e h => by cases h

theorem foreign_signal (x : Except DecimalSignal α) : Foreign (signal x) := by
  cases x <;> exact fun e h => by cases h

theorem foreign_int (d : DecimalValue) : Foreign (int d) := by
  unfold int
  cases d.toInt <;> exact fun e h => by cases h

theorem foreign_ifPos (d other : DecimalValue) : Foreign (ifPos d other) :=
  (foreign_signal _).bind fun _ => foreign_ok _

theorem foreign_noneUnlessPos (d : DecimalValue) : Foreign (noneUnlessPos d) :=
  (foreign_signal _).bind fun _ => foreign_ok _

theorem foreign_changeOf (price prev : DecimalValue) : Foreign (changeOf price prev) := by
  refine (foreign_signal _).bind fun pos => ?_
  split
  · exact foreign_signal _
  · exact foreign_ok _

theorem foreign_pctOf (change prev : DecimalValue) : Foreign (pctOf change prev) := by
  refine (foreign_signal _).bind fun pos => ?_
  split
  · exact (foreign_signal _).bind fun _ => (foreign_signal _).bind fun _ => foreign_signal _
  · exact foreign_ok _

theorem foreign_valueOf (t : DecimalValue) : Foreign (valueOf t) := by
  refine (foreign_signal _).bind fun pos => ?_
  split
  · exact (foreign_signal _).bind fun _ => foreign_ok _
  · exact foreign_ok _

theorem foreign_tickData (a : TickArgs) : Foreign (tickData upper a) := by
  unfold tickData
  dsimp only
  split <;> exact fun e h => by cases h

/-- **`_parse` raises no `ProviderError`.** -/
theorem foreign_bseParse : Foreign (bseParse upper row symbol) :=
  (foreign_int _).bind fun _ => (foreign_ifPos _ _).bind fun _ => (foreign_changeOf _ _).bind fun _ =>
    (foreign_pctOf _ _).bind fun _ => (foreign_ifPos _ _).bind fun _ => (foreign_ifPos _ _).bind
      fun _ => (foreign_ifPos _ _).bind fun _ => foreign_tickData _

theorem foreign_nseParse : Foreign (nseParse upper row symbol) :=
  (foreign_int _).bind fun _ => (foreign_valueOf _).bind fun _ => (foreign_changeOf _ _).bind fun _ =>
    (foreign_pctOf _ _).bind fun _ => (foreign_ifPos _ _).bind fun _ => (foreign_ifPos _ _).bind
      fun _ => (foreign_ifPos _ _).bind fun _ => (foreign_ifPos _ _).bind fun _ =>
        (foreign_noneUnlessPos _).bind fun _ => foreign_tickData _

end Foreign

/-- A parser that raises no `ProviderError` itself. -/
theorem onlyProviderErrors_parse {r : Except QuoteException ValidTick} (h : Foreign r) :
    OnlyProviderErrors r ↔ ∃ t, r = .ok t := by
  refine or_iff_left ?_
  intro hex
  obtain ⟨e, he⟩ := hex
  exact h e he

end Rows

/-- **A quote ends in a tick or a `ProviderError` exactly where the row, if there is one, meets the
    condition.** -/
theorem only_provider_errors_iff (upper : String → String) (bse nse : BhavRows) (symbol : String) :
    (OnlyProviderErrors (bseFetchQuote upper bse symbol) ↔
      ∀ row, rowFor upper bse symbol = some row → BseQuotable upper row symbol) ∧
    (OnlyProviderErrors (nseFetchQuote upper nse symbol) ↔
      ∀ row, rowFor upper nse symbol = some row → NseQuotable upper row symbol) := by
  constructor
  · unfold bseFetchQuote
    cases rowFor upper bse symbol with
    | none => exact iff_of_true (.inr ⟨_, rfl⟩) fun row h => by cases h
    | some row =>
      refine (onlyProviderErrors_parse foreign_bseParse).trans (Iff.trans bseParse_ok_iff ?_)
      simp
  · unfold nseFetchQuote
    cases rowFor upper nse symbol with
    | none => exact iff_of_true (.inr ⟨_, rfl⟩) fun row h => by cases h
    | some row =>
      refine (onlyProviderErrors_parse foreign_nseParse).trans (Iff.trans nseParse_ok_iff ?_)
      simp

/-- A fund in the file of the BSE: its ISIN starts with `INF`. -/
def fundRow : BhavRow :=
  [("TckrSymb", "NIFTYBEES"), ("SctySrs", "B"), ("FinInstrmTp", "STK"), ("ISIN", "INF204KB14I2"),
    ("ClsPric", "275.10"), ("PrvsClsgPric", "272.35"), ("TtlTradgVol", "48210")]

def fundFile : HttpResponse where
  statusCode := 200
  text := "TckrSymb,SctySrs,FinInstrmTp,ISIN,ClsPric,PrvsClsgPric,TtlTradgVol"
  table := some [fundRow]

set_option maxRecDepth 2000 in
/-- **A row that the loader keeps, and whose quote raises a `ValidationError`.** -/
theorem fund_row_escapes :
    ∃ rows, bseRows fundFile = some rows ∧
      ¬ OnlyProviderErrors (bseFetchQuote upper rows "NIFTYBEES") := by
  refine ⟨[("NIFTYBEES", fundRow)], by decide +kernel, ?_⟩
  have hrow : bseFetchQuote upper [("NIFTYBEES", fundRow)] "NIFTYBEES" =
      bseParse upper fundRow "NIFTYBEES" := by
    unfold bseFetchQuote
    rw [show rowFor upper [("NIFTYBEES", fundRow)] "NIFTYBEES" = some fundRow by decide +kernel]
  rw [hrow, onlyProviderErrors_parse foreign_bseParse, bseParse_ok_iff]
  intro h
  have hisin := h.isin "INF204KB14I2" (by decide +kernel)
  revert hisin
  decide +kernel

end BharatTicker
