/-
  File:      BharatTicker/Basis/DecimalContext.lean
  Subject:   DECIMAL ARITHMETIC IN A CONTEXT. Library: no program fact.

  The numbers of the decimal arithmetic specification by their values: finite, infinite, not a
  number. What depends on an exponent or on the sign of a zero alone is not kept. A context rounds
  every result to its digits, half to even, and traps the signals that Python's default context
  traps.

  * `DecimalValue`, `DecimalValue.parse` -- the numbers, and the texts that `Decimal` reads;
  * `DecimalContext`, `quantum`, `round`, `finish` -- the digits of a result, and overflow;
  * `sub`, `mul`, `div`, `quantize`, `isPos`, `toInt` -- the operations;
  * `round_le`, `le_round` -- rounding does not pass a number that has its digits;
  * `round_lt_iff`, `round_le_pred` -- the numbers that round below a power of ten;
  * `finish_eq_ok` -- overflow; `scaledQuantize_ok_iff` -- a quotient in percent.
-/
import BharatTicker.Basis.Numeral
import BharatTicker.Basis.Rounding
import BharatTicker.Basis.Unicode

namespace Basis

/-! ## 1. Numbers -/

inductive DecimalValue where
  | finite (q : ℚ)
  | infinity (negative : Bool)
  | nan
  | signalingNan
  deriving DecidableEq, Repr

/-- The signals whose trap is set. -/
inductive DecimalSignal where
  | invalidOperation
  | divisionByZero
  | overflow
  deriving DecidableEq, Repr

/-- `(-1)^negative * coefficient * 10^exponent`. -/
def Decimal.value (d : Decimal) : ℚ :=
  (if d.negative then -1 else 1) * (d.coefficient : ℚ) * 10 ^ d.exponent

namespace DecimalValue

/-- `MAX_PREC` and `MAX_EMAX`: a text is read without rounding, or not at all. -/
def maxDigits : ℕ := 999999999999999999

/-- The digits and the exponent of a number that is read exactly. -/
def readExactly (d : Decimal) : Bool :=
  let length := (digits d.coefficient).length
  length ≤ maxDigits && d.exponent + length - 1 ≤ (maxDigits : ℤ) &&
    -(maxDigits : ℤ) - (maxDigits - 1) ≤ d.exponent

/-- What follows the sign, in lower case, where it is no number: `Inf(inity)?|s?NaN\d*`. -/
def parseSpecial (negative : Bool) (cs : List Char) : Option DecimalValue :=
  let word := cs.map Char.toLower
  if word = "inf".toList ∨ word = "infinity".toList then some (.infinity negative)
  else
    match word with
    | 'n' :: 'a' :: 'n' :: diag => payload diag .nan
    | 's' :: 'n' :: 'a' :: 'n' :: diag => payload diag .signalingNan
    | _ => none
where
  payload (diag : List Char) (d : DecimalValue) : Option DecimalValue :=
    if diag.all Char.isDigit ∧ (diag.dropWhile (· = '0')).length ≤ maxDigits then some d else none

/-- `Decimal(s)`; `none` where it raises `InvalidOperation`. -/
def parse (s : String) : Option DecimalValue :=
  let (negative, cs) := Decimal.parseSign
    ((asciiDigits (stripSpaces s.toList)).filter (· ≠ '_'))
  match Decimal.parseMagnitude cs with
  | some (coefficient, exponent) =>
    let d : Decimal := ⟨negative, coefficient, exponent⟩
    if readExactly d then some (.finite d.value) else none
  | none => parseSpecial negative cs

/-- `bool(d)`. -/
def truthy (d : DecimalValue) : Bool := d ≠ .finite 0

/-- `d > 0`. -/
def isPos : DecimalValue → Except DecimalSignal Bool
  | .finite q => .ok (0 < q)
  | .infinity negative => .ok (!negative)
  | _ => .error .invalidOperation

/-- The exceptions of `int(d)`. -/
inductive IntError where
  | valueError
  | overflowError
  deriving DecidableEq, Repr

/-- `int(d)`: towards zero. -/
def toInt : DecimalValue → Except IntError ℤ
  | .finite q => .ok (if 0 ≤ q then ⌊q⌋ else ⌈q⌉)
  | .infinity _ => .error .overflowError
  | _ => .error .valueError

/-- A number that signals is met, or a quiet one that goes through, or neither. -/
def nanOf (a b : DecimalValue) : Option (Except DecimalSignal DecimalValue) :=
  if a = .signalingNan ∨ b = .signalingNan then some (.error .invalidOperation)
  else if a = .nan ∨ b = .nan then some (.ok .nan)
  else none

end DecimalValue

/-! ## 2. Contexts -/

structure DecimalContext where
  prec : ℕ
  eMin : ℤ
  eMax : ℤ

namespace DecimalContext

variable (ctx : DecimalContext)

/-- The exponent of the last digit of the smallest numbers. -/
def eTiny : ℤ := ctx.eMin - (ctx.prec - 1)

/-- The exponent of the last digit that a result of this size keeps. -/
def quantum (q : ℚ) : ℤ := max (Int.log 10 |q| - (ctx.prec - 1)) ctx.eTiny

/-- A result with the digits that it keeps. -/
def round (q : ℚ) : ℚ := roundHalfEven (q / 10 ^ ctx.quantum q) * 10 ^ ctx.quantum q

/-- The result of an operation. -/
def finish (q : ℚ) : Except DecimalSignal DecimalValue :=
  if Int.log 10 |ctx.round q| ≤ ctx.eMax then .ok (.finite (ctx.round q)) else .error .overflow

open DecimalValue in
/-- `a - b`. -/
def sub (a b : DecimalValue) : Except DecimalSignal DecimalValue :=
  (nanOf a b).getD <|
    match a, b with
    | .finite x, .finite y => ctx.finish (x - y)
    | .infinity n, .infinity n' =>
      if n = n' then .error .invalidOperation else .ok (.infinity n)
    | .infinity n, _ => .ok (.infinity n)
    | _, .infinity n => .ok (.infinity !n)
    | _, _ => .ok .nan

/-- The sign of an infinite result. -/
def signOf : DecimalValue → Bool
  | .finite q => q < 0
  | .infinity n => n
  | _ => false

open DecimalValue in
/-- `a * b`. -/
def mul (a b : DecimalValue) : Except DecimalSignal DecimalValue :=
  (nanOf a b).getD <|
    match a, b with
    | .finite x, .finite y => ctx.finish (x * y)
    | a, b =>
      if a = .finite 0 ∨ b = .finite 0 then .error .invalidOperation
      else .ok (.infinity (xor (signOf a) (signOf b)))

open DecimalValue in
/-- `a / b`. -/
def div (a b : DecimalValue) : Except DecimalSignal DecimalValue :=
  (nanOf a b).getD <|
    match a, b with
    | .finite x, .finite y =>
      if y = 0 then .error (if x = 0 then .invalidOperation else .divisionByZero)
      else ctx.finish (x / y)
    | .infinity _, .infinity _ => .error .invalidOperation
    | .infinity n, b => .ok (.infinity (xor n (signOf b)))
    | _, _ => .ok (.finite 0)

/-- `d.quantize(10^-places)`. -/
def quantize (places : ℕ) : DecimalValue → Except DecimalSignal DecimalValue
  | .finite q =>
    if |roundHalfEven (q * 10 ^ places)| < 10 ^ ctx.prec then .ok (.finite (roundTo places q))
    else .error .invalidOperation
  | .nan => .ok .nan
  | _ => .error .invalidOperation

/-! ## 3. Rounding -/

section Rounding

variable {ctx : DecimalContext} {q x y : ℚ} {k e : ℤ}

theorem ten_zpow_pos (e : ℤ) : (0 : ℚ) < 10 ^ e := zpow_pos (by norm_num) e

@[simp] theorem quantum_neg (q : ℚ) : ctx.quantum (-q) = ctx.quantum q := by
  unfold quantum
  rw [abs_neg]

@[simp] theorem round_neg (q : ℚ) : ctx.round (-q) = -ctx.round q := by
  unfold round
  rw [quantum_neg, neg_div, roundHalfEven_neg]
  push_cast
  ring

@[simp] theorem round_zero : ctx.round 0 = 0 := by
  have h : roundHalfEven (0 : ℚ) = 0 := by exact_mod_cast roundHalfEven_intCast (K := ℚ) 0
  unfold round
  rw [zero_div, h]
  simp

/-- `y` has no digits below `10^e`. -/
def MultipleOf (e : ℤ) (y : ℚ) : Prop := ∃ n : ℤ, y = n * 10 ^ e

theorem MultipleOf.pow (h : e ≤ k) (n : ℤ) : MultipleOf e (n * 10 ^ k) := by
  refine ⟨n * 10 ^ (k - e).toNat, ?_⟩
  push_cast
  rw [mul_assoc, ← zpow_natCast, Int.toNat_of_nonneg (by omega), ← zpow_add₀ (by norm_num)]
  congr 2
  omega

/-- **Rounding does not pass a number** that has no digits below the last one kept. -/
theorem round_le (h : x ≤ y) (hy : MultipleOf (ctx.quantum x) y) : ctx.round x ≤ y := by
  obtain ⟨n, hn⟩ := hy
  have hpos := ten_zpow_pos (ctx.quantum x)
  have hle : x / 10 ^ ctx.quantum x ≤ (n : ℚ) := by
    rw [div_le_iff₀ hpos, ← hn]
    exact h
  have hround := roundHalfEven_mono hle
  rw [roundHalfEven_intCast] at hround
  rw [hn]
  exact mul_le_mul_of_nonneg_right (by exact_mod_cast hround) hpos.le

theorem le_round (h : y ≤ x) (hy : MultipleOf (ctx.quantum x) y) : y ≤ ctx.round x := by
  have hneg : ctx.round (-x) ≤ -y := by
    refine round_le (neg_le_neg h) ?_
    obtain ⟨n, hn⟩ := hy
    rw [quantum_neg]
    exact ⟨-n, by rw [hn]; push_cast; ring⟩
  rw [round_neg] at hneg
  linarith

theorem round_nonneg (h : 0 ≤ x) : 0 ≤ ctx.round x :=
  le_round h ⟨0, by simp⟩

theorem abs_round (x : ℚ) : |ctx.round x| = ctx.round |x| := by
  rcases le_total 0 x with h | h
  · rw [abs_of_nonneg h, abs_of_nonneg (round_nonneg h)]
  · have hneg : 0 ≤ ctx.round (-x) := round_nonneg (neg_nonneg.mpr h)
    rw [round_neg] at hneg
    rw [abs_of_nonpos h, round_neg, abs_of_nonpos (by linarith)]

/-- The digits that are kept of a number below `10^k`. -/
theorem quantum_le (hx : 0 < x) (hk : x < 10 ^ k) (hprec : ctx.eTiny + ctx.prec ≤ k) :
    ctx.quantum x ≤ k - ctx.prec := by
  have hlog : Int.log 10 |x| < k := by
    rw [abs_of_pos hx]
    exact (Int.lt_zpow_iff_log_lt (by norm_num) hx).mp (by exact_mod_cast hk)
  unfold quantum
  omega

/-- A number of at least `10^k` keeps nothing above its first digit. -/
theorem exists_pow_le (hx : 10 ^ k ≤ x) (hprec : 0 < ctx.prec) (hk : ctx.eTiny ≤ k) :
    ∃ j, k ≤ j ∧ (10 : ℚ) ^ j ≤ x ∧ ctx.quantum x ≤ j := by
  have hpos : 0 < x := (ten_zpow_pos k).trans_le hx
  have hlog : k ≤ Int.log 10 |x| := by
    rw [abs_of_pos hpos]
    exact (Int.zpow_le_iff_le_log (by norm_num) hpos).mp (by exact_mod_cast hx)
  refine ⟨Int.log 10 |x|, hlog, ?_, ?_⟩
  · rw [abs_of_pos hpos]
    exact_mod_cast Int.zpow_log_le_self (b := 10) (by norm_num) hpos
  · unfold quantum
    omega

/-- What is at least `10^k` rounds to at least that. -/
theorem pow_le_round (hx : 10 ^ k ≤ x) (hprec : 0 < ctx.prec) (hk : ctx.eTiny ≤ k) :
    10 ^ k ≤ ctx.round x := by
  obtain ⟨j, hkj, hjx, hj⟩ := exists_pow_le hx hprec hk
  have hround : 10 ^ j ≤ ctx.round x := by
    refine le_round hjx ?_
    have h := MultipleOf.pow hj 1
    rwa [Int.cast_one, one_mul] at h
  exact (zpow_le_zpow_right₀ (by norm_num) hkj).trans hround

/-- The exponent of the last digit of a number whose first digit is that below `10^k`. -/
theorem quantum_eq (hx : 10 ^ (k - 1) ≤ x) (hk : x < 10 ^ k) (hprec : ctx.eTiny + ctx.prec ≤ k) :
    ctx.quantum x = k - ctx.prec := by
  have hpos : 0 < x := (ten_zpow_pos _).trans_le hx
  have hlog : Int.log 10 |x| = k - 1 := by
    rw [abs_of_pos hpos]
    have h1 := (Int.zpow_le_iff_le_log (b := 10) (by norm_num) hpos).mp (by exact_mod_cast hx)
    have h2 := (Int.lt_zpow_iff_log_lt (b := 10) (by norm_num) hpos).mp (by exact_mod_cast hk)
    omega
  unfold quantum
  omega

/-- The units of the last digit in `10^k`. -/
theorem pow_eq_units (k : ℤ) (prec : ℕ) : (10 : ℚ) ^ k = (10 ^ prec : ℤ) * 10 ^ (k - prec) := by
  push_cast
  rw [← zpow_natCast, ← zpow_add₀ (by norm_num)]
  congr 1
  omega

/-- A number with fewer digits before its point stays with at most as many. -/
theorem round_le_pow (h0 : 0 ≤ x) (hx : x < 10 ^ (k - 1)) (hprec : 0 < ctx.prec)
    (hk : ctx.eTiny + ctx.prec ≤ k) : ctx.round x ≤ 10 ^ (k - 1) := by
  rcases h0.eq_or_lt with rfl | hpos
  · rw [round_zero]
    exact (ten_zpow_pos _).le
  · refine round_le hx.le ?_
    have hle : (10 : ℚ) ^ (k - 1) ≤ 10 ^ k := zpow_le_zpow_right₀ (by norm_num) (by omega)
    have hquantum := quantum_le hpos (hx.trans_le hle) hk
    have h := MultipleOf.pow (show ctx.quantum x ≤ k - 1 by omega) 1
    rwa [Int.cast_one, one_mul] at h

theorem pow_eq_step (k : ℤ) : (10 : ℚ) ^ k = 10 * 10 ^ (k - 1) := by
  rw [← zpow_one_add₀ (by norm_num)]
  congr 1
  omega

/-- The unit of the last digit is at most that of the first. -/
theorem unit_le (k : ℤ) {prec : ℕ} (hprec : 0 < prec) : (10 : ℚ) ^ (k - prec) ≤ 10 ^ (k - 1) :=
  zpow_le_zpow_right₀ (by norm_num) (by omega)

/-- A number whose first digit is that below `10^k`, in units of its last digit. -/
theorem round_eq_units (hx : 10 ^ (k - 1) ≤ x) (hk : x < 10 ^ k)
    (hprec : ctx.eTiny + ctx.prec ≤ k) :
    ctx.round x = roundHalfEven (x / 10 ^ (k - ctx.prec : ℤ)) * 10 ^ (k - ctx.prec : ℤ) := by
  unfold round
  rw [quantum_eq hx hk hprec]

/-- **Half a unit below a power of ten** the numbers begin that round up to it. -/
theorem round_lt_iff (h0 : 0 ≤ x) (hprec : 0 < ctx.prec) (hk : ctx.eTiny + ctx.prec ≤ k) :
    ctx.round x < 10 ^ k ↔ x < 10 ^ k - 10 ^ (k - ctx.prec) / 2 := by
  have hunit : (0 : ℚ) < 10 ^ (k - ctx.prec) := ten_zpow_pos _
  have hpow := pow_eq_units k ctx.prec
  rcases lt_or_ge x (10 ^ (k - 1)) with hsmall | hlarge
  · have hround := round_le_pow h0 hsmall hprec hk
    have hstep := pow_eq_step k
    have hless := unit_le k hprec
    constructor
    · intro _
      linarith
    · intro _
      linarith
  · rcases lt_or_ge x (10 ^ k) with hbelow | habove
    · rw [round_eq_units hlarge hbelow hk, hpow, mul_lt_mul_iff_left₀ hunit, Int.cast_lt]
      constructor
      · intro hlt
        by_contra hge
        have hhalf : ((10 ^ ctx.prec : ℤ) : ℚ) - 1 / 2 ≤ x / 10 ^ (k - ctx.prec : ℤ) := by
          rw [le_div_iff₀ hunit]
          linarith
        have heven : Even (10 ^ ctx.prec : ℤ) := Even.pow_of_ne_zero (by decide) (by omega)
        have hup := roundHalfEven_mono hhalf
        rw [roundHalfEven_sub_half heven] at hup
        omega
      · intro hlt
        have hhalf : x / 10 ^ (k - ctx.prec : ℤ) < ((10 ^ ctx.prec : ℤ) : ℚ) - 1 / 2 := by
          rw [div_lt_iff₀ hunit]
          linarith
        have hup := roundHalfEven_le (x / 10 ^ (k - ctx.prec : ℤ))
        have hlt' : (roundHalfEven (x / 10 ^ (k - ctx.prec : ℤ)) : ℚ) < ((10 ^ ctx.prec : ℤ) : ℚ) := by
          linarith
        exact_mod_cast hlt'
    · refine iff_of_false (not_lt.mpr (pow_le_round habove hprec (by omega))) ?_
      linarith

/-- What rounds below a power of ten is a unit below it. -/
theorem round_le_pred (h0 : 0 ≤ x) (hprec : 0 < ctx.prec) (hk : ctx.eTiny + ctx.prec ≤ k)
    (h : ctx.round x < 10 ^ k) : ctx.round x ≤ 10 ^ k - 10 ^ (k - ctx.prec) := by
  have hunit : (0 : ℚ) < 10 ^ (k - ctx.prec) := ten_zpow_pos _
  have hpow := pow_eq_units k ctx.prec
  rcases lt_or_ge x (10 ^ (k - 1)) with hsmall | hlarge
  · have hround := round_le_pow h0 hsmall hprec hk
    have hstep := pow_eq_step k
    have hless := unit_le k hprec
    have hpos := ten_zpow_pos (k - 1)
    linarith
  · rcases lt_or_ge x (10 ^ k) with hbelow | habove
    · have hround := round_eq_units hlarge hbelow hk
      rw [hround, hpow, mul_lt_mul_iff_left₀ hunit, Int.cast_lt] at h
      have hpred : (roundHalfEven (x / 10 ^ (k - ctx.prec : ℤ)) : ℚ) ≤ (10 ^ ctx.prec : ℤ) - 1 := by
        exact_mod_cast Int.le_sub_one_of_lt h
      rw [hround, hpow]
      nlinarith
    · exact absurd h (not_lt.mpr (pow_le_round habove hprec (by omega)))

end Rounding

/-! ## 4. Overflow and quantization -/

section Finish

variable {ctx : DecimalContext} {q x m : ℚ} {k : ℤ} {d : DecimalValue}

/-- A result that keeps its digits below the largest exponent. -/
theorem finish_of_lt (hmax : 0 ≤ ctx.eMax) (h : |ctx.round q| < 10 ^ (ctx.eMax + 1)) :
    ctx.finish q = .ok (.finite (ctx.round q)) := by
  refine if_pos ?_
  rcases (abs_nonneg (ctx.round q)).eq_or_lt with h0 | hpos
  · rw [← h0, Int.log_zero_right]
    exact hmax
  · have hlog := (Int.lt_zpow_iff_log_lt (b := 10) (by norm_num) hpos).mp (by exact_mod_cast h)
    omega

/-- Any other result overflows. -/
theorem finish_of_ge (h : 10 ^ (ctx.eMax + 1) ≤ |ctx.round q|) :
    ctx.finish q = .error .overflow := by
  refine if_neg ?_
  have hpos : 0 < |ctx.round q| := (ten_zpow_pos _).trans_le h
  have hlog := (Int.zpow_le_iff_le_log (b := 10) (by norm_num) hpos).mp (by exact_mod_cast h)
  omega

/-- **Overflow** begins half a unit below the first power of ten that is too large. -/
theorem finish_eq_ok (hprec : 0 < ctx.prec) (hmax : 0 ≤ ctx.eMax)
    (hk : ctx.eTiny + ctx.prec ≤ ctx.eMax + 1) :
    ctx.finish q = .ok d ↔
      |q| < 10 ^ (ctx.eMax + 1) - 10 ^ (ctx.eMax + 1 - ctx.prec) / 2 ∧
        d = .finite (ctx.round q) := by
  rw [← round_lt_iff (abs_nonneg q) hprec hk, ← abs_round]
  rcases lt_or_ge |ctx.round q| (10 ^ (ctx.eMax + 1)) with h | h
  · rw [finish_of_lt hmax h, Except.ok.injEq, eq_comm, and_iff_right h]
  · rw [finish_of_ge h, iff_false_left (by simp)]
    exact fun hex => absurd hex.1 (not_lt.mpr h)

theorem finish_ok_finite (h : ctx.finish q = .ok d) : d = .finite (ctx.round q) := by
  unfold finish at h
  split at h
  · cases h
    rfl
  · cases h

theorem abs_roundHalfEven (q : ℚ) : |roundHalfEven q| = roundHalfEven |q| := by
  have hmono : ∀ a : ℚ, 0 ≤ a → 0 ≤ roundHalfEven a := by
    intro a ha
    have h := roundHalfEven_mono (K := ℚ) ha
    rwa [← Int.cast_zero, roundHalfEven_intCast] at h
  rcases le_total 0 q with h | h
  · rw [abs_of_nonneg h, abs_of_nonneg (hmono q h)]
  · have hneg := hmono (-q) (neg_nonneg.mpr h)
    rw [roundHalfEven_neg] at hneg
    rw [abs_of_nonpos h, roundHalfEven_neg, abs_of_nonpos (by omega)]

/-- A number with at most `prec` digits down to the places is quantized. -/
theorem quantize_of_le {places : ℕ} (h : |m| * 10 ^ places ≤ (10 ^ ctx.prec - 1 : ℤ)) :
    ctx.quantize places (.finite m) = .ok (.finite (roundTo places m)) := by
  refine if_pos ?_
  have habs : |m * 10 ^ places| ≤ ((10 ^ ctx.prec - 1 : ℤ) : ℚ) := by
    rwa [abs_mul, abs_of_pos (pow_pos (by norm_num : (0 : ℚ) < 10) places)]
  have hround := roundHalfEven_mono habs
  rw [roundHalfEven_intCast] at hround
  rw [abs_roundHalfEven]
  omega

/-- A number with more digits is not. -/
theorem quantize_of_ge {places : ℕ} (h : ((10 ^ ctx.prec : ℤ) : ℚ) ≤ |m| * 10 ^ places) :
    ctx.quantize places (.finite m) = .error .invalidOperation := by
  refine if_neg ?_
  have habs : ((10 ^ ctx.prec : ℤ) : ℚ) ≤ |m * 10 ^ places| := by
    rwa [abs_mul, abs_of_pos (pow_pos (by norm_num : (0 : ℚ) < 10) places)]
  have hround := roundHalfEven_mono habs
  rw [roundHalfEven_intCast] at hround
  rw [abs_roundHalfEven]
  omega

theorem quantize_ok_finite {places : ℕ} (h : ctx.quantize places (.finite m) = .ok d) :
    d = .finite (roundTo places m) := by
  simp only [quantize] at h
  split_ifs at h
  cases h
  rfl

/-- `s` places up. -/
theorem pow_mul_pow (k : ℤ) (s : ℕ) : (10 : ℚ) ^ (k - s) * 10 ^ s = 10 ^ k := by
  rw [← zpow_natCast, ← zpow_add₀ (by norm_num), sub_add_cancel]

theorem abs_mul_pow (x : ℚ) (s : ℕ) : |x * 10 ^ s| = |x| * 10 ^ s := by
  rw [abs_mul, abs_of_pos (pow_pos (by norm_num : (0 : ℚ) < 10) s)]

section Scaled

variable {s places : ℕ}

/-- A result scaled by `10^s` and quantized. -/
def scaledQuantize (ctx : DecimalContext) (s places : ℕ) (x : ℚ) :
    Except DecimalSignal DecimalValue := do
  let r ← ctx.finish x
  let m ← ctx.mul r (.finite (10 ^ s))
  ctx.quantize places m

/-- The three operations, one after another. -/
theorem scaledQuantize_eq_ok {v : DecimalValue} :
    scaledQuantize ctx s places x = .ok v ↔
      ctx.finish x = .ok (.finite (ctx.round x)) ∧
      ctx.finish (ctx.round x * 10 ^ s) = .ok (.finite (ctx.round (ctx.round x * 10 ^ s))) ∧
      ctx.quantize places (.finite (ctx.round (ctx.round x * 10 ^ s))) = .ok v := by
  unfold scaledQuantize
  constructor
  · intro h
    cases hr : ctx.finish x with
    | error e =>
      rw [hr] at h
      cases h
    | ok r =>
      obtain rfl := finish_ok_finite hr
      rw [hr] at h
      change (ctx.finish (ctx.round x * 10 ^ s) >>= ctx.quantize places) = .ok v at h
      cases hm : ctx.finish (ctx.round x * 10 ^ s) with
      | error e =>
        rw [hm] at h
        cases h
      | ok m =>
        obtain rfl := finish_ok_finite hm
        rw [hm] at h
        exact ⟨rfl, rfl, h⟩
  · intro hex
    obtain ⟨hr, hm, hq⟩ := hex
    rw [hr]
    change (ctx.finish (ctx.round x * 10 ^ s) >>= ctx.quantize places) = .ok v
    rw [hm]
    exact hq

/-- A result with too many digits before its point is not quantized, or overflows before. -/
theorem scaledQuantize_of_ge (hprec : 0 < ctx.prec) (hk : ctx.eTiny ≤ (ctx.prec : ℤ) - places)
    (h : 10 ^ ((ctx.prec : ℤ) - places - s) ≤ |ctx.round x|) (v : DecimalValue) :
    scaledQuantize ctx s places x ≠ .ok v := by
  intro hv
  obtain ⟨-, -, hq⟩ := scaledQuantize_eq_ok.1 hv
  have hpos : (0 : ℚ) < 10 ^ s := pow_pos (by norm_num) s
  have hpos' : (0 : ℚ) < 10 ^ places := pow_pos (by norm_num) places
  have hlarge : (10 : ℚ) ^ ((ctx.prec : ℤ) - places) ≤ |ctx.round x * 10 ^ s| := by
    rw [abs_mul_pow, ← pow_mul_pow _ s]
    exact mul_le_mul_of_nonneg_right h hpos.le
  have hround := pow_le_round hlarge hprec hk
  rw [← abs_round] at hround
  rw [quantize_of_ge] at hq
  · cases hq
  · push_cast
    rw [← zpow_natCast, ← pow_mul_pow _ places]
    exact mul_le_mul_of_nonneg_right hround hpos'.le

/-- The power that has no room for the places, in units of the last place. -/
theorem pow_eq_places (prec places : ℕ) :
    (10 : ℚ) ^ ((prec : ℤ) - places) = ((10 ^ prec : ℤ) : ℚ) * 10 ^ (-(places : ℤ)) := by
  push_cast
  rw [← zpow_natCast, ← zpow_add₀ (by norm_num), sub_eq_add_neg]

/-- A result below that power is a unit below it, and so is the result after it. -/
theorem round_scaled_le (hprec : 0 < ctx.prec) (hk : ctx.eTiny ≤ -(places : ℤ) - s)
    (h : |ctx.round x| < 10 ^ ((ctx.prec : ℤ) - places - s)) :
    |ctx.round (ctx.round x * 10 ^ s)| ≤ (10 ^ ctx.prec - 1 : ℤ) * 10 ^ (-(places : ℤ)) := by
  have hpos : (0 : ℚ) < 10 ^ s := pow_pos (by norm_num) s
  have hpred : ctx.round |x| ≤ 10 ^ ((ctx.prec : ℤ) - places - s) -
      10 ^ ((ctx.prec : ℤ) - places - s - ctx.prec) :=
    round_le_pred (abs_nonneg x) hprec (by omega) (by rwa [← abs_round])
  have hbound : |ctx.round x * 10 ^ s| < 10 ^ ((ctx.prec : ℤ) - places) := by
    rw [abs_mul_pow, ← pow_mul_pow _ s]
    exact mul_lt_mul_of_pos_right h hpos
  -- a unit below the power, which has no digits below the last place
  have hscaled : |ctx.round x * 10 ^ s| ≤ (10 ^ ctx.prec - 1 : ℤ) * 10 ^ (-(places : ℤ)) := by
    have hmul := mul_le_mul_of_nonneg_right hpred hpos.le
    rw [sub_mul, pow_mul_pow, show (ctx.prec : ℤ) - places - s - ctx.prec = -(places : ℤ) - s by ring,
      pow_mul_pow, pow_eq_places] at hmul
    rw [abs_mul_pow, abs_round]
    push_cast at hmul ⊢
    linarith
  rw [abs_round]
  rcases (abs_nonneg (ctx.round x * 10 ^ s)).eq_or_lt with h0 | hne
  · rw [← h0, round_zero, h0]
    exact hscaled
  · refine round_le hscaled (MultipleOf.pow ?_ _)
    have hquantum : ctx.quantum |ctx.round x * 10 ^ s| ≤ (ctx.prec : ℤ) - places - ctx.prec :=
      quantum_le hne hbound (by omega)
    omega

/-- A result below that power has room for its places. -/
theorem scaledQuantize_of_lt (hprec : 0 < ctx.prec) (hk : ctx.eTiny ≤ -(places : ℤ) - s)
    (hmax : (ctx.prec : ℤ) - places ≤ ctx.eMax) (hmax0 : 0 ≤ ctx.eMax)
    (h : |ctx.round x| < 10 ^ ((ctx.prec : ℤ) - places - s)) :
    ∃ v, scaledQuantize ctx s places x = .ok v := by
  have hround := round_scaled_le hprec hk h
  have hfirst : ctx.finish x = .ok (.finite (ctx.round x)) := by
    refine finish_of_lt hmax0 (h.trans_le (zpow_le_zpow_right₀ (by norm_num) ?_))
    omega
  have hsecond : ctx.finish (ctx.round x * 10 ^ s) =
      .ok (.finite (ctx.round (ctx.round x * 10 ^ s))) := by
    refine finish_of_lt hmax0 ?_
    have hlast : (0 : ℚ) < 10 ^ (-(places : ℤ)) := ten_zpow_pos _
    have hlarge : (10 : ℚ) ^ ((ctx.prec : ℤ) - places) ≤ 10 ^ (ctx.eMax + 1) :=
      zpow_le_zpow_right₀ (by norm_num) (by omega)
    rw [pow_eq_places] at hlarge
    push_cast at hround hlarge
    linarith
  refine ⟨_, scaledQuantize_eq_ok.2 ⟨hfirst, hsecond, quantize_of_le ?_⟩⟩
  have hpos : (0 : ℚ) < 10 ^ places := pow_pos (by norm_num) places
  have hinv : (10 : ℚ) ^ (-(places : ℤ)) = (10 ^ places)⁻¹ := by rw [zpow_neg, zpow_natCast]
  rwa [← le_div_iff₀ hpos, div_eq_mul_inv, ← hinv]

/-- **A result, scaled and quantized.** It has room for its places exactly when it is half a unit of
    its last digit below the power of ten that has none. -/
theorem scaledQuantize_ok_iff (hprec : 0 < ctx.prec) (hk : ctx.eTiny ≤ -(places : ℤ) - s)
    (hmax : (ctx.prec : ℤ) - places ≤ ctx.eMax) (hmax0 : 0 ≤ ctx.eMax) :
    (∃ v, scaledQuantize ctx s places x = .ok v) ↔
      |x| < 10 ^ ((ctx.prec : ℤ) - places - s) - 10 ^ (-(places : ℤ) - s) / 2 := by
  have hbelow : ctx.round |x| < 10 ^ ((ctx.prec : ℤ) - places - s) ↔ |x| <
      10 ^ ((ctx.prec : ℤ) - places - s) - 10 ^ ((ctx.prec : ℤ) - places - s - ctx.prec) / 2 :=
    round_lt_iff (abs_nonneg x) hprec (by omega)
  rw [show (ctx.prec : ℤ) - places - s - ctx.prec = -(places : ℤ) - s by ring, ← abs_round] at hbelow
  rw [← hbelow]
  constructor
  · intro hex
    obtain ⟨v, hv⟩ := hex
    by_contra hge
    exact scaledQuantize_of_ge hprec (by omega) (not_lt.mp hge) v hv
  · exact scaledQuantize_of_lt hprec hk hmax hmax0

end Scaled

end Finish

end DecimalContext

end Basis
