/-
  File:      BharatTicker/Basis/FloatValue.lean
  Subject:   FLOATS BY THEIR VALUES. Library: no program fact.

  A float is a finite number, an infinity or not a number. Finite numbers are exact: no result is
  rounded to a significand, and the sign of a zero is not kept. Comparison and `max` are Python's: a
  comparison with `nan` is false, and `max a b` keeps `a` unless `b` is greater.

  * `FloatValue`, `lt`, `max` -- the numbers and their comparison;
  * `max_eq_finite`, `not_max_lt` -- a floor;
  * `lt_finite_mono` -- a comparison with a greater number.
-/
import BharatTicker.Basis.Rounding

namespace Basis

inductive FloatValue where
  | finite (q : ℚ)
  | infinity (negative : Bool)
  | nan
  deriving DecidableEq, Repr

namespace FloatValue

/-- `x < y`. -/
def lt : FloatValue → FloatValue → Bool
  | .finite a, .finite b => a < b
  | .finite _, .infinity negative => !negative
  | .infinity negative, .finite _ => negative
  | .infinity negative, .infinity negative' => negative && !negative'
  | .nan, _ | _, .nan => false

/-- `max(x, y)`. -/
def max (x y : FloatValue) : FloatValue := if x.lt y then y else x

/-- `min(x, y)`. -/
def min (x y : FloatValue) : FloatValue := if y.lt x then y else x

/-- The sign, where there is one. -/
def isNegative : FloatValue → Bool
  | .finite q => q < 0
  | .infinity negative => negative
  | .nan => false

def add : FloatValue → FloatValue → FloatValue
  | .nan, _ | _, .nan => .nan
  | .finite a, .finite b => .finite (a + b)
  | .finite _, .infinity negative | .infinity negative, .finite _ => .infinity negative
  | .infinity negative, .infinity negative' =>
    if negative = negative' then .infinity negative else .nan

def neg : FloatValue → FloatValue
  | .finite q => .finite (-q)
  | .infinity negative => .infinity !negative
  | .nan => .nan

def sub (x y : FloatValue) : FloatValue := x.add y.neg

def mul (x y : FloatValue) : FloatValue :=
  match x, y with
  | .nan, _ | _, .nan => .nan
  | .finite a, .finite b => .finite (a * b)
  | x, y =>
    if x = .finite 0 ∨ y = .finite 0 then .nan else .infinity (xor x.isNegative y.isNegative)

/-- `x / y` for a `y` that is not zero; at zero, where Python raises, it is no number. -/
def div (x y : FloatValue) : FloatValue :=
  match x, y with
  | .nan, _ | _, .nan | .infinity _, .infinity _ => .nan
  | .finite a, .finite b => if b = 0 then .nan else .finite (a / b)
  | .finite _, .infinity _ => .finite 0
  | .infinity negative, .finite b =>
    if b = 0 then .nan else .infinity (xor negative (b < 0))

/-- `round(x, d)`. -/
def round (d : ℕ) : FloatValue → FloatValue
  | .finite q => .finite (roundTo d q)
  | x => x

@[simp] theorem finite_lt_finite {a b : ℚ} : (finite a).lt (finite b) = true ↔ a < b :=
  decide_eq_true_iff

theorem lt_finite_mono {x : FloatValue} {a b : ℚ} (h : x.lt (finite a) = true) (hab : a ≤ b) :
    x.lt (finite b) = true := by
  cases x with
  | finite q => exact finite_lt_finite.2 ((finite_lt_finite.1 h).trans_le hab)
  | infinity negative => exact h
  | nan => exact h

/-- A floor is no number only where the other number is above it. -/
theorem max_eq_finite {a q : ℚ} {x : FloatValue} (h : max (finite a) x = finite q) : a ≤ q := by
  unfold max at h
  split at h
  · rename_i hlt
    rw [h] at hlt
    exact (finite_lt_finite.1 hlt).le
  · cases h
    exact le_refl a

/-- Nothing below a floor is above the number with the floor. -/
theorem not_max_lt {a b : ℚ} (x : FloatValue) (hb : b ≤ a) :
    (max (finite a) x).lt (finite b) = false := by
  refine Bool.eq_false_iff.mpr fun h => ?_
  unfold max at h
  split at h
  · rename_i hlt
    cases x with
    | finite q =>
      have h₁ := finite_lt_finite.1 hlt
      have h₂ := finite_lt_finite.1 h
      linarith
    | infinity negative =>
      cases negative with
      | false => cases h
      | true => cases hlt
    | nan => cases h
  · exact absurd (finite_lt_finite.1 h) (not_lt.mpr hb)

end FloatValue

end Basis
