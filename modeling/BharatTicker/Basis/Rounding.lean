/-
  File:      BharatTicker/Basis/Rounding.lean
  Subject:   ROUNDING HALF TO EVEN. Library: no program fact.

  * `roundHalfEven` -- the nearest integer, ties to the even one; `roundHalfEven_mono`,
    `roundHalfEven_neg`, `roundHalfEven_sub_half`;
  * `roundTo d` -- to `d` decimals: `roundTo_mono`, `roundTo_idem`, `abs_roundTo_sub_le`.

  Over any ordered field with a floor.
-/
import Mathlib

namespace Basis

variable {K : Type*} [Field K] [LinearOrder K] [IsStrictOrderedRing K] [FloorRing K]

/-- The nearest integer; a tie goes to the even one. -/
def roundHalfEven (q : K) : ℤ :=
  let r := Int.fract q
  if r < 1 / 2 then ⌊q⌋ else if 1 / 2 < r then ⌊q⌋ + 1 else if Even ⌊q⌋ then ⌊q⌋ else ⌊q⌋ + 1

/-- To `d` decimals. -/
def roundTo (d : ℕ) (q : K) : K := roundHalfEven (q * 10 ^ d) / 10 ^ d

theorem roundHalfEven_le (q : K) : (roundHalfEven q : K) ≤ q + 1 / 2 := by
  have hq : (⌊q⌋ : K) + Int.fract q = q := Int.floor_add_fract q
  have h0 : 0 ≤ Int.fract q := Int.fract_nonneg q
  unfold roundHalfEven
  dsimp only
  split_ifs with h1 h2 h3
  · linarith
  · push_cast
    linarith
  · linarith
  · push_cast
    linarith

theorem le_roundHalfEven (q : K) : q - 1 / 2 ≤ (roundHalfEven q : K) := by
  have hq : (⌊q⌋ : K) + Int.fract q = q := Int.floor_add_fract q
  have h0 : Int.fract q < 1 := Int.fract_lt_one q
  unfold roundHalfEven
  dsimp only
  split_ifs with h1 h2 h3
  · linarith
  · push_cast
    linarith
  · linarith
  · push_cast
    linarith

@[simp] theorem roundHalfEven_intCast (n : ℤ) : roundHalfEven (n : K) = n := by
  have h : (0 : K) < 1 / 2 := by norm_num
  simp [roundHalfEven]

/-- An even shift changes no parity. -/
theorem roundHalfEven_add_even (q : K) {n : ℤ} (hn : Even n) :
    roundHalfEven (q + n) = roundHalfEven q + n := by
  unfold roundHalfEven
  simp only [Int.fract_add_intCast, Int.floor_add_intCast, Int.even_add, hn, iff_true]
  split_ifs <;> ring

/-- **Rounding is monotone**: two values that round the wrong way around lie a whole step apart. -/
theorem roundHalfEven_mono : Monotone (roundHalfEven : K → ℤ) := by
  intro a b hab
  by_contra hlt
  have hstep : (roundHalfEven b : K) + 1 ≤ roundHalfEven a := by exact_mod_cast not_le.mp hlt
  have ha := roundHalfEven_le a
  have hb := le_roundHalfEven b
  have e : a = b := by linarith
  exact hlt (by rw [e])

/-- Rounding is symmetric. -/
theorem roundHalfEven_neg (q : K) : roundHalfEven (-q) = -roundHalfEven q := by
  by_cases h0 : Int.fract q = 0
  · obtain ⟨n, rfl⟩ := Int.fract_eq_zero_iff.mp h0
    rw [← Int.cast_neg, roundHalfEven_intCast, roundHalfEven_intCast]
  · have hfract : Int.fract (-q) = 1 - Int.fract q := Int.fract_neg h0
    have hfloor : ⌊-q⌋ = -⌊q⌋ - 1 := by
      have h1 := Int.floor_add_fract q
      have h2 := Int.floor_add_fract (-q)
      rw [hfract] at h2
      have h3 : ((⌊-q⌋ : ℤ) : K) = ((-⌊q⌋ - 1 : ℤ) : K) := by
        push_cast
        linarith
      exact_mod_cast h3
    have hparity : Even (-⌊q⌋ - 1) ↔ ¬ Even ⌊q⌋ := by
      rw [Int.even_sub, even_neg]
      simp
    unfold roundHalfEven
    simp only [hfract, hfloor, hparity]
    rcases lt_trichotomy (Int.fract q) (1 / 2) with h | h | h
    · rw [if_neg (by linarith), if_pos (by linarith), if_pos h]
      ring
    · have h' : 1 - Int.fract q = 1 / 2 := by linarith
      rw [h', h]
      simp only [lt_self_iff_false, if_false]
      by_cases he : Even ⌊q⌋
      · rw [if_neg (not_not.mpr he), if_pos he]
        ring
      · rw [if_pos he, if_neg he]
        ring
    · rw [if_pos (by linarith), if_neg (by linarith), if_pos h]
      ring

/-- Half way below an even integer rounds up to it. -/
theorem roundHalfEven_sub_half {n : ℤ} (hn : Even n) : roundHalfEven ((n : K) - 1 / 2) = n := by
  have hhalf : roundHalfEven (-(1 / 2) : K) = 0 := by
    rw [roundHalfEven_neg, neg_eq_zero]
    have hfloor : ⌊(1 / 2 : K)⌋ = 0 := by
      rw [Int.floor_eq_zero_iff]
      constructor <;> norm_num
    have hfract : Int.fract (1 / 2 : K) = 1 / 2 := by
      rw [Int.fract, hfloor]
      simp
    unfold roundHalfEven
    simp only [hfract, hfloor]
    simp
  rw [show (n : K) - 1 / 2 = -(1 / 2) + n by ring, roundHalfEven_add_even _ hn, hhalf, zero_add]

theorem roundTo_mono (d : ℕ) : Monotone (roundTo d : K → K) := by
  intro a b hab
  have h10 : (0 : K) < 10 ^ d := by positivity
  have hle : a * 10 ^ d ≤ b * 10 ^ d := mul_le_mul_of_nonneg_right hab h10.le
  have hint : (roundHalfEven (a * 10 ^ d) : K) ≤ roundHalfEven (b * 10 ^ d) := by
    exact_mod_cast roundHalfEven_mono hle
  exact div_le_div_of_nonneg_right hint h10.le

/-- Half a unit of the last decimal is the most that rounding moves. -/
theorem abs_roundTo_sub_le (d : ℕ) (q : K) : |roundTo d q - q| ≤ 1 / 2 / 10 ^ d := by
  have h10 : (0 : K) < 10 ^ d := by positivity
  have hle := roundHalfEven_le (q * 10 ^ d)
  have hge := le_roundHalfEven (q * 10 ^ d)
  have hscaled : roundTo d q - q = (roundHalfEven (q * 10 ^ d) - q * 10 ^ d) / 10 ^ d := by
    unfold roundTo
    field_simp
  rw [hscaled, abs_div, abs_of_pos h10]
  refine div_le_div_of_nonneg_right (abs_le.mpr ⟨?_, ?_⟩) h10.le
  · linarith
  · linarith

@[simp] theorem roundTo_idem (d : ℕ) (q : K) : roundTo d (roundTo d q) = roundTo d q := by
  have h10 : (10 : K) ^ d ≠ 0 := by positivity
  have e : roundTo d q * 10 ^ d = (roundHalfEven (q * 10 ^ d) : K) := div_mul_cancel₀ _ h10
  rw [show roundTo d (roundTo d q) = roundHalfEven (roundTo d q * 10 ^ d) / 10 ^ d from rfl, e,
    roundHalfEven_intCast]
  rfl

end Basis
