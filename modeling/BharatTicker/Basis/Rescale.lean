/-
  File:      BharatTicker/Basis/Rescale.lean
  Subject:   RESCALING IN STEPS, rounded at every step. Library: no program fact.

  A value that is divided by several factors one after another and rounded each time, and a count that
  is multiplied by them and cut to an integer each time.

  * `divRounded` -- the value; `abs_divRounded_sub_lt`: where every factor is at least two, it is off
    by less than a unit of the last decimal, however many steps there are;
  * `truncate`, `mulTruncated` -- the count; `mulTruncated_intCast`: exact for an integer and integer
    factors; `le_mulTruncated`, `mulTruncated_le`: off by less than the rescaled unit otherwise.
-/
import BharatTicker.Basis.Rounding

namespace Basis

variable {K : Type*} [Field K] [LinearOrder K] [FloorRing K]

/-! ## 1. Values -/

/-- Division by the factors, each result rounded to `d` decimals. -/
def divRounded (d : ℕ) (x : K) (factors : List K) : K :=
  factors.foldl (fun x f => roundTo d (x / f)) x

theorem divRounded_concat (d : ℕ) (x : K) (factors : List K) (f : K) :
    divRounded d x (factors ++ [f]) = roundTo d (divRounded d x factors / f) :=
  List.foldl_concat ..

/-! ## 2. Counts -/

/-- `int(q)`: cut towards zero. -/
def truncate (q : K) : ℤ := if 0 ≤ q then ⌊q⌋ else ⌈q⌉

theorem truncate_of_nonneg {q : K} (hq : 0 ≤ q) : truncate q = ⌊q⌋ := if_pos hq

/-- Multiplication by the factors, each result cut to an integer. -/
def mulTruncated (v : K) (factors : List K) : K :=
  factors.foldl (fun v f => (truncate (v * f) : K)) v

theorem mulTruncated_concat (v : K) (factors : List K) (f : K) :
    mulTruncated v (factors ++ [f]) = truncate (mulTruncated v factors * f) :=
  List.foldl_concat ..

variable [IsStrictOrderedRing K]

@[simp] theorem truncate_intCast (n : ℤ) : truncate (n : K) = n := by
  unfold truncate
  split_ifs <;> simp

/-! ## 3. How far the steps lead off -/

section Values

variable {d : ℕ} {factors : List K}

theorem prod_pos_of_two_le (h : ∀ f ∈ factors, 2 ≤ f) : 0 < factors.prod :=
  List.prod_pos fun f hf => zero_lt_two.trans_le (h f hf)

/-- **The errors do not add up**: what a step rounds off is divided by the next factor, so that all of them
    together stay below a unit of the last decimal. -/
theorem abs_divRounded_sub_lt (x : K) (h : ∀ f ∈ factors, 2 ≤ f) :
    |divRounded d x factors - x / factors.prod| < 1 / 10 ^ d := by
  induction factors using List.reverseRecOn with
  | nil => simp [divRounded]
  | append_singleton factors f ih =>
    have hf : 2 ≤ f := h f (by simp)
    have hfpos : 0 < f := zero_lt_two.trans_le hf
    have hbefore := ih fun g hg => h g (List.mem_append_left _ hg)
    -- the error of before, divided by the factor
    have hdivided : |divRounded d x factors / f - x / (factors ++ [f]).prod| < 1 / 10 ^ d / 2 := by
      have e : divRounded d x factors / f - x / (factors ++ [f]).prod =
          (divRounded d x factors - x / factors.prod) / f := by
        rw [List.prod_append, List.prod_singleton, ← div_div, sub_div]
      rw [e, abs_div, abs_of_pos hfpos]
      calc |divRounded d x factors - x / factors.prod| / f
          ≤ |divRounded d x factors - x / factors.prod| / 2 :=
            div_le_div_of_nonneg_left (abs_nonneg _) zero_lt_two hf
        _ < 1 / 10 ^ d / 2 := div_lt_div_of_pos_right hbefore zero_lt_two
    have hround := abs_roundTo_sub_le d (divRounded d x factors / f)
    rw [divRounded_concat]
    calc |roundTo d (divRounded d x factors / f) - x / (factors ++ [f]).prod|
        ≤ |roundTo d (divRounded d x factors / f) - divRounded d x factors / f| +
          |divRounded d x factors / f - x / (factors ++ [f]).prod| := abs_sub_le _ _ _
      _ < 1 / 2 / 10 ^ d + 1 / 10 ^ d / 2 := add_lt_add_of_le_of_lt hround hdivided
      _ = 1 / 10 ^ d := by ring

/-- The steps are monotone. -/
theorem divRounded_mono (d : ℕ) (h : ∀ f ∈ factors, 0 ≤ f) :
    Monotone fun x : K => divRounded d x factors := by
  intro x y hxy
  dsimp only
  induction factors using List.reverseRecOn with
  | nil => exact hxy
  | append_singleton factors f ih =>
    rw [divRounded_concat, divRounded_concat]
    exact roundTo_mono d (div_le_div_of_nonneg_right (ih fun g hg => h g (List.mem_append_left _ hg))
      (h f (by simp)))

end Values

section Counts

variable {factors : List K}

/-- **Integer factors lose nothing of an integer.** -/
theorem mulTruncated_intCast (v : ℤ) (h : ∀ f ∈ factors, ∃ n : ℤ, (n : K) = f) :
    mulTruncated (v : K) factors = v * factors.prod ∧ ∃ n : ℤ, (n : K) = v * factors.prod := by
  induction factors using List.reverseRecOn with
  | nil => exact ⟨by simp [mulTruncated], v, by simp⟩
  | append_singleton factors f ih =>
    obtain ⟨heq, n, hn⟩ := ih fun g hg => h g (List.mem_append_left _ hg)
    obtain ⟨m, rfl⟩ := h f (by simp)
    have hprod : (v : K) * (factors ++ [(m : K)]).prod = ((n * m : ℤ) : K) := by
      rw [List.prod_append, List.prod_singleton, ← mul_assoc, ← hn, Int.cast_mul]
    refine ⟨?_, n * m, hprod.symm⟩
    rw [mulTruncated_concat, heq, ← hn, ← Int.cast_mul, truncate_intCast, hprod]

/-- A count stays a count, and cutting only makes it smaller. -/
theorem mulTruncated_le {v : K} (hv : 0 ≤ v) (h : ∀ f ∈ factors, 0 ≤ f) :
    0 ≤ mulTruncated v factors ∧ mulTruncated v factors ≤ v * factors.prod := by
  induction factors using List.reverseRecOn with
  | nil => simpa [mulTruncated] using hv
  | append_singleton factors f ih =>
    obtain ⟨hnonneg, hle⟩ := ih fun g hg => h g (List.mem_append_left _ hg)
    have hf : 0 ≤ f := h f (by simp)
    have hprod : 0 ≤ mulTruncated v factors * f := mul_nonneg hnonneg hf
    rw [mulTruncated_concat, truncate_of_nonneg hprod]
    refine ⟨by exact_mod_cast Int.floor_nonneg.mpr hprod, (Int.floor_le _).trans ?_⟩
    rw [List.prod_append, List.prod_singleton, ← mul_assoc]
    exact mul_le_mul_of_nonneg_right hle hf

/-- **What is cut off is less than one, rescaled.** -/
theorem le_mulTruncated {v : K} (hv : 0 ≤ v) (h : ∀ f ∈ factors, 2 ≤ f) :
    (v - 1) * factors.prod + 1 ≤ mulTruncated v factors := by
  induction factors using List.reverseRecOn with
  | nil => simp [mulTruncated]
  | append_singleton factors f ih =>
    have hbefore : ∀ g ∈ factors, 2 ≤ g := fun g hg => h g (List.mem_append_left _ hg)
    have hf : 2 ≤ f := h f (by simp)
    have hle := ih hbefore
    have hnonneg := (mulTruncated_le hv fun g hg => zero_le_two.trans (hbefore g hg)).1
    have hprod : 0 ≤ mulTruncated v factors * f := mul_nonneg hnonneg (zero_le_two.trans hf)
    have hfloor := Int.sub_one_lt_floor (mulTruncated v factors * f)
    have hstep : ((v - 1) * factors.prod + 1) * f ≤ mulTruncated v factors * f :=
      mul_le_mul_of_nonneg_right hle (zero_le_two.trans hf)
    rw [mulTruncated_concat, truncate_of_nonneg hprod, List.prod_append, List.prod_singleton]
    linarith

end Counts

end Basis
