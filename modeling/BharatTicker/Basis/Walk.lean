/-
  File:      BharatTicker/Basis/Walk.lean
  Subject:   THE WALK REFLECTED AT ZERO. Library: no program fact.

  A counter that adds signed steps and never falls below zero.

  * `reflectedWalk` -- where the walk is after some steps;
  * `suffixSums` -- the sums of the steps from some point on, the empty sum included;
  * `isGreatest_reflectedWalk` -- the walk is at the greatest of them;
  * `le_reflectedWalk_iff` -- so it is at a level or above exactly when the steps from some point on
    add up to that much.

  Over any ordered commutative group.
-/
import Mathlib

namespace Basis

variable {G : Type*} [AddCommGroup G]

/-- The sums of the last steps: of none, of one, and so on up to all. -/
def suffixSums (steps : List G) : Set G := {x | ∃ s, s <:+ steps ∧ s.sum = x}

/-- The last steps of one step more: none, or the new one behind the last ones of before. -/
theorem mem_suffixSums_concat {steps : List G} {d x : G} :
    x ∈ suffixSums (steps ++ [d]) ↔ x = 0 ∨ ∃ y ∈ suffixSums steps, x = y + d := by
  constructor
  · intro hx
    obtain ⟨s, hs, rfl⟩ := hx
    rcases List.suffix_concat_iff.mp hs with rfl | ⟨s', rfl, hs'⟩
    · exact .inl List.sum_nil
    · exact .inr ⟨s'.sum, ⟨s', hs', rfl⟩, by simp⟩
  · intro hor
    rcases hor with rfl | ⟨y, ⟨s, hs, rfl⟩, rfl⟩
    · exact ⟨[], List.nil_suffix, List.sum_nil⟩
    · exact ⟨s ++ [d], List.suffix_concat_iff.mpr (.inr ⟨s, rfl, hs⟩), by simp⟩

variable [LinearOrder G]

/-- The walk after the steps, from zero. -/
def reflectedWalk (steps : List G) : G := steps.foldl (fun x d => max 0 (x + d)) 0

theorem reflectedWalk_concat (steps : List G) (d : G) :
    reflectedWalk (steps ++ [d]) = max 0 (reflectedWalk steps + d) := List.foldl_concat ..

/-- **The reflected walk is at the greatest sum of its last steps.** -/
theorem isGreatest_reflectedWalk [IsOrderedAddMonoid G] (steps : List G) :
    IsGreatest (suffixSums steps) (reflectedWalk steps) := by
  induction steps using List.reverseRecOn with
  | nil =>
    refine ⟨⟨[], List.nil_suffix, rfl⟩, fun x hx => ?_⟩
    obtain ⟨s, hs, rfl⟩ := hx
    rw [List.suffix_nil.mp hs]
    exact le_refl _
  | append_singleton steps d ih =>
    obtain ⟨hmem, hmax⟩ := ih
    rw [reflectedWalk_concat]
    refine ⟨mem_suffixSums_concat.2 ?_, fun x hx => ?_⟩
    · rcases max_choice 0 (reflectedWalk steps + d) with h | h
      · exact .inl h
      · exact .inr ⟨_, hmem, h⟩
    · rcases mem_suffixSums_concat.1 hx with rfl | ⟨y, hy, rfl⟩
      · exact le_max_left _ _
      · have hle : y + d ≤ reflectedWalk steps + d := by
          have := hmax hy
          gcongr
        exact hle.trans (le_max_right _ _)

/-- **A level is reached exactly when the last steps, from some point on, add up to it.** -/
theorem le_reflectedWalk_iff [IsOrderedAddMonoid G] {steps : List G} {x : G} :
    x ≤ reflectedWalk steps ↔ ∃ s, s <:+ steps ∧ x ≤ s.sum := by
  obtain ⟨⟨s, hs, hsum⟩, hmax⟩ := isGreatest_reflectedWalk steps
  constructor
  · exact fun h => ⟨s, hs, hsum ▸ h⟩
  · intro hex
    obtain ⟨s', hs', hx⟩ := hex
    exact hx.trans (hmax ⟨s', hs', rfl⟩)

end Basis
