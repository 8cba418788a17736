/-
  File:      BharatTicker/Basis/Slices.lean
  Subject:   A LIST IN SLICES OF ONE LENGTH. Library: no program fact.

  * `slices` -- `[l[i:i + m] for i in range(0, len(l), m)]`;
  * `flatten_slices`, `length_of_mem_slices` -- together they are the list, and none is too long;
  * `existsUnique_slice`, `slice_eq` -- an element of a list without repetitions is in exactly one.
-/
import Mathlib.Data.List.Basic
import Mathlib.Data.List.Nodup
import Mathlib.Data.List.Pairwise

namespace Basis

universe u

variable {α : Type u} {m : ℕ} {l : List α} {a : α}

def slices (m : ℕ) (l : List α) : List (List α) :=
  (List.range ((l.length + m - 1) / m)).map fun k => (l.drop (k * m)).take m

theorem length_of_mem_slices {slice : List α} (h : slice ∈ slices m l) : slice.length ≤ m := by
  obtain ⟨k, -, rfl⟩ := List.mem_map.mp h
  exact List.length_take_le m _

/-- The first slices are the start of the list. -/
theorem flatten_take_slices (m n : ℕ) (l : List α) :
    ((List.range n).map fun k => (l.drop (k * m)).take m).flatten = l.take (n * m) := by
  induction n with
  | zero => simp
  | succ n ih =>
    rw [List.range_succ, List.map_append, List.flatten_append, ih, Nat.succ_mul, List.take_add]
    simp

/-- **The slices together are the list.** -/
theorem flatten_slices (hm : 0 < m) (l : List α) : (slices m l).flatten = l := by
  unfold slices
  rw [flatten_take_slices]
  refine List.take_of_length_le ?_
  -- the last slice reaches the end
  have hdiv := Nat.div_add_mod (l.length + m - 1) m
  have hmod := Nat.mod_lt (l.length + m - 1) hm
  rw [Nat.mul_comm] at hdiv
  omega

theorem mem_slices_iff (hm : 0 < m) : a ∈ l ↔ ∃ slice ∈ slices m l, a ∈ slice := by
  rw [← List.mem_flatten, flatten_slices hm]

/-- **Two slices with a common element are one.** -/
theorem slice_index_eq (hm : 0 < m) (hl : l.Nodup) {i j : ℕ} {x y : List α}
    (hi : (slices m l)[i]? = some x) (hj : (slices m l)[j]? = some y) (hx : a ∈ x) (hy : a ∈ y) :
    i = j := by
  have hnodup : (slices m l).flatten.Nodup := by rwa [flatten_slices hm]
  have hdisjoint := (List.nodup_flatten.mp hnodup).2
  obtain ⟨hi', rfl⟩ := List.getElem?_eq_some_iff.mp hi
  obtain ⟨hj', rfl⟩ := List.getElem?_eq_some_iff.mp hj
  have hpair := List.pairwise_iff_getElem.mp hdisjoint
  rcases Nat.lt_trichotomy i j with h | h | h
  · exact absurd hy (hpair i j hi' hj' h hx)
  · exact h
  · exact absurd hx (hpair j i hj' hi' h hy)

theorem slice_eq (hm : 0 < m) (hl : l.Nodup) {x y : List α} (hx : x ∈ slices m l)
    (hy : y ∈ slices m l) (hax : a ∈ x) (hay : a ∈ y) : x = y := by
  obtain ⟨i, hi⟩ := List.mem_iff_getElem?.mp hx
  obtain ⟨j, hj⟩ := List.mem_iff_getElem?.mp hy
  have hij := slice_index_eq hm hl hi hj hax hay
  rw [hij, hj] at hi
  exact (Option.some.inj hi).symm

/-- **An element of a list without repetitions is in exactly one slice.** -/
theorem existsUnique_slice (hm : 0 < m) (hl : l.Nodup) (ha : a ∈ l) :
    ∃! i : ℕ, ∃ slice, (slices m l)[i]? = some slice ∧ a ∈ slice := by
  obtain ⟨slice, hslice, hmem⟩ := (mem_slices_iff hm).mp ha
  obtain ⟨i, hi⟩ := List.mem_iff_getElem?.mp hslice
  refine ⟨i, ⟨slice, hi, hmem⟩, ?_⟩
  rintro j ⟨slice', hj, hmem'⟩
  exact slice_index_eq hm hl hj hi hmem' hmem

end Basis
