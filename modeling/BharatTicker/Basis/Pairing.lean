/-
  File:      BharatTicker/Basis/Pairing.lean
  Subject:   A FILTERED LIST BESIDE THE WHOLE ONE. Library: no program fact.

  A loop over `zip` pairs the entries of two lists by their places. Where one list is what a filter has
  left of the other, the pairs are of different entries as soon as something was filtered out.

  * `zip_findIdx` -- the place at which a search in the first list of a `zip` stops;
  * `filter_split`, `filter_findIdx` -- the place of the same search in the filtered list;
  * `pairing_iff` -- the two are the same exactly where nothing was filtered out before;
  * `mem_dropWhile`, `head_of_convex` -- the entries that are looked for stand together in an ordered
    list.
-/
import Mathlib

namespace Basis

universe u v

variable {α : Type u} {β : Type v}

/-- The loop over the pairs stops behind the entries that are not looked for. -/
theorem zip_findIdx {l : List α} {m : List β} (q : α → Bool) (h : m.length ≤ l.length) :
    (l.zip m).findIdx? (fun p => q p.1) =
      if (l.takeWhile fun a => !q a).length < m.length then some (l.takeWhile fun a => !q a).length
      else none := by
  induction l generalizing m with
  | nil =>
    obtain rfl : m = [] := List.eq_nil_of_length_eq_zero (Nat.le_zero.mp h)
    rfl
  | cons a l ih =>
    cases m with
    | nil => simp
    | cons b m =>
      rw [List.zip_cons_cons, List.findIdx?_cons, List.takeWhile_cons]
      cases q a with
      | true => simp
      | false =>
        rw [ih (Nat.le_of_succ_le_succ h)]
        by_cases hlt : (l.takeWhile fun a => !q a).length < m.length
        · simp [hlt]
        · simp [hlt]

section Filter

variable {l : List α} {q keep : α → Bool}

/-- What a filter leaves before the first entry that is looked for, and from there on. -/
theorem filter_split (l : List α) (q keep : α → Bool) :
    l.filter keep = (l.takeWhile fun a => !q a).filter keep ++ (l.dropWhile fun a => !q a).filter keep := by
  rw [← List.filter_append, List.takeWhile_append_dropWhile]

/-- Where the first entry that is kept from there on is looked for, a search in the filtered list stops at
    it. -/
theorem filter_findIdx {b : α} (hb : ((l.dropWhile fun a => !q a).filter keep).head? = some b)
    (hq : q b = true) :
    (l.filter keep).findIdx? q = some ((l.takeWhile fun a => !q a).filter keep).length := by
  have hnone : ((l.takeWhile fun a => !q a).filter keep).findIdx? q = none := by
    refine List.findIdx?_eq_none_iff.mpr fun a ha => ?_
    simpa using List.mem_takeWhile_imp (List.mem_of_mem_filter ha)
  obtain ⟨rest, hrest⟩ := List.head?_eq_some_iff.mp hb
  rw [filter_split l q keep, List.findIdx?_append, hnone, Option.none_or, hrest, List.findIdx?_cons,
    if_pos hq]
  simp

/-- **The pairing.** Where an entry that is looked for is kept, and so is no other one from the first such
    entry up to it, the loop over the pairs stops at its place exactly where nothing was filtered out
    before. Where none is kept, it stops nowhere exactly where the filtered list has ended there. -/
theorem pairing_iff
    (hfirst : (∃ a ∈ l, keep a = true ∧ q a = true) →
      ∃ b, ((l.dropWhile fun a => !q a).filter keep).head? = some b ∧ q b = true) :
    (l.zip (l.filter keep)).findIdx? (fun p => q p.1) = (l.filter keep).findIdx? q ↔
      ((∃ a ∈ l, keep a = true ∧ q a = true) → ∀ a ∈ l.takeWhile fun a => !q a, keep a = true) ∧
      ((∀ a ∈ l, keep a = true → q a = false) →
        (l.filter keep).length ≤ (l.takeWhile fun a => !q a).length) := by
  rw [zip_findIdx q (List.length_filter_le keep l)]
  by_cases hex : ∃ a ∈ l, keep a = true ∧ q a = true
  · obtain ⟨b, hb, hq⟩ := hfirst hex
    have hno : ¬ ∀ a ∈ l, keep a = true → q a = false := by
      intro h
      obtain ⟨a, ha, hk, hqa⟩ := hex
      rw [h a ha hk] at hqa
      cases hqa
    have hplace := filter_findIdx hb hq
    -- the filtered list does not end before it
    have hlt : ((l.takeWhile fun a => !q a).filter keep).length < (l.filter keep).length := by
      obtain ⟨rest, hrest⟩ := List.head?_eq_some_iff.mp hb
      have hlen := congrArg List.length (filter_split l q keep)
      rw [hrest, List.length_append, List.length_cons] at hlen
      omega
    have hall : (∀ a ∈ l.takeWhile fun a => !q a, keep a = true) ↔
        (l.takeWhile fun a => !q a).length = ((l.takeWhile fun a => !q a).filter keep).length :=
      eq_comm.trans List.length_filter_eq_length_iff |>.symm
    rw [hplace, hall]
    refine Iff.trans ?_ ⟨fun h => ⟨fun _ => h, fun h' => absurd h' hno⟩, fun h => h.1 hex⟩
    refine ⟨fun h => ?_, fun h => ?_⟩
    · split at h
      · exact Option.some.inj h
      · cases h
    · rw [if_pos (h.trans_lt hlt), h]
  · have hno : ∀ a ∈ l, keep a = true → q a = false := fun a ha hk =>
      Bool.eq_false_iff.mpr fun hq => hex ⟨a, ha, hk, hq⟩
    have hnone : (l.filter keep).findIdx? q = none :=
      List.findIdx?_eq_none_iff.mpr fun a ha =>
        hno a (List.mem_of_mem_filter ha) (List.of_mem_filter ha)
    rw [hnone]
    refine Iff.trans ?_ ⟨fun h => ⟨fun h' => absurd h' hex, fun _ => h⟩, fun h => h.2 hno⟩
    simp

end Filter

/-! ## Ordered lists -/

section Convex

variable {R : α → α → Prop} {l : List α} {q keep : α → Bool}

theorem mem_dropWhile {a : α} (ha : a ∈ l) (hq : q a = true) : a ∈ l.dropWhile fun a => !q a := by
  rw [← List.takeWhile_append_dropWhile (p := fun a => !q a) (l := l)] at ha
  rcases List.mem_append.mp ha with h | h
  · have hnot := List.mem_takeWhile_imp h
    rw [hq] at hnot
    cases hnot
  · exact h

theorem head_dropWhile {a : α} {rest : List α} (h : (l.dropWhile fun a => !q a) = a :: rest) :
    q a = true := by
  have hhead := List.head?_dropWhile_not (fun a => !q a) l
  rw [h] at hhead
  simpa using hhead

/-- **Where what stands between two entries that are looked for is looked for as well**, the first entry
    that is kept, from the first one on, is one of them, if one of them is kept at all. -/
theorem head_of_convex (hl : l.Pairwise R)
    (hconvex : ∀ {c d e}, R c d → R d e → q c = true → q e = true → q d = true)
    (hex : ∃ a ∈ l, keep a = true ∧ q a = true) :
    ∃ b, ((l.dropWhile fun a => !q a).filter keep).head? = some b ∧ q b = true := by
  obtain ⟨a, ha, hk, hq⟩ := hex
  have hmem := mem_dropWhile ha hq
  have hrest : (l.dropWhile fun a => !q a).Pairwise R := hl.sublist (List.dropWhile_sublist _)
  cases hd : l.dropWhile fun a => !q a with
  | nil =>
    rw [hd] at hmem
    cases hmem
  | cons c rest =>
    have hc : q c = true := head_dropWhile hd
    rw [hd] at hmem hrest
    have hkept : a ∈ (c :: rest).filter keep := List.mem_filter.mpr ⟨hmem, hk⟩
    cases hf : (c :: rest).filter keep with
    | nil =>
      rw [hf] at hkept
      cases hkept
    | cons b others =>
      refine ⟨b, rfl, ?_⟩
      have hb : b ∈ c :: rest := by
        refine List.mem_of_mem_filter (p := keep) ?_
        rw [hf]
        exact List.mem_cons_self
      have hsorted : (b :: others).Pairwise R := by
        rw [← hf]
        exact hrest.filter keep
      rw [hf] at hkept
      -- the first of all is looked for; the first that is kept stands between it and `a`
      rcases List.mem_cons.mp hb with rfl | hb
      · exact hc
      · rcases List.mem_cons.mp hkept with rfl | ha'
        · exact hq
        · exact hconvex ((List.pairwise_cons.mp hrest).1 b hb)
            ((List.pairwise_cons.mp hsorted).1 a ha') hc hq

end Convex

end Basis
