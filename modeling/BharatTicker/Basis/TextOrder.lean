/-
  File:      BharatTicker/Basis/TextOrder.lean
  Subject:   THE ORDER OF TEXTS AND OF NUMBERS. Library: no program fact.

  Texts are compared from the left, and a beginning of a text is before it. Texts of digits of one
  length are in the order of their numbers.

  * `append_lt_append_iff` -- texts with parts of one length in front;
  * `take_lt_or_eq`, `take_eq_of_between` -- the beginnings of texts;
  * `positional` -- the number of a list of digits, in any base;
  * `positional_append`, `positional_take` -- its parts;
  * `positional_lt_iff`, `positional_inj` -- the order of texts is that of the numbers.
-/
import Mathlib

namespace Basis

universe u

variable {α : Type u}

/-! ## 1. The order of texts -/

section Order

variable [LinearOrder α]

/-- **Texts whose first parts have one length** are compared by these, and by the rest where these are
    the same. -/
theorem append_lt_append_iff {a b x y : List α} (h : a.length = b.length) :
    a ++ x < b ++ y ↔ a < b ∨ a = b ∧ x < y := by
  induction a generalizing b with
  | nil =>
    obtain rfl : b = [] := List.eq_nil_of_length_eq_zero h.symm
    simp
  | cons c a ih =>
    cases b with
    | nil => cases h
    | cons d b =>
      rw [List.cons_append, List.cons_append, List.cons_lt_cons_iff, List.cons_lt_cons_iff,
        ih (Nat.succ.inj h), List.cons.injEq]
      constructor
      · rintro (hlt | ⟨rfl, hlt | ⟨rfl, hxy⟩⟩)
        · exact .inl (.inl hlt)
        · exact .inl (.inr ⟨rfl, hlt⟩)
        · exact .inr ⟨⟨rfl, rfl⟩, hxy⟩
      · rintro ((hlt | ⟨rfl, hlt⟩) | ⟨⟨rfl, rfl⟩, hxy⟩)
        · exact .inl hlt
        · exact .inr ⟨rfl, .inl hlt⟩
        · exact .inr ⟨rfl, .inr ⟨rfl, hxy⟩⟩

/-- The beginnings of texts are in the order of the texts, or the same. -/
theorem take_lt_or_eq {a b : List α} (h : a < b) (n : ℕ) :
    a.take n < b.take n ∨ a.take n = b.take n := by
  induction n generalizing a b with
  | zero => exact .inr rfl
  | succ n ih =>
    cases b with
    | nil => cases h
    | cons d b =>
      cases a with
      | nil => exact .inl (List.nil_lt_cons d _)
      | cons c a =>
        rw [List.take_succ_cons, List.take_succ_cons, List.cons_lt_cons_iff, List.cons.injEq]
        rcases List.cons_lt_cons_iff.mp h with hlt | ⟨rfl, hlt⟩
        · exact .inl (.inl hlt)
        · exact (ih hlt).imp (fun h => .inr ⟨rfl, h⟩) fun h => ⟨rfl, h⟩

/-- A text between two that begin the same begins so, too. -/
theorem take_eq_of_between {a b c : List α} {n : ℕ} (hab : a < b) (hbc : b < c)
    (h : a.take n = c.take n) : b.take n = a.take n := by
  rcases take_lt_or_eq hab n with hlt | heq
  · rcases take_lt_or_eq hbc n with hlt' | heq'
    · rw [h] at hlt
      exact absurd (lt_trans hlt hlt') (lt_irrefl _)
    · exact heq'.trans h.symm
  · exact heq.symm

end Order

/-! ## 2. Numbers -/

/-- The number of a list of digits, the first of them the highest. -/
def positional (base : ℕ) (value : α → ℕ) (digits : List α) : ℕ :=
  digits.foldl (fun n c => base * n + value c) 0

section Positional

variable {base : ℕ} {value : α → ℕ} {a b : List α}

theorem foldl_positional (n : ℕ) (a : List α) :
    a.foldl (fun n c => base * n + value c) n = n * base ^ a.length + positional base value a := by
  induction a generalizing n with
  | nil => simp [positional]
  | cons c a ih =>
    unfold positional
    rw [List.foldl_cons, List.foldl_cons, ih, ih (base * 0 + value c), List.length_cons]
    ring

theorem positional_append (base : ℕ) (value : α → ℕ) (a b : List α) : positional base value (a ++ b) =
    positional base value a * base ^ b.length + positional base value b := by
  unfold positional
  rw [List.foldl_append]
  exact foldl_positional _ b

theorem positional_cons (c : α) (a : List α) :
    positional base value (c :: a) = value c * base ^ a.length + positional base value a := by
  have h := positional_append base value [c] a
  rw [List.singleton_append] at h
  rw [h]
  simp [positional]

/-- A number has at most as many digits as its text. -/
theorem positional_lt (hvalue : ∀ c, value c < base) (a : List α) :
    positional base value a < base ^ a.length := by
  induction a with
  | nil => simp [positional]
  | cons c a ih =>
    rw [positional_cons, List.length_cons, pow_succ]
    have hc := Nat.succ_le_of_lt (hvalue c)
    nlinarith [pow_pos (Nat.pos_of_ne_zero fun h => by
      have := hvalue c
      omega : 0 < base) a.length]

/-- The number of the first digits. -/
theorem positional_take (hvalue : ∀ c, value c < base) (k : ℕ) (a : List α) :
    positional base value (a.take k) = positional base value a / base ^ (a.length - k) := by
  have hlen : (a.drop k).length = a.length - k := List.length_drop
  have hlt := positional_lt hvalue (a.drop k)
  have happend := positional_append base value (a.take k) (a.drop k)
  rw [List.take_append_drop, hlen] at happend
  rw [hlen] at hlt
  rw [happend, Nat.add_comm, Nat.add_mul_div_right _ _ (by omega), Nat.div_eq_of_lt hlt, Nat.zero_add]

variable [LinearOrder α] {D : α → Prop}

/-- **The order of digit texts of one length is that of their numbers.** -/
theorem positional_lt_iff (hvalue : ∀ c, value c < base)
    (hmono : ∀ c d, D c → D d → (c < d ↔ value c < value d))
    (ha : ∀ c ∈ a, D c) (hb : ∀ c ∈ b, D c) (hlen : a.length = b.length) :
    a < b ↔ positional base value a < positional base value b := by
  induction a generalizing b with
  | nil =>
    obtain rfl : b = [] := List.eq_nil_of_length_eq_zero hlen.symm
    simp
  | cons c a ih =>
    cases b with
    | nil => cases hlen
    | cons d b =>
      obtain ⟨hc, ha⟩ := List.forall_mem_cons.mp ha
      obtain ⟨hd, hb⟩ := List.forall_mem_cons.mp hb
      have hlen := Nat.succ.inj hlen
      have hlta := positional_lt hvalue a
      have hltb := positional_lt hvalue b
      rw [List.cons_lt_cons_iff, ih ha hb hlen, positional_cons, positional_cons, hlen, hmono c d hc hd]
      rw [hlen] at hlta
      rcases lt_trichotomy (value c) (value d) with h | h | h
      · -- the first digit decides
        refine iff_of_true (.inl h) ?_
        have := Nat.mul_le_mul_right (base ^ b.length) (Nat.succ_le_of_lt h)
        rw [Nat.succ_mul] at this
        omega
      · have he : c = d := by
          rcases lt_trichotomy c d with hlt | he | hlt
          · have := (hmono c d hc hd).mp hlt
            omega
          · exact he
          · have := (hmono d c hd hc).mp hlt
            omega
        rw [h]
        constructor
        · rintro (hlt | ⟨-, hlt⟩)
          · exact absurd hlt (lt_irrefl _)
          · omega
        · exact fun hlt => .inr ⟨he, by omega⟩
      · refine iff_of_false ?_ ?_
        · rintro (hlt | ⟨rfl, -⟩)
          · omega
          · omega
        · have := Nat.mul_le_mul_right (base ^ b.length) (Nat.succ_le_of_lt h)
          rw [Nat.succ_mul] at this
          omega

/-- Digit texts of one length with one number are one text. -/
theorem positional_inj (hvalue : ∀ c, value c < base)
    (hmono : ∀ c d, D c → D d → (c < d ↔ value c < value d))
    (ha : ∀ c ∈ a, D c) (hb : ∀ c ∈ b, D c) (hlen : a.length = b.length) :
    a = b ↔ positional base value a = positional base value b := by
  refine ⟨fun h => by rw [h], fun h => ?_⟩
  rcases lt_trichotomy a b with hlt | he | hlt
  · have := (positional_lt_iff hvalue hmono ha hb hlen).mp hlt
    omega
  · exact he
  · have := (positional_lt_iff hvalue hmono hb ha hlen.symm).mp hlt
    omega

end Positional

end Basis
