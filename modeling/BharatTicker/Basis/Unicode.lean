/-
  File:      BharatTicker/Basis/Unicode.lean
  Subject:   BLANKS AND DIGITS OF UNICODE TEXTS. Library: no program fact.

  * `isSpace`, `stripSpaces` -- the characters that `str.strip` takes off;
  * `decimalZeros`, `decimalValue` -- the decimal digits of all scripts and their values;
  * `decimalValue_cases`, `decimalValue_isDigit`, `above_of_decimal` -- ASCII digits and the others;
  * `asciiDigits` -- a text with its digits in ASCII.
-/
import Mathlib

namespace Basis

/-! ## 1. Blanks -/

/-- `str.isspace`, for one character. -/
def isSpace (c : Char) : Bool :=
  let n := c.toNat
  (0x09 ≤ n && n ≤ 0x0d) || (0x1c ≤ n && n ≤ 0x20) || (0x2000 ≤ n && n ≤ 0x200a) ||
    n ∈ [0x85, 0xa0, 0x1680, 0x2028, 0x2029, 0x202f, 0x205f, 0x3000]

/-- `str.strip`, on characters. -/
def stripSpaces (cs : List Char) : List Char :=
  ((cs.dropWhile isSpace).reverse.dropWhile isSpace).reverse

/-! ## 2. Digits -/

/-- The decimal zeros of Unicode; the nine other digits of each follow it. -/
def decimalZeros : List ℕ :=
  [0x30, 0x660, 0x6f0, 0x7c0, 0x966, 0x9e6, 0xa66, 0xae6, 0xb66, 0xbe6, 0xc66, 0xce6, 0xd66,
    0xde6, 0xe50, 0xed0, 0xf20, 0x1040, 0x1090, 0x17e0, 0x1810, 0x1946, 0x19d0, 0x1a80, 0x1a90,
    0x1b50, 0x1bb0, 0x1c40, 0x1c50, 0xa620, 0xa8d0, 0xa900, 0xa9d0, 0xa9f0, 0xaa50, 0xabf0,
    0xff10, 0x104a0, 0x10d30, 0x11066, 0x110f0, 0x11136, 0x111d0, 0x112f0, 0x11450, 0x114d0,
    0x11650, 0x116c0, 0x11730, 0x118e0, 0x11950, 0x11c50, 0x11d50, 0x11da0, 0x11f50, 0x16a60,
    0x16ac0, 0x16b50, 0x1d7ce, 0x1d7d8, 0x1d7e2, 0x1d7ec, 0x1d7f6, 0x1e140, 0x1e2f0, 0x1e4f0,
    0x1e950, 0x1fbf0]

/-- The value of a decimal digit, as a pattern's `\d` and the readers of numbers take it. -/
def decimalValue (c : Char) : Option ℕ :=
  (decimalZeros.find? fun z => z ≤ c.toNat ∧ c.toNat < z + 10).map fun z => c.toNat - z

theorem decimalValue_cases {c : Char} {n : ℕ} (h : decimalValue c = some n) :
    ∃ z ∈ decimalZeros, z ≤ c.toNat ∧ c.toNat < z + 10 ∧ n = c.toNat - z := by
  obtain ⟨z, hz, rfl⟩ := Option.map_eq_some_iff.mp h
  have hp : z ≤ c.toNat ∧ c.toNat < z + 10 := by simpa using List.find?_some hz
  exact ⟨z, List.mem_of_find?_eq_some hz, hp.1, hp.2, rfl⟩

theorem isDigit_toNat {c : Char} : c.isDigit = true ↔ 48 ≤ c.toNat ∧ c.toNat ≤ 57 :=
  Char.isDigit_iff_toNat

theorem char_lt {c d : Char} : c < d ↔ c.toNat < d.toNat := UInt32.lt_iff_toNat_lt

theorem decimalValue_isDigit {c : Char} (h : c.isDigit = true) :
    decimalValue c = some (c.toNat - 48) := by
  obtain ⟨hle, hle'⟩ := isDigit_toNat.1 h
  have hfind : decimalZeros.find? (fun z => z ≤ c.toNat ∧ c.toNat < z + 10) = some 48 :=
    List.find?_cons_of_pos (decide_eq_true ⟨hle, by omega⟩)
  unfold decimalValue
  rw [hfind]
  rfl

/-- The digits of other scripts are above those of ASCII. -/
theorem above_of_decimal {c d : Char} (h : (decimalValue c).isSome = true) (hc : ¬c.isDigit = true)
    (hd : d.isDigit = true) : d < c := by
  obtain ⟨n, hn⟩ := Option.isSome_iff_exists.mp h
  obtain ⟨z, hz, hle, hlt, -⟩ := decimalValue_cases hn
  have hhigh : ∀ z ∈ decimalZeros, z = 48 ∨ 58 ≤ z := by decide
  rw [isDigit_toNat] at hc hd
  rw [char_lt]
  rcases hhigh z hz with rfl | hz
  · omega
  · omega

/-- The text with every digit in ASCII. -/
def asciiDigits (cs : List Char) : List Char :=
  cs.map fun c => ((decimalValue c).map Nat.digitChar).getD c

end Basis
