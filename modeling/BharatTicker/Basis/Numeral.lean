/-
  File:      BharatTicker/Basis/Numeral.lean
  Subject:   NUMBERS AS TEXTS. Library: no program fact.

  Integers and finite decimals in the text forms of Python's `int` and `decimal.Decimal`: a decimal
  is a sign, a coefficient and an exponent, its text is the to-scientific-string of the decimal
  arithmetic specification, and its reader takes blanks around and underscores in a number.

  * `stripBlanks`, `parseInt`, `parseInt_toString` -- integers;
  * `Decimal`, `Decimal.str`, `Decimal.parse` -- decimals and their texts;
  * `Decimal.parse_str` -- a decimal is what its text reads as, its exponent and sign of zero
    included.
-/
import Mathlib

namespace Basis

/-! ## 1. Blanks -/

/-- `str.strip`, on characters. -/
def stripBlanks (cs : List Char) : List Char :=
  ((cs.dropWhile Char.isWhitespace).reverse.dropWhile Char.isWhitespace).reverse

theorem dropWhile_of_all {p : Char → Bool} {cs : List Char} (h : ∀ c ∈ cs, p c = false) :
    cs.dropWhile p = cs := by
  cases cs with
  | nil => rfl
  | cons c cs => rw [List.dropWhile_cons_of_neg (by rw [h c List.mem_cons_self]; simp)]

theorem stripBlanks_of_all {cs : List Char} (h : ∀ c ∈ cs, c.isWhitespace = false) :
    stripBlanks cs = cs := by
  unfold stripBlanks
  rw [dropWhile_of_all h, dropWhile_of_all fun c hc => h c (List.mem_reverse.mp hc),
    List.reverse_reverse]

/-- A digit is no blank, no sign and no letter. -/
theorem isDigit_ne {c c' : Char} (h : c.isDigit = true) (h' : c'.isDigit = false) : c ≠ c' := by
  intro e
  rw [e, h'] at h
  cases h

theorem not_isWhitespace_of_isDigit {c : Char} (h : c.isDigit = true) :
    c.isWhitespace = false := by
  refine Bool.eq_false_iff.mpr fun hw => ?_
  simp only [Char.isWhitespace, Bool.or_eq_true, decide_eq_true_eq] at hw
  rcases hw with ((rfl | rfl) | rfl) | rfl <;> cases h

/-! ## 2. Digits -/

def digits (n : Nat) : List Char := Nat.toDigits 10 n

def ofDigits (cs : List Char) : Nat := Nat.ofDigitChars 10 cs 0

@[simp] theorem ofDigits_digits (n : Nat) : ofDigits (digits n) = n := Nat.ofDigitChars_ten_toDigits

@[simp] theorem digits_ne_nil (n : Nat) : digits n ≠ [] := Nat.toDigits_ne_nil

theorem isDigit_of_mem_digits {n : Nat} {c : Char} (h : c ∈ digits n) : c.isDigit = true :=
  Nat.isDigit_of_mem_toDigits (by decide) (by decide) h

/-- Leading zeros do not count. -/
theorem ofDigits_zeros (n : Nat) (cs : List Char) :
    ofDigits (List.replicate n '0' ++ cs) = ofDigits cs := by
  unfold ofDigits
  rw [Nat.ofDigitChars_append, Nat.ofDigitChars_replicate_zero, Nat.mul_zero]

/-- The digits a text starts with, and the rest, where it goes on with something else. -/
theorem span_digits {cs rest : List Char} (hcs : ∀ c ∈ cs, c.isDigit = true)
    (hrest : ∀ c ∈ rest.head?, c.isDigit = false) :
    (cs ++ rest).takeWhile Char.isDigit = cs ∧ (cs ++ rest).dropWhile Char.isDigit = rest := by
  rw [List.takeWhile_append_of_pos hcs, List.dropWhile_append_of_pos hcs]
  cases rest with
  | nil => exact ⟨List.append_nil _, rfl⟩
  | cons c rest =>
    have hc : ¬ c.isDigit = true := Bool.eq_false_iff.mp (hrest c rfl)
    rw [List.takeWhile_cons_of_neg hc, List.dropWhile_cons_of_neg hc]
    exact ⟨List.append_nil _, rfl⟩

/-! ## 3. Integers -/

/-- Digits, with single underscores between them. -/
def isNatural : List Char → Bool
  | [] => false
  | [c] => c.isDigit
  | c :: c' :: cs => c.isDigit && if c' = '_' then isNatural cs else isNatural (c' :: cs)

def parseNat (cs : List Char) : Option Nat :=
  if isNatural cs then some (ofDigits (cs.filter (· ≠ '_'))) else none

/-- `int(s)`. -/
def parseInt (s : String) : Option Int :=
  match stripBlanks s.toList with
  | [] => none
  | c :: cs =>
    if c = '+' then (parseNat cs).map Int.ofNat
    else if c = '-' then (parseNat cs).map fun n : Nat => -(n : Int)
    else (parseNat (c :: cs)).map Int.ofNat

theorem isNatural_of_digits {cs : List Char} (h : ∀ c ∈ cs, c.isDigit = true) (hne : cs ≠ []) :
    isNatural cs = true := by
  induction cs with
  | nil => exact absurd rfl hne
  | cons c cs ih =>
    have hc : c.isDigit = true := h c List.mem_cons_self
    cases cs with
    | nil => exact hc
    | cons c' cs =>
      have hc' : c' ≠ '_' := isDigit_ne (h c' (by simp)) rfl
      rw [isNatural, hc, if_neg hc', Bool.true_and]
      exact ih (fun x hx => h x (List.mem_cons_of_mem _ hx)) (by simp)

theorem parseNat_digits (n : Nat) : parseNat (digits n) = some n := by
  have hfilter : (digits n).filter (· ≠ '_') = digits n :=
    List.filter_eq_self.mpr fun c hc => decide_eq_true (isDigit_ne (isDigit_of_mem_digits hc) rfl)
  unfold parseNat
  rw [if_pos (isNatural_of_digits (fun c => isDigit_of_mem_digits) (digits_ne_nil n)), hfilter,
    ofDigits_digits]

/-- A digit or a minus sign is no blank. -/
theorem stripBlanks_signed {cs : List Char} (h : ∀ c ∈ cs, c.isDigit = true ∨ c = '-') :
    stripBlanks cs = cs := by
  refine stripBlanks_of_all fun c hc => ?_
  rcases h c hc with h | rfl
  · exact not_isWhitespace_of_isDigit h
  · rfl

/-- **An integer is what its text reads as.** -/
theorem parseInt_toString (n : Int) : parseInt (toString n) = some n := by
  unfold parseInt
  by_cases hn : 0 ≤ n
  · have hchars : (toString n).toList = digits n.toNat := by
      rw [Int.toString_eq_repr, Int.repr_eq_if, if_pos hn]
      exact Nat.toList_repr
    rw [hchars, stripBlanks_signed fun c hc => .inl (isDigit_of_mem_digits hc)]
    obtain ⟨c, cs, hcs⟩ := List.exists_cons_of_ne_nil (digits_ne_nil n.toNat)
    have hmem : c ∈ digits n.toNat := by
      rw [hcs]
      exact List.mem_cons_self
    have hc : c.isDigit = true := isDigit_of_mem_digits hmem
    have hparse := parseNat_digits n.toNat
    rw [hcs] at hparse ⊢
    simp only [if_neg (isDigit_ne hc (show ('+' : Char).isDigit = false from rfl)),
      if_neg (isDigit_ne hc (show ('-' : Char).isDigit = false from rfl)), hparse, Option.map_some]
    exact congrArg some (Int.toNat_of_nonneg hn)
  · have hchars : (toString n).toList = '-' :: digits (-n).toNat := by
      rw [Int.toString_eq_repr, Int.repr_eq_if, if_neg hn, String.toList_append, Nat.toList_repr]
      rfl
    have hstrip : stripBlanks ('-' :: digits (-n).toNat) = '-' :: digits (-n).toNat := by
      refine stripBlanks_signed fun c hc => ?_
      rcases List.mem_cons.mp hc with hc | hc
      · exact .inr hc
      · exact .inl (isDigit_of_mem_digits hc)
    have hneg : (((-n).toNat : Nat) : Int) = -n := Int.toNat_of_nonneg (by omega)
    rw [hchars, hstrip]
    simp [parseNat_digits, hneg]

/-! ## 4. Decimals -/

/-- A finite `Decimal`: `(-1)^negative * coefficient * 10^exponent`. -/
structure Decimal where
  negative : Bool := false
  coefficient : Nat := 0
  exponent : Int := 0
  deriving DecidableEq, Repr

namespace Decimal

/-- `bool(d)` is `False`. -/
def isZero (d : Decimal) : Bool := d.coefficient = 0

/-- The text of an exponent: `'%+d' % e`. -/
def signed (e : Int) : List Char := (if e < 0 then '-' else '+') :: digits e.natAbs

/-- Digits with a point before the one at `place`; zeros fill the gap on either side. -/
def withPoint (cs : List Char) (place : Int) : List Char :=
  if place ≤ 0 then '0' :: '.' :: (List.replicate (-place).toNat '0' ++ cs)
  else if cs.length ≤ place then cs ++ List.replicate (place - cs.length).toNat '0'
  else cs.take place.toNat ++ '.' :: cs.drop place.toNat

/-- `Decimal.__str__`, on characters. -/
def chars (d : Decimal) : List Char :=
  let int := digits d.coefficient
  let leftdigits := d.exponent + int.length
  let dotplace := if d.exponent ≤ 0 ∧ -6 < leftdigits then leftdigits else 1
  (if d.negative then ['-'] else []) ++ withPoint int dotplace ++
    (if leftdigits = dotplace then [] else 'E' :: signed (leftdigits - dotplace))

def str (d : Decimal) : String := String.ofList d.chars

/-- A sign in front, and what follows. -/
def parseSign : List Char → Bool × List Char
  | [] => (false, [])
  | c :: cs => if c = '-' then (true, cs) else if c = '+' then (false, cs) else (false, c :: cs)

/-- `(E(?P<exp>[-+]?\d+))?`, to the end. -/
def parseExponent : List Char → Option Int
  | [] => some 0
  | c :: cs =>
    if c = 'e' ∨ c = 'E' then
      let (negative, cs) := parseSign cs
      if cs ≠ [] ∧ cs.all Char.isDigit then
        some (if negative then -(ofDigits cs : Int) else ofDigits cs)
      else none
    else none

/-- `(\.(?P<frac>\d*))?`. -/
def parseFraction : List Char → List Char × List Char
  | [] => ([], [])
  | c :: cs =>
    if c = '.' then (cs.takeWhile Char.isDigit, cs.dropWhile Char.isDigit) else ([], c :: cs)

/-- What follows the sign: the digits before the point, those after it, the exponent. -/
def parseMagnitude (cs : List Char) : Option (Nat × Int) :=
  let int := cs.takeWhile Char.isDigit
  let (frac, rest) := parseFraction (cs.dropWhile Char.isDigit)
  if int = [] ∧ frac = [] then none
  else (parseExponent rest).map fun e => (ofDigits (int ++ frac), e - frac.length)

/-- `Decimal(s)`, for the texts of finite numbers. -/
def parse (s : String) : Option Decimal :=
  let (negative, cs) := parseSign ((stripBlanks s.toList).filter (· ≠ '_'))
  (parseMagnitude cs).map fun m => ⟨negative, m.1, m.2⟩

/-! ### The text reads as the number -/

theorem parseExponent_signed (e : Int) : parseExponent ('E' :: signed e) = some e := by
  have hall : (digits e.natAbs).all Char.isDigit = true :=
    List.all_eq_true.mpr fun c hc => isDigit_of_mem_digits hc
  unfold signed
  by_cases he : e < 0
  · have hsign : parseSign ('-' :: digits e.natAbs) = (true, digits e.natAbs) := rfl
    simp [parseExponent, he, hsign, hall, abs_of_neg he]
  · have hsign : parseSign ('+' :: digits e.natAbs) = (false, digits e.natAbs) := rfl
    simp [parseExponent, he, hsign, hall, not_lt.mp he]

/-- What ends the digits of a number: nothing, or its exponent. -/
def suffix (e : Int) : List Char := if e = 0 then [] else 'E' :: signed e

theorem parseExponent_suffix (e : Int) : parseExponent (suffix e) = some e := by
  unfold suffix
  split
  · rename_i h
    rw [h]
    rfl
  · exact parseExponent_signed e

theorem suffix_head (e : Int) : ∀ c ∈ (suffix e).head?, c.isDigit = false := by
  intro c hc
  unfold suffix at hc
  split at hc
  · cases hc
  · cases hc
    rfl

theorem parseFraction_suffix (e : Int) : parseFraction (suffix e) = ([], suffix e) := by
  unfold suffix
  split
  · rfl
  · rfl

/-- Digits, a point and more digits read as one coefficient. -/
theorem parseMagnitude_pointed {int frac : List Char} (hint : ∀ c ∈ int, c.isDigit = true)
    (hfrac : ∀ c ∈ frac, c.isDigit = true) (hne : int ≠ []) (e : Int) :
    parseMagnitude (int ++ '.' :: (frac ++ suffix e)) =
      some (ofDigits (int ++ frac), e - frac.length) := by
  have hhead : ∀ c ∈ ('.' :: (frac ++ suffix e)).head?, c.isDigit = false := by
    intro c hc
    cases hc
    rfl
  obtain ⟨htake, hdrop⟩ := span_digits hint hhead
  obtain ⟨htake', hdrop'⟩ := span_digits hfrac (suffix_head e)
  have hpoint : parseFraction ('.' :: (frac ++ suffix e)) = (frac, suffix e) := by
    simp only [parseFraction, if_true, htake', hdrop']
  unfold parseMagnitude
  simp only [htake, hdrop, hpoint, hne, false_and, if_false, parseExponent_suffix, Option.map_some]

/-- **The digits with their point, and the exponent, read as the coefficient and what is left of
    the exponent.** -/
theorem parseMagnitude_withPoint {cs : List Char} (hcs : ∀ c ∈ cs, c.isDigit = true)
    (hne : cs ≠ []) {place : Int} (hplace : place ≤ cs.length) (e : Int) :
    parseMagnitude (withPoint cs place ++ suffix e) = some (ofDigits cs, e - (cs.length - place)) := by
  unfold withPoint
  split
  · -- zeros after the point
    rename_i hneg
    have hzeros : ∀ c ∈ List.replicate (-place).toNat '0' ++ cs, c.isDigit = true := by
      intro c hc
      rcases List.mem_append.mp hc with hc | hc
      · rw [List.eq_of_mem_replicate hc]
        rfl
      · exact hcs c hc
    have hzero : ∀ c ∈ ['0'], c.isDigit = true := by simp
    have h := parseMagnitude_pointed hzero hzeros (List.cons_ne_nil _ _) e
    have hvalue : ofDigits (['0'] ++ (List.replicate (-place).toNat '0' ++ cs)) = ofDigits cs :=
      (ofDigits_zeros 1 _).trans (ofDigits_zeros _ cs)
    have hlen : e - ((List.replicate (-place).toNat '0' ++ cs).length : Int) =
        e - (cs.length - place) := by
      rw [List.length_append, List.length_replicate]
      omega
    rw [hvalue, hlen] at h
    exact h
  · rename_i hpos
    split
    · -- no point: the place is the end of the digits
      rename_i hge
      have hplace' : place = cs.length := by omega
      obtain ⟨htake, hdrop⟩ := span_digits hcs (suffix_head e)
      subst hplace'
      simp only [Int.sub_self, Int.toNat_zero, List.replicate_zero, List.append_nil]
      unfold parseMagnitude
      simp [htake, hdrop, parseFraction_suffix, hne, parseExponent_suffix]
    · rename_i hlt
      have htake : cs.take place.toNat ≠ [] := by
        rw [ne_eq, List.take_eq_nil_iff, not_or]
        exact ⟨by omega, hne⟩
      have h := parseMagnitude_pointed (fun c hc => hcs c (List.mem_of_mem_take hc))
        (fun c (hc : c ∈ cs.drop place.toNat) => hcs c (List.mem_of_mem_drop hc)) htake e
      rw [List.take_append_drop, List.length_drop] at h
      rw [List.append_assoc, List.cons_append, h]
      congr 2
      omega

/-- The characters of a number's text. -/
theorem mem_chars {d : Decimal} {c : Char} (h : c ∈ d.chars) :
    c.isDigit = true ∨ c ∈ ['.', 'E', '+', '-'] := by
  have hsigned : ∀ e : Int, ∀ c ∈ signed e, c.isDigit = true ∨ c ∈ ['.', 'E', '+', '-'] := by
    intro e c hc
    rcases List.mem_cons.mp hc with hc | hc
    · right
      rw [hc]
      split <;> simp
    · exact .inl (isDigit_of_mem_digits hc)
  have hpoint : ∀ (n : Nat) (place : Int), ∀ c ∈ withPoint (digits n) place,
      c.isDigit = true ∨ c ∈ ['.', 'E', '+', '-'] := by
    intro n place c hc
    unfold withPoint at hc
    split at hc
    · simp only [List.mem_cons, List.mem_append] at hc
      rcases hc with rfl | rfl | hc | hc
      · exact .inl rfl
      · simp
      · rw [List.eq_of_mem_replicate hc]
        exact .inl rfl
      · exact .inl (isDigit_of_mem_digits hc)
    · split at hc
      · rcases List.mem_append.mp hc with hc | hc
        · exact .inl (isDigit_of_mem_digits hc)
        · rw [List.eq_of_mem_replicate hc]
          exact .inl rfl
      · simp only [List.mem_append, List.mem_cons] at hc
        rcases hc with hc | rfl | hc
        · exact .inl (isDigit_of_mem_digits (List.mem_of_mem_take hc))
        · simp
        · exact .inl (isDigit_of_mem_digits (List.mem_of_mem_drop hc))
  unfold chars at h
  simp only [List.mem_append] at h
  generalize (if d.exponent ≤ 0 ∧ -6 < d.exponent + ((digits d.coefficient).length : Int)
    then d.exponent + ((digits d.coefficient).length : Int) else 1) = place at h
  rcases h with (h | h) | h
  · split at h
    · rw [List.mem_singleton.mp h]
      simp
    · cases h
  · exact hpoint _ _ c h
  · split at h
    · cases h
    · rcases List.mem_cons.mp h with rfl | h
      · simp
      · exact hsigned _ c h

/-- The magnitude of a number starts with a digit. -/
theorem withPoint_head (n : Nat) (place : Int) (rest : List Char) :
    ∃ c cs, withPoint (digits n) place ++ rest = c :: cs ∧ c.isDigit = true := by
  obtain ⟨c, cs, hcs⟩ := List.exists_cons_of_ne_nil (digits_ne_nil n)
  have hc : c.isDigit = true := isDigit_of_mem_digits (n := n) (by rw [hcs]; exact List.mem_cons_self)
  unfold withPoint
  split
  · exact ⟨'0', _, rfl, rfl⟩
  · rename_i hpos
    split
    · exact ⟨c, _, by rw [hcs]; rfl, hc⟩
    · obtain ⟨k, hk⟩ : ∃ k, place.toNat = k + 1 := ⟨place.toNat - 1, by omega⟩
      exact ⟨c, _, by rw [hcs, hk]; rfl, hc⟩

/-- **A decimal is what its text reads as**: sign, coefficient and exponent. -/
theorem parse_str (d : Decimal) : parse d.str = some d := by
  have hplain : ∀ c ∈ d.chars, c.isWhitespace = false ∧ c ≠ '_' := by
    intro c hc
    rcases mem_chars hc with h | h
    · exact ⟨not_isWhitespace_of_isDigit h, isDigit_ne h rfl⟩
    · fin_cases h <;> exact ⟨rfl, by decide⟩
  have hclean : (stripBlanks d.str.toList).filter (· ≠ '_') = d.chars := by
    rw [str, String.toList_ofList, stripBlanks_of_all fun c hc => (hplain c hc).1,
      List.filter_eq_self]
    exact fun c hc => decide_eq_true (hplain c hc).2
  unfold parse
  rw [hclean]
  have hdigits : ∀ c ∈ digits d.coefficient, c.isDigit = true := fun c => isDigit_of_mem_digits
  have hlen : 0 < (digits d.coefficient).length := List.length_pos_of_ne_nil (digits_ne_nil _)
  unfold chars
  -- where the point goes, it goes among the digits
  generalize hplace : (if d.exponent ≤ 0 ∧ -6 < d.exponent + ((digits d.coefficient).length : Int)
    then d.exponent + ((digits d.coefficient).length : Int) else 1) = place
  have hle : place ≤ (digits d.coefficient).length := by
    rw [← hplace]
    split <;> omega
  have hsuffix : (if d.exponent + ((digits d.coefficient).length : Int) = place then []
      else 'E' :: signed (d.exponent + (digits d.coefficient).length - place)) =
      suffix (d.exponent + (digits d.coefficient).length - place) := by
    unfold suffix
    simp only [Int.sub_eq_zero]
  have hmagnitude := parseMagnitude_withPoint hdigits (digits_ne_nil _) hle
    (d.exponent + (digits d.coefficient).length - place)
  have hexp : d.exponent + ((digits d.coefficient).length : Int) - place -
      ((digits d.coefficient).length - place) = d.exponent := by omega
  rw [ofDigits_digits, hexp] at hmagnitude
  simp only [hplace, hsuffix, List.append_assoc]
  cases hneg : d.negative with
  | true =>
    simp only [if_true, List.singleton_append, parseSign]
    rw [hmagnitude]
    simp [← hneg]
  | false =>
    obtain ⟨c, cs, hc, hd⟩ := withPoint_head d.coefficient place
      (suffix (d.exponent + (digits d.coefficient).length - place))
    have hsign : parseSign (c :: cs) = (false, c :: cs) := by
      show (if c = '-' then (true, cs) else if c = '+' then (false, cs) else (false, c :: cs)) = _
      rw [if_neg (isDigit_ne hd rfl), if_neg (isDigit_ne hd rfl)]
    rw [hc] at hmagnitude
    simp only [Bool.false_eq_true, if_false, List.nil_append, hc, hsign, hmagnitude]
    simp [← hneg]

end Decimal

end Basis
