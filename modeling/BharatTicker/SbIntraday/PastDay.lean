/-
  File:      BharatTicker/SbIntraday/PastDay.lean
  Subject:   PAST OR LIVE. The endpoint reads a day with `strptime` and compares its text with that of
             today. The pattern takes more spellings than the one with all its zeros, and the order of
             texts is that of dates for this one only.

  * `dateBefore` -- the order of dates;
  * `isoDate_eq`, `strptime_eq_some` -- the parts of the two texts;
  * `yearText_lt`, `monthText_lt`, `dayText_lt` -- the comparison, part by part;
  * `OrderSafe` -- the condition, by the spelling; `text_lt_iff` -- the comparison as a whole;
  * `past_day_iff` -- when the store answers for a past day, and for no other.
-/
import BharatTicker.Basis.TextOrder
import BharatTicker.SbIntraday

namespace BharatTicker

open Basis

-- the concrete runs below compute with rationals
unseal Rat.add Rat.mul Rat.sub Rat.inv

/-! ## 1. Digits -/

/-- The value of a character in a group. -/
def digitOf (c : Char) : ℕ := (decimalValue c).getD 0

theorem groupValue_eq (cs : List Char) : groupValue cs = positional 10 digitOf cs := rfl

theorem digitOf_lt (c : Char) : digitOf c < 10 := by
  unfold digitOf
  cases h : decimalValue c with
  | none => decide
  | some n =>
    obtain ⟨z, -, hle, hlt, rfl⟩ := decimalValue_cases h
    rw [Option.getD_some]
    omega

theorem digitOf_isDigit {c : Char} (h : c.isDigit = true) : digitOf c = c.toNat - 48 := by
  unfold digitOf
  rw [decimalValue_isDigit h]
  rfl

theorem digitOf_mono (c d : Char) (hc : c.isDigit = true) (hd : d.isDigit = true) :
    c < d ↔ digitOf c < digitOf d := by
  rw [digitOf_isDigit hc, digitOf_isDigit hd, char_lt]
  obtain ⟨hc, -⟩ := isDigit_toNat.1 hc
  obtain ⟨hd, -⟩ := isDigit_toNat.1 hd
  omega

/-- ASCII digits only. -/
def Ascii (cs : List Char) : Prop := ∀ c ∈ cs, c.isDigit = true

instance (cs : List Char) : Decidable (Ascii cs) := inferInstanceAs (Decidable (∀ c ∈ cs, _))

theorem ascii_lt_iff {a b : List Char} (ha : Ascii a) (hb : Ascii b) (h : a.length = b.length) :
    a < b ↔ groupValue a < groupValue b := positional_lt_iff digitOf_lt digitOf_mono ha hb h

theorem ascii_eq_iff {a b : List Char} (ha : Ascii a) (hb : Ascii b) (h : a.length = b.length) :
    a = b ↔ groupValue a = groupValue b := positional_inj digitOf_lt digitOf_mono ha hb h

/-! ## 2. The text of today -/

theorem padded_spec (width : ℕ) (n : ℤ) (hwidth : 0 < width) (h0 : 0 ≤ n) (hn : n < 10 ^ width) :
    (padded width n).toList.length = width ∧ Ascii (padded width n).toList ∧
      (groupValue (padded width n).toList : ℤ) = n := by
  have hlen : (digits n.toNat).length ≤ width := by
    refine Nat.toDigits_length 10 n.toNat width hwidth ?_
    have hnat : ((n.toNat : ℕ) : ℤ) < ((10 ^ width : ℕ) : ℤ) := by
      push_cast
      omega
    exact_mod_cast hnat
  have hlist : (padded width n).toList =
      List.replicate (width - (digits n.toNat).length) '0' ++ digits n.toNat :=
    String.toList_ofList
  have hascii : Ascii (padded width n).toList := by
    intro c hc
    rw [hlist] at hc
    rcases List.mem_append.mp hc with hc | hc
    · rw [List.eq_of_mem_replicate hc]
      rfl
    · exact isDigit_of_mem_digits hc
  refine ⟨by rw [hlist, List.length_append, List.length_replicate]; omega, hascii, ?_⟩
  have hvalue : groupValue (padded width n).toList = ofDigits (padded width n).toList := by
    unfold groupValue ofDigits
    rw [Nat.ofDigitChars_eq_foldl]
    refine List.foldl_ext _ _ _ fun m c hc => ?_
    have := digitOf_isDigit (hascii c hc)
    unfold digitOf at this
    rw [this]
    rfl
  rw [hvalue, hlist, ofDigits_zeros, ofDigits_digits]
  omega

/-- The day of a year of the cycle of 400 years, from the first of March. -/
theorem dayOfYear_bounds {doe yoe : ℤ} (h0 : 0 ≤ doe) (h1 : doe < 146097)
    (hyoe : (doe - doe / 1460 + doe / 36524 - doe / 146096) / 365 = yoe) :
    0 ≤ doe - (365 * yoe + yoe / 4 - yoe / 100) ∧ doe - (365 * yoe + yoe / 4 - yoe / 100) ≤ 366 := by
  have hcentury : doe / 36524 = 0 ∨ doe / 36524 = 1 ∨ doe / 36524 = 2 ∨ doe / 36524 = 3 ∨
      doe = 146096 := by omega
  rcases hcentury with hc | hc | hc | hc | rfl
  · have hyear : yoe / 100 = 0 := by omega
    omega
  · have hyear : yoe / 100 = 1 := by omega
    omega
  · have hyear : yoe / 100 = 2 := by omega
    omega
  · have hyear : yoe / 100 = 3 := by omega
    omega
  · -- the last day of the cycle
    subst hyoe
    decide

/-- The month and the day of a date. -/
theorem civil_bounds (day : ℤ) : (1 ≤ (civil day).2.1 ∧ (civil day).2.1 ≤ 12) ∧
    1 ≤ (civil day).2.2 ∧ (civil day).2.2 ≤ 31 := by
  unfold civil
  dsimp only
  have hbounds := dayOfYear_bounds (Int.emod_nonneg (day + 719468) (by decide : (146097 : ℤ) ≠ 0))
    (Int.emod_lt_of_pos (day + 719468) (by decide)) rfl
  generalize (day + 719468) % 146097 = doe at hbounds ⊢
  generalize (doe - doe / 1460 + doe / 36524 - doe / 146096) / 365 = yoe at hbounds ⊢
  generalize doe - (365 * yoe + yoe / 4 - yoe / 100) = doy at hbounds ⊢
  generalize hmp : (5 * doy + 2) / 153 = mp
  refine ⟨?_, ?_⟩
  · split <;> omega
  · omega

/-- The parts of a padded text. -/
structure IsoParts (text : String) (date : ℤ × ℤ × ℤ) (year month day : List Char) : Prop where
  text : text.toList = year ++ '-' :: (month ++ '-' :: day)
  yearLength : year.length = 4
  monthLength : month.length = 2
  dayLength : day.length = 2
  yearAscii : Ascii year
  monthAscii : Ascii month
  dayAscii : Ascii day
  values : (groupValue year : ℤ) = date.1 ∧ (groupValue month : ℤ) = date.2.1 ∧
    (groupValue day : ℤ) = date.2.2

/-- A day of the calendar, whose years go to 9999. -/
def InCalendar (day : ℤ) : Prop := 1 ≤ (civil day).1 ∧ (civil day).1 ≤ 9999

instance (day : ℤ) : Decidable (InCalendar day) := by
  unfold InCalendar
  infer_instance

/-- **The text of a day.** -/
theorem isoDate_parts {day : ℤ} (h : InCalendar day) :
    ∃ y m d, IsoParts (isoDate day) (civil day) y m d := by
  obtain ⟨⟨hm1, hm12⟩, hd1, hd31⟩ := civil_bounds day
  obtain ⟨hy1, hy9999⟩ := h
  obtain ⟨hyl, hya, hyv⟩ := padded_spec 4 (civil day).1 (by decide) (by omega)
    (by norm_num; omega)
  obtain ⟨hml, hma, hmv⟩ := padded_spec 2 (civil day).2.1 (by decide) (by omega)
    (by norm_num; omega)
  obtain ⟨hdl, hda, hdv⟩ := padded_spec 2 (civil day).2.2 (by decide) (by omega)
    (by norm_num; omega)
  refine ⟨_, _, _, ?_, hyl, hml, hdl, hya, hma, hda, hyv, hmv, hdv⟩
  simp [isoDate, String.toList_append]

/-! ## 3. What is read -/

/-- The parts of a text that `strptime` reads. -/
theorem strptime_eq_some {date : String} {t : DateText} (h : strptime date = some t) :
    date.toList = t.year ++ '-' :: (t.month ++ '-' :: t.day) ∧ t.yearGroup = true ∧
      t.monthGroup = true ∧ t.dayGroup = true ∧ t.valid = true := by
  unfold strptime at h
  split at h
  · rename_i year month day hsplit
    dsimp only at h
    split at h
    · rename_i hok
      cases h
      have hjoin : ['-'].intercalate (date.toList.splitOn '-') = date.toList :=
        List.intercalate_splitOn '-'
      rw [hsplit] at hjoin
      simp only [Bool.and_eq_true] at hok
      refine ⟨?_, hok.1.1.1, hok.1.1.2, hok.1.2, hok.2⟩
      rw [← hjoin]
      simp [List.intercalate]
    · cases h
  · cases h

theorem isOneToNine_iff {c : Char} : isOneToNine c = true ↔ 49 ≤ c.toNat ∧ c.toNat ≤ 57 := by
  unfold isOneToNine
  simp only [Bool.and_eq_true, decide_eq_true_eq, Char.le_def, UInt32.le_iff_toNat_le]
  exact Iff.rfl

theorem isDigit_of_isOneToNine {c : Char} (h : isOneToNine c = true) :
    c.isDigit = true ∧ 1 ≤ digitOf c := by
  obtain ⟨hle, hle'⟩ := isOneToNine_iff.1 h
  have hdigit : c.isDigit = true := isDigit_toNat.2 ⟨by omega, hle'⟩
  exact ⟨hdigit, by rw [digitOf_isDigit hdigit]; omega⟩

theorem ascii_pair {c c' : Char} (hc : c.isDigit = true) (hc' : c'.isDigit = true) : Ascii [c, c'] := by
  intro x hx
  rcases List.mem_pair.mp hx with rfl | rfl
  · exact hc
  · exact hc'

/-- A month has one digit or two. -/
theorem month_cases {t : DateText} (h : t.monthGroup = true) :
    (∃ c, t.month = [c] ∧ c.isDigit = true ∧ 1 ≤ digitOf c) ∨ t.month.length = 2 ∧ Ascii t.month := by
  unfold DateText.monthGroup at h
  split at h
  · rename_i c hm
    exact .inl ⟨c, hm, isDigit_of_isOneToNine h⟩
  · rename_i c c' hm
    refine .inr ⟨by rw [hm]; rfl, ?_⟩
    rw [hm]
    simp only [Bool.or_eq_true, Bool.and_eq_true, decide_eq_true_eq] at h
    rcases h with ⟨rfl, hc'⟩ | ⟨rfl, hc'⟩
    · have hdigit : ∀ c ∈ ['0', '1', '2'], c.isDigit = true := by simp
      exact ascii_pair rfl (hdigit c' hc')
    · exact ascii_pair rfl (isDigit_of_isOneToNine hc').1
  · cases h

/-- A day has one digit, with a blank or without, or two, the second of any script. -/
theorem day_cases {t : DateText} (h : t.dayGroup = true) :
    (∃ c, t.day = [c] ∧ c.isDigit = true ∧ 1 ≤ digitOf c) ∨
    (∃ c, t.day = [' ', c] ∧ c.isDigit = true ∧ 1 ≤ digitOf c) ∨
    (t.day.length = 2 ∧ Ascii t.day) ∨
    (∃ c c', t.day = [c, c'] ∧ c.isDigit = true ∧ (decimalValue c').isSome = true ∧
      ¬c'.isDigit = true) := by
  unfold DateText.dayGroup at h
  split at h
  · rename_i c hd
    exact .inl ⟨c, hd, isDigit_of_isOneToNine h⟩
  · rename_i c c' hd
    simp only [Bool.or_eq_true, Bool.and_eq_true, decide_eq_true_eq] at h
    rcases h with (⟨rfl, hc'⟩ | ⟨hc, hc'⟩) | ⟨hc, hc'⟩
    · have hdigit : ∀ c ∈ ['0', '1'], c.isDigit = true := by simp
      refine .inr (.inr (.inl ⟨by rw [hd]; rfl, ?_⟩))
      rw [hd]
      exact ascii_pair rfl (hdigit c' hc')
    · have hdigit : ∀ c ∈ ['1', '2'], c.isDigit = true := by simp
      by_cases hascii : c'.isDigit = true
      · refine .inr (.inr (.inl ⟨by rw [hd]; rfl, ?_⟩))
        rw [hd]
        exact ascii_pair (hdigit c hc) hascii
      · exact .inr (.inr (.inr ⟨c, c', hd, hdigit c hc, hc', hascii⟩))
    · obtain ⟨hdigit, hone⟩ := isDigit_of_isOneToNine hc'
      rcases List.mem_pair.mp hc with rfl | rfl
      · refine .inr (.inr (.inl ⟨by rw [hd]; rfl, ?_⟩))
        rw [hd]
        exact ascii_pair rfl hdigit
      · exact .inr (.inl ⟨c', hd, hdigit, hone⟩)
  · cases h

/-! ## 4. The comparison, part by part -/

section Comparison

variable {a b x y : List Char}

/-- Texts with a part of one length before a sign. -/
theorem part_lt_iff (h : a.length = b.length) :
    a ++ '-' :: x < b ++ '-' :: y ↔ a < b ∨ a = b ∧ x < y := by
  rw [append_lt_append_iff h, List.cons_lt_cons_self]

/-- How many places a year has from its first digit of another script on. -/
def foreignPlaces (year : List Char) : ℕ := 4 - (year.takeWhile Char.isDigit).length

theorem groupValue_take (k : ℕ) (a : List Char) :
    groupValue (a.take k) = groupValue a / 10 ^ (a.length - k) := positional_take digitOf_lt k a

/-- The digits before, and the first digit of another script. -/
theorem exists_foreign (h : ¬Ascii a) :
    ∃ u r, a = a.takeWhile Char.isDigit ++ u :: r ∧ ¬u.isDigit = true := by
  cases hrest : a.dropWhile Char.isDigit with
  | nil =>
    refine absurd ?_ h
    exact fun c hc => List.dropWhile_eq_nil_iff.mp hrest c hc
  | cons u r =>
    refine ⟨u, r, ?_, ?_⟩
    · rw [← hrest, List.takeWhile_append_dropWhile]
    · have := List.head?_dropWhile_not Char.isDigit a
      rw [hrest] at this
      simpa using this

/-- A digit of another script is above what `b` has there, so that the texts before it decide. -/
theorem foreign_lt_iff {p : List Char} {u : Char} (hu : ¬u.isDigit = true)
    (hdecimal : (decimalValue u).isSome = true) (hlen : p.length < b.length) (hascii : Ascii b) :
    p ++ u :: x < b ↔ p < b.take p.length := by
  have hdrop : ∃ U R, b.drop p.length = U :: R := by
    refine List.exists_cons_of_ne_nil fun hnil => ?_
    have := List.drop_eq_nil_iff.mp hnil
    omega
  obtain ⟨U, R, hUR⟩ := hdrop
  have hU : U.isDigit = true := hascii U (List.mem_of_mem_drop (hUR ▸ List.mem_cons_self))
  have htake : p.length = (b.take p.length).length := by
    rw [List.length_take]
    omega
  have hsplit : b = b.take p.length ++ U :: R := by rw [← hUR, List.take_append_drop]
  conv_lhs => rw [hsplit]
  rw [append_lt_append_iff htake, List.cons_lt_cons_iff]
  refine or_iff_left ?_
  rintro ⟨-, hlt | ⟨rfl, -⟩⟩
  · exact lt_asymm hlt (above_of_decimal hdecimal hu hU)
  · exact hu hU

/-- **A year with a digit of another script** is above every year that has the digits before it. -/
theorem foreign_year_lt (ha : a.length = 4) (hdecimal : ∀ c ∈ a, (decimalValue c).isSome = true)
    (hforeign : ¬Ascii a) (hb : b.length = 4) (hascii : Ascii b) :
    (a < b ↔ groupValue a / 10 ^ foreignPlaces a < groupValue b / 10 ^ foreignPlaces a) ∧ a ≠ b := by
  refine ⟨?_, fun e => hforeign (e ▸ hascii)⟩
  obtain ⟨u, r, hsplit, hu⟩ := exists_foreign hforeign
  have hplaces : foreignPlaces a = 4 - (a.takeWhile Char.isDigit).length := rfl
  rw [hplaces]
  generalize hp : a.takeWhile Char.isDigit = p at hsplit
  have hpascii : Ascii p := fun c hc => by
    rw [← hp] at hc
    exact List.mem_takeWhile_imp hc
  have hlen : p.length < b.length := by
    rw [hsplit, List.length_append, List.length_cons] at ha
    omega
  have htake : p.length = (b.take p.length).length := by
    rw [List.length_take]
    omega
  have hvalue : groupValue p = groupValue a / 10 ^ (4 - p.length) := by
    rw [← ha, ← groupValue_take, hsplit, List.take_left]
  have hcompare : a < b ↔ p < b.take p.length := by
    rw [hsplit]
    exact foreign_lt_iff hu (hdecimal u (by rw [hsplit]; simp)) hlen hascii
  rw [hcompare, ascii_lt_iff hpascii (fun c hc => hascii c (List.mem_of_mem_take hc)) htake,
    groupValue_take, hb, hvalue]

theorem groupValue_pair (c c' : Char) : groupValue [c, c'] = 10 * digitOf c + digitOf c' := by
  simp [groupValue, digitOf]

theorem groupValue_singleton (c : Char) : groupValue [c] = digitOf c := by
  rw [groupValue_eq, positional_cons]
  simp [positional]

theorem char_eq_iff {c d : Char} (hc : c.isDigit = true) (hd : d.isDigit = true) :
    c = d ↔ digitOf c = digitOf d := by
  have hiff := ascii_eq_iff (a := [c]) (b := [d]) (fun x hx => List.mem_singleton.mp hx ▸ hc)
    (fun x hx => List.mem_singleton.mp hx ▸ hd) rfl
  rwa [groupValue_singleton, groupValue_singleton, List.singleton_inj] at hiff

theorem minus_lt_digit {c : Char} (h : c.isDigit = true) : '-' < c := by
  have := isDigit_toNat.1 h
  exact char_lt.2 (by show 45 < c.toNat; omega)

theorem blank_lt_digit {c : Char} (h : c.isDigit = true) : ' ' < c := by
  have := isDigit_toNat.1 h
  exact char_lt.2 (by show 32 < c.toNat; omega)

/-- **A month of one digit** is compared with the tens of the month of today. -/
theorem bare_month_lt {c : Char} (hc : c.isDigit = true) (hone : 1 ≤ digitOf c) (hb : b.length = 2)
    (hascii : Ascii b) (hmonth : groupValue b ≤ 12) :
    [c] ++ '-' :: x < b ++ '-' :: y ↔ digitOf c = 1 ∧ 10 ≤ groupValue b := by
  obtain ⟨d, d', rfl⟩ := List.length_eq_two.mp hb
  have hd := hascii d List.mem_cons_self
  have hd' := hascii d' (List.mem_cons_of_mem d List.mem_cons_self)
  have hlt := digitOf_lt d'
  rw [groupValue_pair] at hmonth ⊢
  rw [List.singleton_append, List.cons_append, List.cons_lt_cons_iff, List.cons_append,
    List.cons_lt_cons_iff, digitOf_mono c d hc hd, char_eq_iff hc hd]
  have hminus := minus_lt_digit hd'
  constructor
  · intro h
    have hle : digitOf c ≤ digitOf d := h.elim (fun h => h.le) fun h => h.1.le
    omega
  · intro h
    exact .inr ⟨by omega, .inl hminus⟩

/-- **A day of one digit** is compared with the tens of the day of today. -/
theorem bare_day_lt {c : Char} (hc : c.isDigit = true) (hb : b.length = 2) (hascii : Ascii b) :
    [c] < b ↔ digitOf c ≤ groupValue b / 10 := by
  obtain ⟨d, d', rfl⟩ := List.length_eq_two.mp hb
  have hd := hascii d List.mem_cons_self
  have hlt := digitOf_lt d'
  rw [groupValue_pair, List.cons_lt_cons_iff, digitOf_mono c d hc hd, char_eq_iff hc hd]
  have hnil : ([] : List Char) < [d'] := List.nil_lt_cons d' []
  constructor
  · intro h
    have hle : digitOf c ≤ digitOf d := h.elim (fun h => h.le) fun h => h.1.le
    omega
  · intro h
    rcases Nat.lt_or_ge (digitOf c) (digitOf d) with hlt' | hge
    · exact .inl hlt'
    · exact .inr ⟨by omega, hnil⟩

/-- A day with a blank is below every other. -/
theorem blank_day_lt {c : Char} (hb : b.length = 2) (hascii : Ascii b) : [' ', c] < b := by
  obtain ⟨d, d', rfl⟩ := List.length_eq_two.mp hb
  exact List.cons_lt_cons_iff.mpr (.inl (blank_lt_digit (hascii d List.mem_cons_self)))

/-- **A day with a digit of another script** is above those with its tens. -/
theorem foreign_day_lt {c c' : Char} (hc : c.isDigit = true) (hdecimal : (decimalValue c').isSome = true)
    (hforeign : ¬c'.isDigit = true) (hb : b.length = 2) (hascii : Ascii b) :
    [c, c'] < b ↔ groupValue [c, c'] / 10 < groupValue b / 10 := by
  obtain ⟨d, d', rfl⟩ := List.length_eq_two.mp hb
  have hd := hascii d List.mem_cons_self
  have hd' := hascii d' (List.mem_cons_of_mem d List.mem_cons_self)
  have hlt := digitOf_lt d'
  have hlt' := digitOf_lt c'
  have habove := above_of_decimal hdecimal hforeign hd'
  rw [groupValue_pair, groupValue_pair, List.cons_lt_cons_iff, List.cons_lt_cons_iff,
    digitOf_mono c d hc hd]
  have hnot : ¬(c' < d' ∨ c' = d' ∧ ([] : List Char) < []) := by
    rintro (h | ⟨rfl, -⟩)
    · exact lt_asymm h habove
    · exact lt_irrefl _ habove
  constructor
  · rintro (h | ⟨-, h⟩)
    · omega
    · exact absurd h hnot
  · intro h
    exact .inl (by omega)

end Comparison

/-! ## 5. When the order of texts is that of dates -/

/-- The order of dates: by year, month and day. -/
def dateBefore (a b : ℤ × ℤ × ℤ) : Prop :=
  a.1 < b.1 ∨ a.1 = b.1 ∧ (a.2.1 < b.2.1 ∨ a.2.1 = b.2.1 ∧ a.2.2 < b.2.2)

instance (a b : ℤ × ℤ × ℤ) : Decidable (dateBefore a b) := by
  unfold dateBefore
  infer_instance

/-- What the comparison of the texts says, by the spelling of the date. -/
def textBefore (t : DateText) (today : ℤ × ℤ × ℤ) : Prop :=
  if Ascii t.year then
    t.date.1 < today.1 ∨ t.date.1 = today.1 ∧
      if t.month.length = 1 then t.date.2.1 = 1 ∧ 10 ≤ today.2.1
      else t.date.2.1 < today.2.1 ∨ t.date.2.1 = today.2.1 ∧
        if t.day.length = 1 then t.date.2.2 ≤ today.2.2 / 10
        else if t.day.head? = some ' ' then True
        else if Ascii t.day then t.date.2.2 < today.2.2
        else t.date.2.2 / 10 < today.2.2 / 10
  else t.date.1 / 10 ^ foreignPlaces t.year < today.1 / 10 ^ foreignPlaces t.year

/-- **The condition**, by the spelling of the date. Where it is the padded one there is none; where it is
    not, an earlier part must differ from that of today, or else the comparison that is left must happen to
    be right. -/
def OrderSafe (t : DateText) (today : ℤ × ℤ × ℤ) : Prop :=
  if ¬Ascii t.year then
    -- a year with a digit of another script: the digits before it differ, or the date is not past
    t.date.1 / 10 ^ foreignPlaces t.year ≠ today.1 / 10 ^ foreignPlaces t.year ∨
      ¬dateBefore t.date today
  else if t.month.length = 1 then
    -- a month without its zero: also January, seen from October on
    t.date.1 ≠ today.1 ∨ ¬dateBefore t.date today ∨ t.date.2.1 = 1 ∧ 10 ≤ today.2.1
  else if t.day.length = 1 then
    -- a day without its zero: also one that is at most the tens of today's
    t.date.1 ≠ today.1 ∨ t.date.2.1 ≠ today.2.1 ∨ ¬dateBefore t.date today ∨
      t.date.2.2 ≤ today.2.2 / 10
  else if t.day.head? = some ' ' then
    -- a day with a blank for it: the date is past
    t.date.1 ≠ today.1 ∨ t.date.2.1 ≠ today.2.1 ∨ dateBefore t.date today
  else if ¬Ascii t.day then
    -- a day with a digit of another script: its tens differ, or the date is not past
    t.date.1 ≠ today.1 ∨ t.date.2.1 ≠ today.2.1 ∨ t.date.2.2 / 10 ≠ today.2.2 / 10 ∨
      ¬dateBefore t.date today
  else True

instance (t : DateText) (today : ℤ × ℤ × ℤ) : Decidable (OrderSafe t today) := by
  unfold OrderSafe
  infer_instance

section Spelling

variable {date : String} {t : DateText} {day : ℤ}

/-- The last part, where the year and the month are those of today. -/
theorem day_lt_iff {d : List Char} (hgroup : t.dayGroup = true) (hlen : d.length = 2)
    (hascii : Ascii d) : t.day < d ↔
      if t.day.length = 1 then t.date.2.2 ≤ (groupValue d : ℤ) / 10
      else if t.day.head? = some ' ' then True
      else if Ascii t.day then t.date.2.2 < groupValue d
      else t.date.2.2 / 10 < (groupValue d : ℤ) / 10 := by
  have hdate : t.date.2.2 = groupValue t.day := rfl
  rw [hdate]
  rcases day_cases hgroup with ⟨c, he, hc, -⟩ | ⟨c, he, -⟩ | ⟨htwo, hall⟩ | ⟨c, c', he, hc, hc', hforeign⟩
  · rw [he, if_pos List.length_singleton, bare_day_lt hc hlen hascii, groupValue_singleton]
    omega
  · have hblank : [' ', c].head? = some ' ' := rfl
    rw [he, if_neg (by simp), if_pos hblank]
    exact iff_of_true (blank_day_lt hlen hascii) trivial
  · have hblank : t.day.head? ≠ some ' ' := fun hhead => by
      have := hall ' ' (List.mem_of_head? hhead)
      cases this
    rw [if_neg (by omega), if_neg hblank, if_pos hall, ascii_lt_iff hall hascii (htwo.trans hlen.symm)]
    omega
  · have hblank : [c, c'].head? ≠ some ' ' := fun e => by
      rw [Option.some.inj e] at hc
      cases hc
    have hnot : ¬Ascii [c, c'] := fun h => hforeign (h c' (by simp))
    rw [he, if_neg (by simp), if_neg hblank, if_neg hnot, foreign_day_lt hc hc' hforeign hlen hascii]
    omega

/-- The rest of the texts, where the year is that of today. -/
theorem monthDay_lt_iff {m d : List Char} (hmonth : t.monthGroup = true) (hmlen : m.length = 2)
    (hmascii : Ascii m) (hm : groupValue m ≤ 12) : t.month ++ '-' :: t.day < m ++ '-' :: d ↔
      if t.month.length = 1 then t.date.2.1 = 1 ∧ 10 ≤ (groupValue m : ℤ)
      else t.date.2.1 < groupValue m ∨ t.date.2.1 = groupValue m ∧ t.day < d := by
  have hdate : t.date.2.1 = groupValue t.month := rfl
  rw [hdate]
  rcases month_cases hmonth with ⟨c, he, hc, hone⟩ | ⟨htwo, hall⟩
  · rw [he, if_pos List.length_singleton, bare_month_lt hc hone hmlen hmascii hm, groupValue_singleton]
    omega
  · have hlen : t.month.length = m.length := htwo.trans hmlen.symm
    rw [if_neg (by omega), part_lt_iff hlen, ascii_lt_iff hall hmascii hlen,
      ascii_eq_iff hall hmascii hlen, Nat.cast_lt, Nat.cast_inj]

/-- **The comparison of the texts.** -/
theorem text_lt_iff (ht : strptime date = some t) (hday : InCalendar day) :
    date < isoDate day ↔ textBefore t (civil day) := by
  obtain ⟨y, m, d, hiso⟩ := isoDate_parts hday
  obtain ⟨htext, hyear, hmonth, hgroup, -⟩ := strptime_eq_some ht
  obtain ⟨hy, hm, hd⟩ := hiso.values
  have hm12 : groupValue m ≤ 12 := by
    have := (civil_bounds day).1.2
    omega
  unfold DateText.yearGroup at hyear
  rw [Bool.and_eq_true, decide_eq_true_iff, List.all_eq_true] at hyear
  have hlen : t.year.length = y.length := hyear.1.trans hiso.yearLength.symm
  have hdate : t.date.1 = groupValue t.year := rfl
  rw [String.lt_iff, htext, hiso.text, part_lt_iff hlen]
  unfold textBefore
  by_cases hascii : Ascii t.year
  · rw [if_pos hascii, ascii_lt_iff hascii hiso.yearAscii hlen, ascii_eq_iff hascii hiso.yearAscii hlen,
      monthDay_lt_iff hmonth hiso.monthLength hiso.monthAscii hm12,
      day_lt_iff hgroup hiso.dayLength hiso.dayAscii, hdate, ← hy, ← hm, ← hd, Nat.cast_lt, Nat.cast_inj]
  · obtain ⟨hlt, hne⟩ := foreign_year_lt hyear.1 hyear.2 hascii hiso.yearLength hiso.yearAscii
    rw [if_neg hascii, or_iff_left fun h => hne h.1, hlt, hdate, ← hy]
    norm_cast

/-- **The two orders agree exactly under the condition.** -/
theorem textBefore_iff (t : DateText) (day : ℤ) :
    (textBefore t (civil day) ↔ dateBefore t.date (civil day)) ↔ OrderSafe t (civil day) := by
  have hday := (civil_bounds day).2.1
  generalize civil day = today at hday ⊢
  unfold textBefore OrderSafe dateBefore
  by_cases hyear : Ascii t.year
  · rw [if_pos hyear, if_neg (not_not.mpr hyear)]
    by_cases hmonth : t.month.length = 1
    · rw [if_pos hmonth, if_pos hmonth]
      omega
    · rw [if_neg hmonth, if_neg hmonth]
      by_cases hbare : t.day.length = 1
      · rw [if_pos hbare, if_pos hbare]
        omega
      · rw [if_neg hbare, if_neg hbare]
        by_cases hblank : t.day.head? = some ' '
        · rw [if_pos hblank, if_pos hblank, and_true]
          omega
        · rw [if_neg hblank, if_neg hblank]
          by_cases hascii : Ascii t.day
          · rw [if_pos hascii, if_neg (not_not.mpr hascii), iff_true]
          · rw [if_neg hascii, if_pos hascii]
            omega
  · rw [if_neg hyear, if_pos hyear]
    have hpos : (0 : ℤ) < 10 ^ foreignPlaces t.year := by positivity
    have hlt : t.date.1 / 10 ^ foreignPlaces t.year < today.1 / 10 ^ foreignPlaces t.year →
        t.date.1 < today.1 := fun h => by
      by_contra hge
      exact absurd h (not_lt.mpr (Int.ediv_le_ediv hpos (not_lt.mp hge)))
    have hgt : today.1 / 10 ^ foreignPlaces t.year < t.date.1 / 10 ^ foreignPlaces t.year →
        today.1 < t.date.1 := fun h => by
      by_contra hge
      exact absurd h (not_lt.mpr (Int.ediv_le_ediv hpos (not_lt.mp hge)))
    omega

end Spelling

/-! ## 6. The endpoint -/

/-- The durable store answers, or the response says that there is none. -/
def FromStore : Except HttpException IntradayResponse → Prop
  | .ok r => r.source = "timescaledb_intraday_store"
  | .error e => e.statusCode = 503

instance (r : Except HttpException IntradayResponse) : Decidable (FromStore r) := by
  unfold FromStore
  cases r <;> infer_instance

section Endpoint

variable {cfg : BreakerConfig} {live : LiveSettings} {isTradingHoliday : ℤ → Bool}
  {call : IntradayCall} {date : String} {t : DateText} {seconds : ℚ}

/-- **The store answers by the order of the texts.** -/
theorem fromStore_iff (hindex : rejectIndex call.symbol = none)
    (hinterval : secondsIntervals.lookup call.interval = some seconds) (hdate : call.date = some date)
    (ht : strptime date = some t) (s : LiveFeed) :
    FromStore (call.sbIntraday cfg live isTradingHoliday s).1 ↔
      date < isoDate (istDay call.startedAt) := by
  have hne : date ≠ "" := by
    rintro rfl
    cases ht
  have hpast : call.pastDate =
      .ok (if date < isoDate (istDay call.startedAt) then some date else none) := by
    rw [IntradayCall.pastDate, hdate]
    dsimp only
    rw [if_neg hne, ht]
    rfl
  unfold IntradayCall.sbIntraday
  simp only [hindex, hinterval, hpast]
  by_cases hlt : date < isoDate (istDay call.startedAt)
  · rw [if_pos hlt]
    refine iff_of_true ?_ hlt
    show FromStore call.pastResponse
    unfold IntradayCall.pastResponse
    cases call.past <;> rfl
  · rw [if_neg hlt]
    refine iff_of_false ?_ hlt
    show ¬("live_tick_aggregation" = "timescaledb_intraday_store")
    decide

end Endpoint

/-- **Past or live by the spelling**: for every request below the minute, every time of it and every date
    that is accepted, the durable store answers exactly when the date is before today if and only if
    the condition on the spelling and today holds. -/
theorem past_day_iff {cfg : BreakerConfig} {live : LiveSettings} {isTradingHoliday : ℤ → Bool}
    {call : IntradayCall} {date : String} {t : DateText} {seconds : ℚ} (s : LiveFeed)
    (hindex : rejectIndex call.symbol = none)
    (hinterval : secondsIntervals.lookup call.interval = some seconds) (hdate : call.date = some date)
    (ht : strptime date = some t) (hday : InCalendar (istDay call.startedAt)) :
    (FromStore (call.sbIntraday cfg live isTradingHoliday s).1 ↔
      dateBefore t.date (civil (istDay call.startedAt))) ↔
    OrderSafe t (civil (istDay call.startedAt)) := by
  rw [fromStore_iff hindex hinterval hdate ht, text_lt_iff ht hday]
  exact textBefore_iff t _

/-- On Saturday 10 January 2026, the Monday before, without its zeros. -/
def unpaddedCall : IntradayCall where
  symbol := "RELIANCE"
  interval := "1second"
  date := some "2026-1-5"
  startedAt := dayStart 20463
  env := fun name => { checkedAt := 0, startedAt := 0, endedAt := 0, fetch := .providerError ⟨name, "HTTP 503"⟩ }

theorem past_day_iff_unpadded :
    (FromStore (unpaddedCall.sbIntraday (.ofArgs {}) {} (fun _ => false) ⟨controller {}, {}, [], []⟩).1 ↔
      dateBefore (2026, 1, 5) (civil (istDay unpaddedCall.startedAt))) ↔
    OrderSafe ⟨['2', '0', '2', '6'], ['1'], ['5']⟩ (civil (istDay unpaddedCall.startedAt)) :=
  @past_day_iff (.ofArgs {}) {} (fun _ => false) unpaddedCall "2026-1-5"
    ⟨['2', '0', '2', '6'], ['1'], ['5']⟩ 1 ⟨controller {}, {}, [], []⟩ (by decide) (by decide) rfl
    (by decide) (by decide)

/-- **A past day is served live**: Monday's date reads as text after today's. -/
theorem unpadded_day_served_live :
    (strptime "2026-1-5").map DateText.date = some (2026, 1, 5) ∧
    dateBefore (2026, 1, 5) (civil (istDay unpaddedCall.startedAt)) ∧
    ¬FromStore (unpaddedCall.sbIntraday (.ofArgs {}) {} (fun _ => false)
      ⟨controller {}, {}, [], []⟩).1 := by
  have ht : strptime "2026-1-5" = some ⟨['2', '0', '2', '6'], ['1'], ['5']⟩ := by decide
  refine ⟨by decide, by decide, ?_⟩
  rw [@fromStore_iff (.ofArgs {}) {} (fun _ => false) unpaddedCall "2026-1-5" _ 1 (by decide) (by decide) rfl
    ht]
  decide

end BharatTicker
