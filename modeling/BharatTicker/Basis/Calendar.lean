/-
  File:      BharatTicker/Basis/Calendar.lean
  Subject:   THE GREGORIAN CALENDAR, as Python's `datetime.date` has it. Library: no program fact.

  A day is its ordinal: the first of January of year 1 is day 1, and years before it go on in the same
  way.

  * `isLeap`, `daysBeforeYear`, `daysBeforeMonth`, `ordinal` -- the day of a year, a month and a day;
  * `monthDay`, `civil` -- the year, month and day of an ordinal;
  * `ordinal_civil`, `civil_ext_of_ordinal` -- the date of a day is of that day, and no other date of its
    year is.
-/
import Mathlib

namespace Basis

/-! ## 1. From a date to its day -/

def isLeap (year : ℤ) : Bool := year % 4 = 0 && (year % 100 ≠ 0 || year % 400 = 0)

/-- The days before January 1st of the year. -/
def daysBeforeYear (year : ℤ) : ℤ :=
  let y := year - 1
  y * 365 + y / 4 - y / 100 + y / 400

/-- The days of a year before the first of the month. -/
def daysBeforeMonth (leap : Bool) (month : ℕ) : ℕ :=
  [0, 0, 31, 59, 90, 120, 151, 181, 212, 243, 273, 304, 334].getD month 0 +
    if leap ∧ 2 < month then 1 else 0

def daysInMonth (leap : Bool) (month : ℕ) : ℕ :=
  [0, 31, 28, 31, 30, 31, 30, 31, 31, 30, 31, 30, 31].getD month 0 +
    if leap ∧ month = 2 then 1 else 0

/-- A year, a month and a day. -/
structure Civil where
  year : ℤ
  month : ℕ
  day : ℕ
  deriving DecidableEq, Repr

/-- The month and the day are there in the year. -/
def Civil.Valid (c : Civil) : Prop :=
  (1 ≤ c.month ∧ c.month ≤ 12) ∧ 1 ≤ c.day ∧ c.day ≤ daysInMonth (isLeap c.year) c.month

instance (c : Civil) : Decidable c.Valid := by
  unfold Civil.Valid
  infer_instance

/-- `date.toordinal`. -/
def ordinal (c : Civil) : ℤ :=
  daysBeforeYear c.year + daysBeforeMonth (isLeap c.year) c.month + c.day

/-! ## 2. From a day to its date -/

/-- The month and day of the day `n` of a year, from 0: the estimate of the month is exact or one too
    large. -/
def monthDay (leap : Bool) (n : ℕ) : ℕ × ℕ :=
  let month := (n + 50) / 32
  let preceding := daysBeforeMonth leap month
  if n < preceding then
    let month := month - 1
    (month, n - (preceding - daysInMonth leap month) + 1)
  else (month, n - preceding + 1)

/-- `date.fromordinal`: the cycles of 400, 100, 4 and 1 years before the day. -/
def civil (n : ℤ) : Civil :=
  let n := n - 1
  let n400 := n / 146097
  let n := n % 146097
  let n100 := n / 36524
  let n := n % 36524
  let n4 := n / 1461
  let n := n % 1461
  let n1 := n / 365
  let n := n % 365
  let year := n400 * 400 + 1 + n100 * 100 + n4 * 4 + n1
  if n1 = 4 ∨ n100 = 4 then ⟨year - 1, 12, 31⟩
  else
    let leapyear := n1 = 3 && (n4 ≠ 24 || n100 = 3)
    let md := monthDay leapyear n.toNat
    ⟨year, md.1, md.2⟩

/-! ## 3. One date for a day -/

/-- The days of a year, one month after another. -/
theorem monthDay_spec (leap : Bool) : ∀ n < 365 + leap.toNat,
    ((1 ≤ (monthDay leap n).1 ∧ (monthDay leap n).1 ≤ 12) ∧ 1 ≤ (monthDay leap n).2 ∧
      (monthDay leap n).2 ≤ daysInMonth leap (monthDay leap n).1) ∧
    daysBeforeMonth leap (monthDay leap n).1 + (monthDay leap n).2 = n + 1 := by
  cases leap <;> decide +kernel

theorem monthDay_daysBeforeMonth (leap : Bool) : ∀ month < 13, ∀ day < 32,
    1 ≤ month ∧ 1 ≤ day ∧ day ≤ daysInMonth leap month →
      monthDay leap (daysBeforeMonth leap month + day - 1) = (month, day) := by
  cases leap <;> decide +kernel

theorem isLeap_iff {year : ℤ} :
    isLeap year = true ↔ year % 4 = 0 ∧ (year % 100 ≠ 0 ∨ year % 400 = 0) := by
  simp [isLeap]

/-- The last day of a leap year. -/
theorem ordinal_december {year : ℤ} (h : isLeap year = true) :
    ordinal ⟨year, 12, 31⟩ = daysBeforeYear year + 366 ∧ (⟨year, 12, 31⟩ : Civil).Valid := by
  unfold ordinal Civil.Valid
  dsimp only
  rw [h]
  refine ⟨?_, by decide⟩
  rw [show daysBeforeMonth true 12 = 335 from rfl]
  omega

/-- The days before a year, by the cycles before it. -/
theorem daysBeforeYear_cycles (a : ℤ) {b c d : ℤ} (hb : 0 ≤ b ∧ b ≤ 3) (hc : 0 ≤ c ∧ c ≤ 24)
    (hd : 0 ≤ d ∧ d ≤ 3) : daysBeforeYear (a * 400 + 1 + b * 100 + c * 4 + d) =
      a * 146097 + b * 36524 + c * 1461 + d * 365 := by
  unfold daysBeforeYear
  dsimp only
  have h4 : (a * 400 + 1 + b * 100 + c * 4 + d - 1) / 4 = a * 100 + b * 25 + c := by omega
  have h100 : (a * 400 + 1 + b * 100 + c * 4 + d - 1) / 100 = a * 4 + b := by omega
  have h400 : (a * 400 + 1 + b * 100 + c * 4 + d - 1) / 400 = a := by omega
  rw [h4, h100, h400]
  omega

/-- **The date of a day is a date, and of that day.** -/
theorem ordinal_civil (n : ℤ) : ordinal (civil n) = n ∧ (civil n).Valid := by
  unfold civil
  dsimp only
  -- the cycles, and the day of the year
  generalize ha : (n - 1) / 146097 = a
  generalize hr₁ : (n - 1) % 146097 = r₁
  generalize hb : r₁ / 36524 = b
  generalize hr₂ : r₁ % 36524 = r₂
  generalize hc : r₂ / 1461 = c
  generalize hr₃ : r₂ % 1461 = r₃
  generalize hd : r₃ / 365 = d
  generalize hr : r₃ % 365 = r
  by_cases hlast : d = 4 ∨ b = 4
  · rw [if_pos hlast]
    have hleap : isLeap (a * 400 + 1 + b * 100 + c * 4 + d - 1) = true := by
      rw [isLeap_iff]
      omega
    obtain ⟨hord, hvalid⟩ := ordinal_december hleap
    refine ⟨hord.trans ?_, hvalid⟩
    rcases hlast with rfl | rfl
    · have hyear := daysBeforeYear_cycles a (b := b) (c := c) (d := 3) (by omega) (by omega) (by omega)
      rw [show a * 400 + 1 + b * 100 + c * 4 + 4 - 1 = a * 400 + 1 + b * 100 + c * 4 + 3 by omega,
        hyear]
      omega
    · have hyear := daysBeforeYear_cycles a (b := 3) (c := 24) (d := 3) (by omega) (by omega)
        (by omega)
      rw [show a * 400 + 1 + 4 * 100 + c * 4 + d - 1 = a * 400 + 1 + 3 * 100 + 24 * 4 + 3 by omega,
        hyear]
      omega
  · rw [if_neg hlast]
    have hleap : isLeap (a * 400 + 1 + b * 100 + c * 4 + d) = (d = 3 && (c ≠ 24 || b = 3)) := by
      rw [Bool.eq_iff_iff, isLeap_iff]
      simp only [Bool.and_eq_true, Bool.or_eq_true, decide_eq_true_eq]
      omega
    have hyear := daysBeforeYear_cycles a (b := b) (c := c) (d := d) (by omega) (by omega) (by omega)
    obtain ⟨hvalid, hday⟩ := monthDay_spec (d = 3 && (c ≠ 24 || b = 3)) r.toNat (by omega)
    unfold ordinal Civil.Valid
    dsimp only
    rw [hleap, hyear]
    refine ⟨?_, hvalid⟩
    omega

theorem daysInMonth_lt (leap : Bool) : ∀ month < 13, daysInMonth leap month < 32 := by
  cases leap <;> decide

/-- A date lies within its year. -/
theorem ordinal_within {c : Civil} (h : c.Valid) :
    daysBeforeYear c.year < ordinal c ∧ ordinal c ≤ daysBeforeYear c.year + 366 := by
  obtain ⟨⟨-, hm⟩, hd1, hd⟩ := h
  have hin : ∀ leap, ∀ month < 13, daysBeforeMonth leap month + daysInMonth leap month ≤ 366 := by
    decide
  have := hin (isLeap c.year) c.month (by omega)
  unfold ordinal
  omega

/-- Two dates of a year that are of one day are the same. -/
theorem civil_ext_of_ordinal {c c' : Civil} (hc : c.Valid) (hc' : c'.Valid) (hyear : c.year = c'.year)
    (h : ordinal c = ordinal c') : c = c' := by
  obtain ⟨y, m, d⟩ := c
  obtain ⟨y', m', d'⟩ := c'
  obtain rfl : y = y' := hyear
  obtain ⟨⟨hm, hm12⟩, hd, hdin⟩ := hc
  obtain ⟨⟨hm', hm12'⟩, hd', hdin'⟩ := hc'
  dsimp only at hm hm12 hd hdin hm' hm12' hd' hdin'
  have e := monthDay_daysBeforeMonth (isLeap y) m (by omega) d
    (hdin.trans_lt (daysInMonth_lt _ m (by omega))) ⟨hm, hd, hdin⟩
  have e' := monthDay_daysBeforeMonth (isLeap y) m' (by omega) d'
    (hdin'.trans_lt (daysInMonth_lt _ m' (by omega))) ⟨hm', hd', hdin'⟩
  unfold ordinal at h
  dsimp only at h
  rw [show daysBeforeMonth (isLeap y) m + d - 1 = daysBeforeMonth (isLeap y) m' + d' - 1 by omega,
    e'] at e
  obtain ⟨rfl, rfl⟩ := Prod.mk.inj e
  rfl

end Basis
