/-
  File:      BharatTicker/Holidays.lean
  Subject:   THE HOLIDAY CALENDAR (`config/holidays.py`) for 2025 to 2030.

  A date is the number of its day since 1970-01-01, as on the clock; the calendar of the language ends
  with the year 9999.

  * `dateOf`, `civilOf`, `dateMin`, `dateMax` -- days and their dates;
  * `Holiday`, `allHolidays` -- the tables;
  * `getHolidayDates`, `getHolidayName`, `isTradingHoliday`, `getNextTradingDay`,
    `getPreviousTradingDay` -- the functions;
  * `getHolidayName_isSome` -- a date has a holiday's name exactly when it is a holiday;
  * `getNextTradingDay_eq_some`, `getNextTradingDay_eq_iff` -- the next trading day is the least one
    after a date.
-/
import BharatTicker.Basis.Calendar
import BharatTicker.IstClock

namespace BharatTicker

open Basis

/-! ## 1. Days and dates -/

/-- `date(1970, 1, 1).toordinal()`. -/
def epochOrdinal : ℤ := 719163

/-- The day of a date. -/
def dateOf (c : Civil) : ℤ := ordinal c - epochOrdinal

/-- The year, month and day of a day. -/
def civilOf (day : ℤ) : Civil := civil (day + epochOrdinal)

/-- `date.min`, 0001-01-01. -/
def dateMin : ℤ := dateOf ⟨1, 1, 1⟩

/-- `date.max`, 9999-12-31. -/
def dateMax : ℤ := dateOf ⟨9999, 12, 31⟩

/-! ## 2. The tables -/

structure Holiday where
  month : ℕ
  day : ℕ
  name : String
  deriving DecidableEq, Repr

/-- `_HOLIDAYS_2025`. -/
def holidays2025 : List Holiday :=
  [⟨2, 26, "Mahashivratri"⟩, ⟨3, 14, "Holi"⟩, ⟨3, 31, "Id-Ul-Fitr (Ramadan Eid)"⟩,
    ⟨4, 10, "Shri Mahavir Jayanti"⟩, ⟨4, 14, "Dr. Baba Saheb Ambedkar Jayanti"⟩,
    ⟨4, 18, "Good Friday"⟩, ⟨5, 1, "Maharashtra Day"⟩, ⟨8, 15, "Independence Day"⟩,
    ⟨8, 27, "Ganesh Chaturthi"⟩, ⟨10, 2, "Mahatma Gandhi Jayanti / Dussehra"⟩,
    ⟨10, 21, "Diwali Laxmi Pujan"⟩, ⟨10, 22, "Diwali-Balipratipada"⟩,
    ⟨11, 5, "Prakash Gurpurb Sri Guru Nanak Dev"⟩, ⟨12, 25, "Christmas"⟩]

/-- `_HOLIDAYS_2026`. -/
def holidays2026 : List Holiday :=
  [⟨1, 26, "Republic Day"⟩, ⟨3, 3, "Holi"⟩, ⟨3, 26, "Shri Ram Navami"⟩,
    ⟨3, 31, "Shri Mahavir Jayanti"⟩, ⟨4, 3, "Good Friday"⟩,
    ⟨4, 14, "Dr. Baba Saheb Ambedkar Jayanti"⟩, ⟨5, 1, "Maharashtra Day"⟩, ⟨5, 28, "Bakri Id"⟩,
    ⟨6, 26, "Muharram"⟩, ⟨9, 14, "Ganesh Chaturthi"⟩, ⟨10, 2, "Mahatma Gandhi Jayanti"⟩,
    ⟨10, 20, "Dussehra"⟩, ⟨11, 10, "Diwali-Balipratipada"⟩,
    ⟨11, 24, "Prakash Gurpurb Sri Guru Nanak Dev"⟩, ⟨12, 25, "Christmas"⟩]

/-- `_HOLIDAYS_2027`. -/
def holidays2027 : List Holiday :=
  [⟨1, 26, "Republic Day"⟩, ⟨3, 22, "Holi"⟩, ⟨4, 2, "Good Friday"⟩,
    ⟨4, 14, "Dr. Baba Saheb Ambedkar Jayanti"⟩, ⟨5, 1, "Maharashtra Day"⟩,
    ⟨8, 15, "Independence Day"⟩, ⟨10, 2, "Mahatma Gandhi Jayanti"⟩, ⟨12, 25, "Christmas"⟩]

/-- `_HOLIDAYS_2028`. -/
def holidays2028 : List Holiday :=
  [⟨1, 26, "Republic Day"⟩, ⟨3, 10, "Holi"⟩,
    ⟨4, 14, "Dr. Baba Saheb Ambedkar Jayanti / Good Friday"⟩, ⟨5, 1, "Maharashtra Day"⟩,
    ⟨8, 15, "Independence Day"⟩, ⟨10, 2, "Mahatma Gandhi Jayanti"⟩, ⟨12, 25, "Christmas"⟩]

/-- `_HOLIDAYS_2029`. -/
def holidays2029 : List Holiday :=
  [⟨1, 26, "Republic Day"⟩, ⟨3, 1, "Holi"⟩, ⟨3, 30, "Good Friday"⟩,
    ⟨4, 14, "Dr. Baba Saheb Ambedkar Jayanti"⟩, ⟨5, 1, "Maharashtra Day"⟩,
    ⟨8, 15, "Independence Day"⟩, ⟨10, 2, "Mahatma Gandhi Jayanti"⟩, ⟨12, 25, "Christmas"⟩]

/-- `_HOLIDAYS_2030`. -/
def holidays2030 : List Holiday :=
  [⟨1, 26, "Republic Day"⟩, ⟨3, 20, "Holi"⟩, ⟨4, 14, "Dr. Baba Saheb Ambedkar Jayanti"⟩,
    ⟨4, 19, "Good Friday"⟩, ⟨5, 1, "Maharashtra Day"⟩, ⟨8, 15, "Independence Day"⟩,
    ⟨10, 2, "Mahatma Gandhi Jayanti"⟩, ⟨12, 25, "Christmas"⟩]

/-- `_ALL_HOLIDAYS.get(year, [])`. -/
def allHolidays (year : ℤ) : List Holiday :=
  if year = 2025 then holidays2025
  else if year = 2026 then holidays2026
  else if year = 2027 then holidays2027
  else if year = 2028 then holidays2028
  else if year = 2029 then holidays2029
  else if year = 2030 then holidays2030
  else []

/-- `get_holiday_dates`. -/
def getHolidayDates (year : ℤ) : List ℤ :=
  (allHolidays year).map fun h => dateOf ⟨year, h.month, h.day⟩

/-- `get_holiday_name`. -/
def getHolidayName (day : ℤ) : Option String :=
  let c := civilOf day
  ((allHolidays c.year).find? fun h => c.month = h.month && c.day = h.day).map (·.name)

/-- `is_trading_holiday`. -/
def isTradingHoliday (day : ℤ) : Bool := (getHolidayDates (civilOf day).year).contains day

/-- The first day from `day` on, within `n` days, that meets `p`. -/
def firstFrom (p : ℤ → Bool) : ℕ → ℤ → Option ℤ
  | 0, _ => none
  | n + 1, day => if p day then some day else firstFrom p n (day + 1)

/-- `get_next_trading_day`; `none` where the search runs over `date.max` (`OverflowError`). -/
def getNextTradingDay (day : ℤ) : Option ℤ :=
  firstFrom (tradingDay isTradingHoliday) (dateMax - day).toNat (day + 1)

/-- The last day up to `day`, within `n` days, that meets `p`. -/
def lastUpTo (p : ℤ → Bool) : ℕ → ℤ → Option ℤ
  | 0, _ => none
  | n + 1, day => if p day then some day else lastUpTo p n (day - 1)

/-- `get_previous_trading_day`; `none` where the search runs under `date.min` (`OverflowError`). -/
def getPreviousTradingDay (day : ℤ) : Option ℤ :=
  lastUpTo (tradingDay isTradingHoliday) (day - dateMin).toNat (day - 1)

/-! ## 3. Names and holidays -/

theorem dateOf_civilOf (day : ℤ) : dateOf (civilOf day) = day := by
  unfold dateOf civilOf
  rw [(ordinal_civil _).1]
  omega

/-- The dates of the tables are dates. -/
theorem allHolidays_valid (year : ℤ) : ∀ h ∈ allHolidays year,
    (⟨year, h.month, h.day⟩ : Civil).Valid := by
  unfold allHolidays
  split_ifs with h1 h2 h3 h4 h5 h6
  · subst h1
    decide
  · subst h2
    decide
  · subst h3
    decide
  · subst h4
    decide
  · subst h5
    decide
  · subst h6
    decide
  · exact nofun

/-- **A date has a holiday's name exactly when it is a holiday.** -/
theorem getHolidayName_isSome (day : ℤ) :
    (getHolidayName day).isSome = true ↔ isTradingHoliday day = true := by
  unfold getHolidayName isTradingHoliday getHolidayDates
  dsimp only
  rw [Option.isSome_map, List.find?_isSome, List.contains_iff_mem, List.mem_map]
  refine exists_congr fun h => and_congr_right fun hmem => ?_
  rw [Bool.and_eq_true, decide_eq_true_iff, decide_eq_true_iff]
  constructor
  · intro hdate
    obtain ⟨hm, hd⟩ := hdate
    rw [← hm, ← hd]
    exact dateOf_civilOf day
  · intro hday
    have hord : ordinal ⟨(civilOf day).year, h.month, h.day⟩ = ordinal (civilOf day) := by
      have := dateOf_civilOf day
      unfold dateOf at hday this
      omega
    have e := civil_ext_of_ordinal (allHolidays_valid _ h hmem) (ordinal_civil _).2 rfl hord
    exact ⟨(congrArg Civil.month e).symm, (congrArg Civil.day e).symm⟩

/-- The names are of the years of the tables. -/
theorem getHolidayName_eq_none {day : ℤ}
    (h : day < dateOf ⟨2025, 1, 1⟩ ∨ dateOf ⟨2031, 1, 1⟩ < day) : getHolidayName day = none := by
  have hyear : (civilOf day).year < 2025 ∨ 2030 < (civilOf day).year := by
    obtain ⟨hord, hvalid⟩ := ordinal_civil (day + epochOrdinal)
    have hwithin := ordinal_within hvalid
    rw [hord] at hwithin
    have hfirst : dateOf ⟨2025, 1, 1⟩ = 20089 := by decide
    have hlast : dateOf ⟨2031, 1, 1⟩ = 22280 := by decide
    rw [hfirst, hlast] at h
    unfold civilOf
    unfold daysBeforeYear at hwithin
    dsimp only at hwithin
    unfold epochOrdinal at hwithin ⊢
    omega
  have hnone : allHolidays (civilOf day).year = [] := by
    unfold allHolidays
    rw [if_neg (by omega), if_neg (by omega), if_neg (by omega), if_neg (by omega),
      if_neg (by omega), if_neg (by omega)]
  unfold getHolidayName
  dsimp only
  rw [hnone]
  rfl

/-! ## 4. The next trading day -/

section Search

variable {p : ℤ → Bool} {n : ℕ} {day d : ℤ}

theorem firstFrom_eq_some : firstFrom p n day = some d ↔
    IsLeast {x | day ≤ x ∧ x < day + n ∧ p x = true} d := by
  induction n generalizing day with
  | zero =>
    refine iff_of_false nofun fun h => ?_
    obtain ⟨hle, hlt, -⟩ := h.1
    push_cast at hlt
    omega
  | succ n ih =>
    unfold firstFrom
    by_cases hp : p day = true
    · rw [if_pos hp]
      have hleast : IsLeast {x | day ≤ x ∧ x < day + (n + 1 : ℕ) ∧ p x = true} day :=
        ⟨⟨le_refl _, by push_cast; omega, hp⟩, fun x hx => hx.1⟩
      exact ⟨fun h => Option.some.inj h ▸ hleast, fun h => congrArg some (hleast.unique h)⟩
    · rw [if_neg hp, ih]
      have hset : {x | day ≤ x ∧ x < day + (n + 1 : ℕ) ∧ p x = true} =
          {x | day + 1 ≤ x ∧ x < day + 1 + n ∧ p x = true} := by
        ext x
        constructor
        · intro hx
          obtain ⟨hle, hlt, hpx⟩ := hx
          have hne : x ≠ day := fun e => hp (e ▸ hpx)
          push_cast at hlt
          exact ⟨by omega, by omega, hpx⟩
        · intro hx
          obtain ⟨hle, hlt, hpx⟩ := hx
          exact ⟨by omega, by push_cast; omega, hpx⟩
      rw [hset]

theorem firstFrom_eq_none : firstFrom p n day = none ↔ ∀ x, day ≤ x → x < day + n → p x = false := by
  induction n generalizing day with
  | zero =>
    refine iff_of_true rfl fun x hle hlt => ?_
    push_cast at hlt
    omega
  | succ n ih =>
    unfold firstFrom
    by_cases hp : p day = true
    · rw [if_pos hp]
      refine iff_of_false nofun fun h => ?_
      rw [h day (le_refl _) (by push_cast; omega)] at hp
      cases hp
    · rw [if_neg hp, ih]
      constructor
      · intro h x hle hlt
        rcases hle.eq_or_lt with rfl | hlt'
        · simpa using hp
        · push_cast at hlt
          exact h x (by omega) (by omega)
      · intro h x hle hlt
        exact h x (by omega) (by push_cast; omega)

end Search

/-- **The next trading day is the least one after the date**, as far as the calendar goes. -/
theorem getNextTradingDay_eq_some {day d : ℤ} : getNextTradingDay day = some d ↔
    IsLeast {x | day < x ∧ x ≤ dateMax ∧ tradingDay isTradingHoliday x = true} d := by
  unfold getNextTradingDay
  rw [firstFrom_eq_some]
  have hset : {x | day + 1 ≤ x ∧ x < day + 1 + ((dateMax - day).toNat : ℤ) ∧
      tradingDay isTradingHoliday x = true} =
      {x | day < x ∧ x ≤ dateMax ∧ tradingDay isTradingHoliday x = true} := by
    ext x
    constructor
    · intro h
      obtain ⟨hle, hlt, hday⟩ := h
      exact ⟨by omega, by omega, hday⟩
    · intro h
      obtain ⟨hlt, hle, hday⟩ := h
      exact ⟨by omega, by omega, hday⟩
  rw [hset]

theorem getNextTradingDay_eq_none {day : ℤ} : getNextTradingDay day = none ↔
    ∀ x, day < x → x ≤ dateMax → tradingDay isTradingHoliday x = false := by
  unfold getNextTradingDay
  rw [firstFrom_eq_none]
  constructor
  · exact fun h x hlt hle => h x (by omega) (by omega)
  · exact fun h x hle hlt => h x (by omega) (by omega)

/-- **Two dates have the same next trading day exactly when no trading day lies between them.** -/
theorem getNextTradingDay_eq_iff {day day' : ℤ} : getNextTradingDay day = getNextTradingDay day' ↔
    ∀ x ≤ dateMax, tradingDay isTradingHoliday x = true → (day < x ↔ day' < x) := by
  constructor
  · intro h x hmax hx
    cases hd : getNextTradingDay day with
    | none =>
      have hno := getNextTradingDay_eq_none.1 hd
      have hno' := getNextTradingDay_eq_none.1 (h ▸ hd)
      exact iff_of_false (fun hlt => by simp [hno x hlt hmax] at hx)
        fun hlt => by simp [hno' x hlt hmax] at hx
    | some d =>
      obtain ⟨⟨hlt, -, -⟩, hleast⟩ := getNextTradingDay_eq_some.1 hd
      obtain ⟨⟨hlt', -, -⟩, hleast'⟩ := getNextTradingDay_eq_some.1 (h ▸ hd)
      exact ⟨fun hx' => hlt'.trans_le (hleast ⟨hx', hmax, hx⟩),
        fun hx' => hlt.trans_le (hleast' ⟨hx', hmax, hx⟩)⟩
  · intro h
    have hset : {x | day < x ∧ x ≤ dateMax ∧ tradingDay isTradingHoliday x = true} =
        {x | day' < x ∧ x ≤ dateMax ∧ tradingDay isTradingHoliday x = true} := by
      ext x
      exact and_congr_left fun hx => h x hx.1 hx.2
    refine Option.ext fun d => ?_
    rw [getNextTradingDay_eq_some, getNextTradingDay_eq_some, hset]

end BharatTicker
