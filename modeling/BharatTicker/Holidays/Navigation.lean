/-
  File:      BharatTicker/Holidays/Navigation.lean
  Subject:   FROM ONE TRADING DAY TO THE NEXT (`config/holidays.py`). The two searches end soon: no three
             days in a row are in the tables, so that one of the first three days of a week is a
             trading day.

  * `holidayDays` -- the days of all tables; `three_days_trade`;
  * `exists_tradingDay_after`, `exists_tradingDay_before` -- a trading day within two weeks;
  * `lastUpTo_eq_map`, `getPreviousTradingDay_eq_some` -- the search backwards is the search forwards
    on the mirrored days, and finds the greatest trading day before a date;
  * `trading_day_navigation` -- both searches end, are exact, and undo each other on trading days.
-/
import BharatTicker.Holidays

namespace BharatTicker

/-! ## 1. How long the exchange is closed -/

/-- The days of all tables. -/
def holidayDays : List ℤ := (List.range 6).flatMap fun k : ℕ => getHolidayDates (2025 + (k : ℤ))

theorem mem_holidayDays {day : ℤ} (h : isTradingHoliday day = true) : day ∈ holidayDays := by
  unfold isTradingHoliday at h
  rw [List.contains_iff_mem] at h
  generalize (civilOf day).year = year at h
  -- a year without a table has no holiday
  have hyear : 2025 ≤ year ∧ year ≤ 2030 := by
    by_contra hout
    have hnone : allHolidays year = [] := by
      unfold allHolidays
      rw [if_neg (by omega), if_neg (by omega), if_neg (by omega), if_neg (by omega),
        if_neg (by omega), if_neg (by omega)]
    unfold getHolidayDates at h
    rw [hnone] at h
    cases h
  have hk : (2025 + ((year - 2025).toNat : ℤ)) = year := by omega
  have hrange : (year - 2025).toNat ∈ List.range 6 := List.mem_range.mpr (by omega)
  refine List.mem_flatMap.mpr ⟨(year - 2025).toNat, hrange, ?_⟩
  rw [hk]
  exact h

/-- No three days in a row are in the tables. -/
theorem holidayDays_apart : ∀ day ∈ holidayDays, day + 1 ∉ holidayDays ∨ day + 2 ∉ holidayDays := by
  decide +kernel

/-- One of the first three days of a week is a trading day. -/
theorem three_days_trade (monday : ℤ) (h : weekday monday = 0) :
    ∃ day, monday ≤ day ∧ day ≤ monday + 2 ∧ tradingDay isTradingHoliday day = true := by
  have htrading : ∀ k, 0 ≤ k → k ≤ 2 → monday + k ∉ holidayDays →
      tradingDay isTradingHoliday (monday + k) = true := by
    intro k hk hk2 hno
    have hweek : weekday (monday + k) < 5 := by
      unfold weekday at h ⊢
      omega
    have hday : isTradingHoliday (monday + k) = false :=
      Bool.eq_false_iff.mpr fun htrue => hno (mem_holidayDays htrue)
    simp [tradingDay, hweek, hday]
  by_cases hmem : monday ∈ holidayDays
  · rcases holidayDays_apart monday hmem with h1 | h2
    · exact ⟨monday + 1, by omega, by omega, htrading 1 (by omega) (by omega) h1⟩
    · exact ⟨monday + 2, by omega, by omega, htrading 2 (by omega) (by omega) h2⟩
  · exact ⟨monday, by omega, by omega, by
      have := htrading 0 (by omega) (by omega) (by rwa [add_zero])
      rwa [add_zero] at this⟩

theorem exists_tradingDay_after (day : ℤ) :
    ∃ x, day < x ∧ x ≤ day + 14 ∧ tradingDay isTradingHoliday x = true := by
  -- the Monday after the day
  obtain ⟨x, hle, hlt, hx⟩ := three_days_trade (day + 7 - weekday day) (by
    unfold weekday
    omega)
  unfold weekday at hle hlt
  exact ⟨x, by omega, by omega, hx⟩

theorem exists_tradingDay_before (day : ℤ) :
    ∃ x, x < day ∧ day - 14 ≤ x ∧ tradingDay isTradingHoliday x = true := by
  -- the Monday of the week before
  obtain ⟨x, hle, hlt, hx⟩ := three_days_trade (day - 7 - weekday day) (by
    unfold weekday
    omega)
  unfold weekday at hle hlt
  exact ⟨x, by omega, by omega, hx⟩

/-! ## 2. The search backwards -/

/-- The search backwards is the search forwards on the mirrored days. -/
theorem lastUpTo_eq_map (p : ℤ → Bool) (n : ℕ) (day : ℤ) :
    lastUpTo p n day = (firstFrom (fun x => p (-x)) n (-day)).map fun x => -x := by
  induction n generalizing day with
  | zero => rfl
  | succ n ih =>
    unfold lastUpTo firstFrom
    rw [neg_neg]
    by_cases hp : p day = true
    · rw [if_pos hp, if_pos hp, Option.map_some, neg_neg]
    · rw [if_neg hp, if_neg hp, ih]
      congr 2
      ring

/-- A day of the range with the property ends the search. -/
theorem lastUpTo_exists (p : ℤ → Bool) (n : ℕ) {day x : ℤ} (hle : x ≤ day) (hlt : day - n < x)
    (hx : p x = true) : ∃ d, lastUpTo p n day = some d := by
  rw [lastUpTo_eq_map]
  cases hd : firstFrom (fun y => p (-y)) n (-day) with
  | some d => exact ⟨-d, rfl⟩
  | none =>
    have hno := firstFrom_eq_none.1 hd (-x) (by omega) (by omega)
    rw [neg_neg, hx] at hno
    cases hno

/-- **The previous trading day is the greatest one before the date**, as far as the calendar goes. -/
theorem getPreviousTradingDay_eq_some {day d : ℤ} : getPreviousTradingDay day = some d ↔
    IsGreatest {x | x < day ∧ dateMin ≤ x ∧ tradingDay isTradingHoliday x = true} d := by
  have hmirror : ∀ x : ℤ, (-day + 1 ≤ x ∧ x < -day + 1 + (day - dateMin).toNat ∧
      tradingDay isTradingHoliday (-x) = true) ↔
      (-x < day ∧ dateMin ≤ -x ∧ tradingDay isTradingHoliday (-x) = true) := by
    intro x
    constructor
    · intro h
      obtain ⟨hle, hlt, hx⟩ := h
      exact ⟨by omega, by omega, hx⟩
    · intro h
      obtain ⟨hlt, hle, hx⟩ := h
      exact ⟨by omega, by omega, hx⟩
  unfold getPreviousTradingDay
  rw [lastUpTo_eq_map, show -(day - 1) = -day + 1 by ring, Option.map_eq_some_iff]
  constructor
  · rintro ⟨x, hx, rfl⟩
    obtain ⟨hmem, hleast⟩ := firstFrom_eq_some.1 hx
    refine ⟨(hmirror x).mp hmem, fun y hy => ?_⟩
    have hy' : (- -y < day ∧ dateMin ≤ - -y ∧ tradingDay isTradingHoliday (- -y) = true) := by
      rw [neg_neg]
      exact hy
    have := hleast ((hmirror (-y)).mpr hy')
    omega
  · intro h
    obtain ⟨hmem, hgreatest⟩ := h
    refine ⟨-d, firstFrom_eq_some.2 ⟨(hmirror (-d)).mpr (by rwa [neg_neg]), fun y hy => ?_⟩,
      neg_neg d⟩
    have := hgreatest ((hmirror y).mp hy)
    omega

/-! ## 3. Both searches -/

section Navigation

variable {day : ℤ}

theorem exists_next (hmax : day + 14 ≤ dateMax) : ∃ next, getNextTradingDay day = some next ∧
    IsLeast {x | day < x ∧ tradingDay isTradingHoliday x = true} next := by
  obtain ⟨x, hlt, hle, hx⟩ := exists_tradingDay_after day
  cases hd : getNextTradingDay day with
  | none =>
    have hno := getNextTradingDay_eq_none.1 hd x hlt (by omega)
    rw [hno] at hx
    cases hx
  | some d =>
    obtain ⟨⟨hday, hdmax, htrading⟩, hleast⟩ := getNextTradingDay_eq_some.1 hd
    refine ⟨d, rfl, ⟨hday, htrading⟩, fun y hy => ?_⟩
    by_cases hymax : y ≤ dateMax
    · exact hleast ⟨hy.1, hymax, hy.2⟩
    · omega

theorem exists_previous (hmin : dateMin + 14 ≤ day) : ∃ previous,
    getPreviousTradingDay day = some previous ∧
    IsGreatest {x | x < day ∧ tradingDay isTradingHoliday x = true} previous := by
  obtain ⟨x, hlt, hle, hx⟩ := exists_tradingDay_before day
  -- the greatest of the finitely many trading days of the calendar before the day
  obtain ⟨d, hd⟩ := lastUpTo_exists (tradingDay isTradingHoliday) (day - dateMin).toNat
    (show x ≤ day - 1 by omega) (by omega) hx
  have hprevious : getPreviousTradingDay day = some d := hd
  obtain ⟨⟨hday, hdmin, htrading⟩, hgreatest⟩ := getPreviousTradingDay_eq_some.1 hprevious
  refine ⟨d, hprevious, ⟨hday, htrading⟩, fun y hy => ?_⟩
  by_cases hymin : dateMin ≤ y
  · exact hgreatest ⟨hy.1, hymin, hy.2⟩
  · omega

/-- Nothing is between a trading day and the next one: the search back from the next one finds it. -/
theorem previous_of_next {next : ℤ} (hmin : dateMin ≤ day)
    (htrading : tradingDay isTradingHoliday day = true)
    (hnext : IsLeast {x | day < x ∧ tradingDay isTradingHoliday x = true} next) :
    getPreviousTradingDay next = some day := by
  refine getPreviousTradingDay_eq_some.2 ⟨⟨hnext.1.1, hmin, htrading⟩, fun y hy => ?_⟩
  by_contra hlt
  have := hnext.2 ⟨by omega, hy.2.2⟩
  have := hy.1
  omega

theorem next_of_previous {previous : ℤ} (hmax : day ≤ dateMax)
    (htrading : tradingDay isTradingHoliday day = true)
    (hprevious : IsGreatest {x | x < day ∧ tradingDay isTradingHoliday x = true} previous) :
    getNextTradingDay previous = some day := by
  refine getNextTradingDay_eq_some.2 ⟨⟨hprevious.1.1, hmax, htrading⟩, fun y hy => ?_⟩
  by_contra hlt
  have := hprevious.2 ⟨by omega, hy.2.2⟩
  have := hy.1
  omega

end Navigation

/-- **Both searches end at the nearest trading day, and undo each other on trading days**: for every
    date two weeks away from the ends of the calendar. -/
theorem trading_day_navigation (d : ℤ) (hmin : dateMin + 14 ≤ d) (hmax : d + 14 ≤ dateMax) :
    ∃ next previous, getNextTradingDay d = some next ∧ getPreviousTradingDay d = some previous ∧
      IsLeast {x | d < x ∧ tradingDay isTradingHoliday x = true} next ∧
      IsGreatest {x | x < d ∧ tradingDay isTradingHoliday x = true} previous ∧
      (tradingDay isTradingHoliday d = true →
        getPreviousTradingDay next = some d ∧ getNextTradingDay previous = some d) := by
  obtain ⟨next, hnext, hleast⟩ := exists_next hmax
  obtain ⟨previous, hprevious, hgreatest⟩ := exists_previous hmin
  refine ⟨next, previous, hnext, hprevious, hleast, hgreatest, fun htrading => ?_⟩
  exact ⟨previous_of_next (by omega) htrading hleast, next_of_previous (by omega) htrading hgreatest⟩

/-- Around Monday 5 January 2026: the Friday before and the Tuesday after. -/
theorem trading_day_navigation_monday :
    ∃ next previous, getNextTradingDay 20458 = some next ∧
      getPreviousTradingDay 20458 = some previous ∧
      IsLeast {x | 20458 < x ∧ tradingDay isTradingHoliday x = true} next ∧
      IsGreatest {x | x < 20458 ∧ tradingDay isTradingHoliday x = true} previous ∧
      (tradingDay isTradingHoliday 20458 = true →
        getPreviousTradingDay next = some 20458 ∧ getNextTradingDay previous = some 20458) :=
  trading_day_navigation 20458 (by decide) (by decide)

end BharatTicker
