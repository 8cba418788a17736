/-
  File:      BharatTicker/IstClock/NextOpen.lean
  Subject:   THE NEXT OPENING (`utils/ist_clock.py`). The search for it and the classification of
             sessions are written down separately.

  A datetime is what its local clock shows, with the offset of its zone; without one it is naive. A
  naive datetime stands for IST wherever one is converted.

  * `Datetime`, `getNextMarketOpen` -- the function, on the local date and time of its argument;
  * `openingDay` -- the first day whose opening the local clock has not reached;
    `getNextMarketOpen_eq`: the next opening is of the first trading day from there on;
  * `continuous_iff`, `StartsTrading`, `startsTrading_iff` -- continuous trading starts at 09:15 of a
    trading day and at no other time;
  * `next_open_exact` -- for naive and IST datetimes, the next opening is the least instant after the
    datetime at which trading starts.
-/
import BharatTicker.Holidays

namespace BharatTicker

-- the concrete runs below compute with rationals
unseal Rat.add Rat.mul Rat.sub Rat.inv

/-! ## 1. Datetimes -/

/-- A `datetime`: the seconds from 1970-01-01 00:00 on its own clock, and the `utcoffset` of its zone. -/
structure Datetime where
  wall : ℚ
  utcoffset : Option ℚ
  /-- The dates of the language are those from `date.min` to `date.max`. -/
  inCalendar : dateMin ≤ ⌊wall / 86400⌋ ∧ ⌊wall / 86400⌋ ≤ dateMax
  /-- An offset is less than a day. -/
  offset_lt : ∀ offset ∈ utcoffset, |offset| < 86400
  deriving DecidableEq

namespace Datetime

/-- `dt.date()`. -/
def date (dt : Datetime) : ℤ := ⌊dt.wall / 86400⌋

/-- `dt.time()`, in seconds. -/
def time (dt : Datetime) : ℚ := dt.wall - dt.date * 86400

/-- The instant it denotes; a naive one is taken for IST. -/
def instant (dt : Datetime) : ℚ := dt.wall - dt.utcoffset.getD istOffset

/-- Naive, or in IST. -/
def IsIst (dt : Datetime) : Prop := dt.utcoffset = none ∨ dt.utcoffset = some istOffset

/-- What an Indian clock shows. -/
def ist (wall : ℚ) (h : dateMin ≤ ⌊wall / 86400⌋ ∧ ⌊wall / 86400⌋ ≤ dateMax) : Datetime where
  wall
  utcoffset := some istOffset
  inCalendar := h
  offset_lt := by decide

/-- The first day whose opening the local clock has not reached. -/
def openingDay (dt : Datetime) : ℤ := if dt.time < marketOpen then dt.date else dt.date + 1

end Datetime

/-- `get_next_market_open(dt)`: an instant; `none` where the calendar ends (`OverflowError`). The date and
    the time are those of the datetime, in whatever zone it is. -/
def getNextMarketOpen (dt : Datetime) : Option ℚ :=
  if dt.time < marketOpen ∧ weekday dt.date < 5 ∧ isTradingHoliday dt.date = false then
    some (sessionStart dt.date)
  else (getNextTradingDay dt.date).map sessionStart

/-! ## 2. The search -/

theorem tradingDay_iff {day : ℤ} : tradingDay isTradingHoliday day = true ↔
    weekday day < 5 ∧ isTradingHoliday day = false := by
  simp [tradingDay]

/-- 9999-12-31 is a Friday, and no holiday. -/
theorem tradingDay_dateMax : tradingDay isTradingHoliday dateMax = true := by decide

section Search

variable (dt : Datetime)

/-- **The next opening is that of the first trading day from the opening day on.** -/
theorem getNextMarketOpen_eq :
    getNextMarketOpen dt = (getNextTradingDay (dt.openingDay - 1)).map sessionStart := by
  unfold getNextMarketOpen Datetime.openingDay
  by_cases htime : dt.time < marketOpen
  · rw [if_pos htime]
    by_cases hday : tradingDay isTradingHoliday dt.date = true
    · rw [if_pos ⟨htime, tradingDay_iff.1 hday⟩]
      have hnext : getNextTradingDay (dt.date - 1) = some dt.date := by
        refine getNextTradingDay_eq_some.2 ⟨⟨by omega, dt.inCalendar.2, hday⟩, fun x hx => ?_⟩
        have := hx.1
        omega
      rw [hnext]
      rfl
    · rw [if_neg fun h => hday (tradingDay_iff.2 h.2)]
      refine congrArg _ (getNextTradingDay_eq_iff.2 fun x _ hx => ?_)
      have hne : x ≠ dt.date := fun e => hday (e ▸ hx)
      omega
  · rw [if_neg htime, if_neg fun h => htime h.1, Int.add_sub_cancel]

/-- Up to the last day of the calendar there is a next opening. -/
theorem getNextMarketOpen_isSome :
    (getNextMarketOpen dt).isSome = true ↔ dt.openingDay ≤ dateMax := by
  rw [getNextMarketOpen_eq, Option.isSome_map]
  constructor
  · intro h
    obtain ⟨d, hd⟩ := Option.isSome_iff_exists.mp h
    obtain ⟨hlt, hmax, -⟩ := (getNextTradingDay_eq_some.1 hd).1
    omega
  · intro h
    rw [Option.isSome_iff_ne_none]
    intro hnone
    have := getNextTradingDay_eq_none.1 hnone dateMax (by omega) (le_refl _)
    rw [tradingDay_dateMax] at this
    cases this

end Search

/-! ## 3. The sessions around an opening -/

section Sessions

variable {t s : ℚ} {day : ℤ}

/-- `datetime.combine(day, _MARKET_CLOSE, tzinfo=IST)`. -/
def sessionEnd (day : ℤ) : ℚ := dayStart day + marketClose

theorem dayStart_lt_sessionStart : dayStart day < sessionStart day := by
  unfold sessionStart marketOpen
  linarith

theorem sessionStart_lt_sessionEnd : sessionStart day < sessionEnd day := by
  unfold sessionStart sessionEnd marketOpen marketClose
  linarith

theorem sessionEnd_lt_dayStart : sessionEnd day < dayStart (day + 1) := by
  unfold sessionEnd dayStart marketClose
  push_cast
  linarith

theorem sessionStart_strictMono : StrictMono sessionStart := by
  intro d d' h
  unfold sessionStart dayStart
  have : (d : ℚ) < d' := by exact_mod_cast h
  linarith

theorem sessionEnd_mono : Monotone sessionEnd := by
  intro d d' h
  unfold sessionEnd dayStart
  have : (d : ℚ) ≤ d' := by exact_mod_cast h
  linarith

/-- Trading is continuous from the opening of a trading day to its close. -/
theorem continuous_iff : getMarketSession isTradingHoliday t = .continuousTrading ↔
    ∃ day, tradingDay isTradingHoliday day = true ∧ sessionStart day ≤ t ∧ t < sessionEnd day := by
  rw [getMarketSession_eq_continuous]
  unfold istTime
  constructor
  · intro h
    obtain ⟨hday, hle, hlt⟩ := h
    refine ⟨istDay t, hday, ?_, ?_⟩
    · unfold sessionStart
      linarith
    · unfold sessionEnd
      linarith
  · intro h
    obtain ⟨day, hday, hle, hlt⟩ := h
    obtain rfl : istDay t = day :=
      istDay_eq_iff.2 ⟨(dayStart_le_sessionStart _).trans hle, hlt.trans sessionEnd_lt_dayStart⟩
    unfold sessionStart at hle
    unfold sessionEnd at hlt
    exact ⟨hday, by linarith, by linarith⟩

/-- Trading is continuous at `s`, and not throughout any time before it. -/
def StartsTrading (s : ℚ) : Prop :=
  getMarketSession isTradingHoliday s = .continuousTrading ∧
    ∀ ε > 0, ∃ r, s - ε < r ∧ r < s ∧ getMarketSession isTradingHoliday r ≠ .continuousTrading

/-- **Continuous trading starts at 09:15 of a trading day, and at no other time.** -/
theorem startsTrading_iff : StartsTrading s ↔
    ∃ day, tradingDay isTradingHoliday day = true ∧ s = sessionStart day := by
  constructor
  · intro h
    obtain ⟨hs, hbefore⟩ := h
    obtain ⟨day, hday, hle, hlt⟩ := continuous_iff.1 hs
    refine ⟨day, hday, (hle.eq_or_lt.resolve_right fun hafter => ?_).symm⟩
    -- later in the session, trading has been continuous since the opening
    obtain ⟨r, hr, hrs, hno⟩ := hbefore (s - sessionStart day) (by linarith)
    exact hno (continuous_iff.2 ⟨day, hday, by linarith, hrs.trans hlt⟩)
  · rintro ⟨day, hday, rfl⟩
    refine ⟨continuous_iff.2 ⟨day, hday, le_refl _, sessionStart_lt_sessionEnd⟩, fun ε hε => ?_⟩
    -- an instant of the day before the opening
    obtain ⟨r, hr, hrs⟩ := exists_between
      (max_lt (by linarith : sessionStart day - ε < sessionStart day) dayStart_lt_sessionStart)
    obtain ⟨hrε, hrday⟩ := max_lt_iff.mp hr
    refine ⟨r, hrε, hrs, fun h => ?_⟩
    have hday : istDay r = day := istDay_eq_iff.2 ⟨hrday.le,
      hrs.trans (sessionStart_lt_sessionEnd.trans sessionEnd_lt_dayStart)⟩
    have htime := (getMarketSession_eq_continuous.1 h).2.1
    unfold istTime at htime
    rw [hday] at htime
    unfold sessionStart at hrs
    linarith

end Sessions

/-! ## 4. The next opening -/

section Exact

variable {dt : Datetime}

theorem Datetime.IsIst.utcoffset_getD (hist : dt.IsIst) :
    dt.utcoffset.getD istOffset = istOffset := by
  obtain h | h := hist
  · rw [h]
    rfl
  · rw [h]
    rfl

/-- On an Indian clock the opening day is the first one whose opening is still to come. -/
theorem instant_lt_sessionStart_iff (hist : dt.IsIst) {day : ℤ} :
    dt.instant < sessionStart day ↔ dt.openingDay ≤ day := by
  obtain ⟨hle, hlt⟩ := (Int.floor_eq_iff (z := dt.date)).mp rfl
  rw [le_div_iff₀ (by norm_num)] at hle
  rw [div_lt_iff₀ (by norm_num)] at hlt
  unfold Datetime.instant Datetime.openingDay sessionStart dayStart Datetime.time
  rw [hist.utcoffset_getD]
  constructor
  · intro h
    by_contra hday
    split_ifs at hday with hopen
    · have : (day : ℚ) + 1 ≤ dt.date := by exact_mod_cast (by omega : day + 1 ≤ dt.date)
      unfold marketOpen at h
      linarith
    · have : (day : ℚ) ≤ dt.date := by exact_mod_cast (by omega : day ≤ dt.date)
      linarith
  · intro h
    split_ifs at h with hopen
    · have : (dt.date : ℚ) ≤ day := by exact_mod_cast h
      linarith
    · have : (dt.date : ℚ) + 1 ≤ day := by exact_mod_cast h
      unfold marketOpen
      linarith

/-- On an Indian clock the next opening is still to come. -/
theorem lt_of_getNextMarketOpen (hist : dt.IsIst) {t : ℚ} (h : getNextMarketOpen dt = some t) :
    dt.instant < t := by
  rw [getNextMarketOpen_eq, Option.map_eq_some_iff] at h
  obtain ⟨day, hday, rfl⟩ := h
  have hfrom := (getNextTradingDay_eq_some.1 hday).1.1
  exact (instant_lt_sessionStart_iff hist).mpr (by omega)

/-- **The next market open is exact.** Before the last opening of the calendar, the result is the least
    instant after a naive or IST datetime that is 09:15 of a trading day; trading is continuous at it, and
    starts at no instant between the two. -/
theorem next_open_exact (hist : dt.IsIst) (hcal : dt.instant < sessionStart dateMax) :
    ∃ t, getNextMarketOpen dt = some t ∧
      IsLeast {s | dt.instant < s ∧
        ∃ day, weekday day < 5 ∧ isTradingHoliday day = false ∧ s = sessionStart day} t ∧
      getMarketSession isTradingHoliday t = .continuousTrading ∧
      ∀ s, dt.instant < s → s < t → ¬ StartsTrading s := by
  rw [instant_lt_sessionStart_iff hist] at hcal
  obtain ⟨t, ht⟩ := Option.isSome_iff_exists.mp ((getNextMarketOpen_isSome dt).mpr hcal)
  have hafter := lt_of_getNextMarketOpen hist ht
  have hnext := ht
  rw [getNextMarketOpen_eq, Option.map_eq_some_iff] at hnext
  obtain ⟨day, hday, rfl⟩ := hnext
  obtain ⟨⟨-, hmax, htrading⟩, hleast⟩ := getNextTradingDay_eq_some.1 hday
  -- every opening after the datetime is of a day from `day` on
  have hlow : ∀ x, tradingDay isTradingHoliday x = true → dt.instant < sessionStart x → day ≤ x := by
    intro x hx hlt
    rw [instant_lt_sessionStart_iff hist] at hlt
    by_cases hle : x ≤ dateMax
    · exact hleast ⟨by omega, hle, hx⟩
    · omega
  refine ⟨sessionStart day, ht, ⟨⟨hafter, day, (tradingDay_iff.1 htrading).1,
    (tradingDay_iff.1 htrading).2, rfl⟩, ?_⟩, ?_, ?_⟩
  · rintro s ⟨hlt, x, hweek, hholiday, rfl⟩
    exact sessionStart_strictMono.monotone (hlow x (tradingDay_iff.2 ⟨hweek, hholiday⟩) hlt)
  · exact continuous_iff.2 ⟨day, htrading, le_refl _, sessionStart_lt_sessionEnd⟩
  · intro s hlt hbefore hstarts
    obtain ⟨x, hx, rfl⟩ := startsTrading_iff.1 hstarts
    exact absurd (sessionStart_strictMono.monotone (hlow x hx hlt)) (not_le.mpr hbefore)

end Exact

/-- Friday, 23 January 2026, 16:00 in India. -/
def fridayEvening : Datetime := .ist (20476 * 86400 + 16 * 3600) (by decide)

theorem next_open_exact_friday : ∃ t, getNextMarketOpen fridayEvening = some t ∧
    IsLeast {s | fridayEvening.instant < s ∧
      ∃ day, weekday day < 5 ∧ isTradingHoliday day = false ∧ s = sessionStart day} t ∧
    getMarketSession isTradingHoliday t = .continuousTrading ∧
    ∀ s, fridayEvening.instant < s → s < t → ¬ StartsTrading s :=
  next_open_exact (Or.inr rfl) (by decide)

/-- The Monday after it is Republic Day: the next opening is on Tuesday. -/
example : getNextMarketOpen fridayEvening = some (sessionStart 20480) := by decide

end BharatTicker
