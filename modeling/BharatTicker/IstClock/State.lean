/-
  File:      BharatTicker/IstClock/State.lean
  Subject:   THE MARKET STATE (`get_market_state_dict` of `utils/ist_clock.py`).

  `get_market_session` converts its argument to IST; `get_next_market_open` and `get_market_state_dict`
  read the date and the time that the datetime shows in its own zone.

  * `Datetime.session`, `getMarketCloseToday`, `getMarketStateDict` -- the functions;
  * `clock_agrees_iff` -- two datetimes of one instant have the same next opening and the same state
    exactly when no trading day lies between their opening days and their dates have the same holiday;
  * `announces_future_iff` -- the state of the current time announces one time, later than itself,
    exactly outside the post-close session and before the last close of the calendar.
-/
import BharatTicker.IstClock.NextOpen

namespace BharatTicker

-- the concrete runs below compute with rationals
unseal Rat.add Rat.mul Rat.sub Rat.inv

/-! ## 1. The functions -/

/-- `get_market_session(dt)`, which converts to IST; `none` where the conversion leaves the calendar
    (`OverflowError`). -/
def Datetime.session (dt : Datetime) : Option MarketSession :=
  if dateMin ≤ istDay dt.instant ∧ istDay dt.instant ≤ dateMax then
    some (getMarketSession isTradingHoliday dt.instant)
  else none

def MarketSession.value : MarketSession → String
  | .preOpen => "PRE_OPEN"
  | .continuousTrading => "CONTINUOUS_TRADING"
  | .postClose => "POST_CLOSE"
  | .afterMarketClose => "AFTER_MARKET_CLOSE"
  | .closed => "CLOSED"
  | .holiday => "HOLIDAY"
  | .weekend => "WEEKEND"

/-- `status_map`. -/
def statusMap : MarketSession → String
  | .preOpen => "PRE_OPEN"
  | .continuousTrading => "OPEN"
  | .postClose => "POST_CLOSE"
  | .afterMarketClose => "CLOSED"
  | .closed => "CLOSED"
  | .holiday => "CLOSED"
  | .weekend => "CLOSED"

/-- `get_market_close_today()`; the clock shows the instant `now`. -/
def getMarketCloseToday (now : ℚ) : ℚ := sessionEnd (istDay now)

/-- The fields of a state but the `exchange_time`. -/
structure MarketTimes where
  status : String
  session : String
  nextOpen : Option ℚ
  nextClose : Option ℚ
  isHoliday : Bool
  holidayName : Option String
  deriving DecidableEq

structure MarketState extends MarketTimes where
  exchangeTime : Datetime
  deriving DecidableEq

/-- `get_market_state_dict(dt)` while the clock shows `now`; `none` where a conversion or the search
    leaves the calendar. -/
def getMarketStateDict (now : ℚ) (dt : Datetime) : Option MarketState := do
  let session ← dt.session
  let holidayName := getHolidayName dt.date
  let nextOpen ←
    if isMarketOpen isTradingHoliday dt.instant then pure none else (getNextMarketOpen dt).map some
  return {
    status := statusMap session
    session := session.value
    exchangeTime := dt
    nextOpen
    nextClose :=
      if isMarketOpen isTradingHoliday dt.instant then some (getMarketCloseToday now) else none
    isHoliday := session = .holiday
    holidayName }

/-! ## 2. One instant on two clocks -/

section TwoClocks

variable {dt a b : Datetime} {now : ℚ}

/-- An offset is less than a day: the Indian date is near the local one. -/
theorem istDay_near : dt.date ≤ istDay dt.instant + 2 ∧ istDay dt.instant ≤ dt.date + 2 := by
  have hoffset : |dt.utcoffset.getD istOffset| < 86400 := by
    cases hzone : dt.utcoffset with
    | none => decide
    | some offset => exact dt.offset_lt offset hzone
  obtain ⟨hlow, hhigh⟩ := abs_lt.mp hoffset
  obtain ⟨hle, hlt⟩ := (Int.floor_eq_iff (z := dt.date)).mp rfl
  rw [le_div_iff₀ (by norm_num)] at hle
  rw [div_lt_iff₀ (by norm_num)] at hlt
  obtain ⟨hle', hlt'⟩ := (istDay_eq_iff (t := dt.instant)).mp rfl
  generalize istDay dt.instant = day at hle' hlt' ⊢
  unfold Datetime.instant dayStart at hle' hlt'
  unfold istOffset at hle' hlt' hlow hhigh
  push_cast at hlt'
  constructor
  · have : (dt.date : ℚ) < day + 3 := by linarith
    have : dt.date < day + 3 := by exact_mod_cast this
    omega
  · have : (day : ℚ) < dt.date + 3 := by linarith
    have : day < dt.date + 3 := by exact_mod_cast this
    omega

/-- Where the conversion leaves the calendar, the date has no holiday. -/
theorem getHolidayName_of_session (h : dt.session = none) : getHolidayName dt.date = none := by
  have hout : istDay dt.instant < dateMin ∨ dateMax < istDay dt.instant := by
    unfold Datetime.session at h
    by_contra hin
    rw [if_pos (by omega)] at h
    cases h
  obtain ⟨hlow, hhigh⟩ : dt.date ≤ istDay dt.instant + 2 ∧ istDay dt.instant ≤ dt.date + 2 :=
    istDay_near
  have hmin : dateMin + 2 < dateOf ⟨2025, 1, 1⟩ := by decide
  have hmax : dateOf ⟨2031, 1, 1⟩ < dateMax - 2 := by decide
  exact getHolidayName_eq_none (by omega)

/-- Where the search leaves the calendar, the date has no holiday. -/
theorem getHolidayName_of_nextOpen (h : getNextMarketOpen dt = none) :
    getHolidayName dt.date = none := by
  have hday : dateMax < dt.openingDay := by
    by_contra hle
    have hsome := (getNextMarketOpen_isSome dt).mpr (by omega)
    rw [h] at hsome
    cases hsome
  have hle : dt.openingDay ≤ dt.date + 1 := by
    unfold Datetime.openingDay
    split_ifs
    · omega
    · omega
  have hmax : dateOf ⟨2031, 1, 1⟩ < dateMax := by decide
  exact getHolidayName_eq_none (by omega)

/-- The next openings agree when no trading day lies between the opening days. -/
theorem getNextMarketOpen_congr_iff : getNextMarketOpen a = getNextMarketOpen b ↔
    ∀ day ≤ dateMax, tradingDay isTradingHoliday day = true →
      (a.openingDay ≤ day ↔ b.openingDay ≤ day) := by
  rw [getNextMarketOpen_eq, getNextMarketOpen_eq,
    (Option.map_injective sessionStart_strictMono.injective).eq_iff, getNextTradingDay_eq_iff]
  refine forall₃_congr fun day _ _ => ?_
  rw [Int.sub_one_lt_iff, Int.sub_one_lt_iff]

/-- With one next opening, the states agree when the names of the holiday do. -/
theorem getMarketStateDict_congr_iff (h : a.instant = b.instant)
    (hopen : getNextMarketOpen a = getNextMarketOpen b) :
    (getMarketStateDict now a).map (·.toMarketTimes) =
        (getMarketStateDict now b).map (·.toMarketTimes) ↔
      getHolidayName a.date = getHolidayName b.date := by
  have hsession : a.session = b.session := by
    unfold Datetime.session
    rw [h]
  unfold getMarketStateDict
  rw [hsession, h, hopen]
  cases hs : b.session with
  | none =>
    refine iff_of_true rfl ?_
    rw [getHolidayName_of_session (hsession.trans hs), getHolidayName_of_session hs]
  | some session =>
    by_cases hmarket : isMarketOpen isTradingHoliday b.instant = true
    · simp [hmarket]
    · cases hn : getNextMarketOpen b with
      | none =>
        refine iff_of_true (by simp [hmarket]) ?_
        rw [getHolidayName_of_nextOpen (hopen.trans hn), getHolidayName_of_nextOpen hn]
      | some t => simp [hmarket]

/-- **The clock depends on the instant exactly this far.** On two datetimes of one instant the session,
    the next opening and the fields of the state agree if and only if no trading day lies between their
    opening days and their local dates have the same holiday's name, if any. -/
theorem clock_agrees_iff (h : a.instant = b.instant) :
    (a.session = b.session ∧ getNextMarketOpen a = getNextMarketOpen b ∧
      (getMarketStateDict now a).map (·.toMarketTimes) =
        (getMarketStateDict now b).map (·.toMarketTimes)) ↔
    (∀ day ≤ dateMax, tradingDay isTradingHoliday day = true →
      (a.openingDay ≤ day ↔ b.openingDay ≤ day)) ∧
    getHolidayName a.date = getHolidayName b.date := by
  have hsession : a.session = b.session := by
    unfold Datetime.session
    rw [h]
  rw [← getNextMarketOpen_congr_iff]
  constructor
  · intro hagree
    obtain ⟨-, hopen, hdict⟩ := hagree
    exact ⟨hopen, (getMarketStateDict_congr_iff h hopen).mp hdict⟩
  · intro hagree
    obtain ⟨hopen, hname⟩ := hagree
    exact ⟨hsession, hopen, (getMarketStateDict_congr_iff h hopen).mpr hname⟩

end TwoClocks

/-- Monday, 5 January 2026, 09:30 in India. -/
def mondayIst : Datetime := .ist (20458 * 86400 + 9 * 3600 + 30 * 60) (by decide)

/-- The same instant on a UTC clock: 04:00. -/
def mondayUtc : Datetime where
  wall := 20458 * 86400 + 4 * 3600
  utcoffset := some 0
  inCalendar := by decide
  offset_lt := by decide

/-- **The zone changes the next opening**: the UTC clock has not reached 09:15, and the result is an
    opening that is past. -/
theorem zone_changes_next_open : mondayIst.instant = mondayUtc.instant ∧
    getNextMarketOpen mondayIst = some (sessionStart 20459) ∧
    getNextMarketOpen mondayUtc = some (sessionStart 20458) ∧
    sessionStart 20458 < mondayUtc.instant ∧
    getNextMarketOpen mondayIst ≠ getNextMarketOpen mondayUtc := by
  refine ⟨?_, ?_, ?_, ?_, ?_⟩ <;> decide

/-- The same instant in Tokyo, at 13:00. -/
def mondayTokyo : Datetime where
  wall := 20458 * 86400 + 13 * 3600
  utcoffset := some (9 * 3600)
  inCalendar := by decide
  offset_lt := by decide

theorem clock_agrees_iff_tokyo :
    (mondayIst.session = mondayTokyo.session ∧
      getNextMarketOpen mondayIst = getNextMarketOpen mondayTokyo ∧
      (getMarketStateDict 0 mondayIst).map (·.toMarketTimes) =
        (getMarketStateDict 0 mondayTokyo).map (·.toMarketTimes)) ↔
    (∀ day ≤ dateMax, tradingDay isTradingHoliday day = true →
      (mondayIst.openingDay ≤ day ↔ mondayTokyo.openingDay ≤ day)) ∧
    getHolidayName mondayIst.date = getHolidayName mondayTokyo.date :=
  clock_agrees_iff (by decide)

/-! ## 3. The current state -/

section Current

variable {now : Datetime}

/-- A state announces one time, the next opening or the next close, and it is later than the state. -/
def MarketState.AnnouncesFuture (st : MarketState) : Prop :=
  (∃ t, st.nextOpen = some t ∧ st.nextClose = none ∧ st.exchangeTime.instant < t) ∨
    ∃ t, st.nextClose = some t ∧ st.nextOpen = none ∧ st.exchangeTime.instant < t

/-- The date of the current time is its date in India. -/
theorem istDay_instant (hist : now.IsIst) : istDay now.instant = now.date := by
  unfold istDay Datetime.instant Datetime.date
  rw [hist.utcoffset_getD, sub_add_cancel]

theorem session_now (hist : now.IsIst) :
    now.session = some (getMarketSession isTradingHoliday now.instant) := by
  unfold Datetime.session
  rw [istDay_instant hist]
  exact if_pos now.inCalendar

/-- While the market is open the state announces the close of today. -/
theorem announces_of_isMarketOpen (hist : now.IsIst)
    (hopen : isMarketOpen isTradingHoliday now.instant = true) :
    (∃ st, getMarketStateDict now.instant now = some st ∧ st.AnnouncesFuture) ↔
      now.instant < sessionEnd (istDay now.instant) := by
  unfold getMarketStateDict
  rw [session_now hist]
  simp [hopen, MarketState.AnnouncesFuture, getMarketCloseToday]

/-- Otherwise it announces the next opening, if the calendar has one. -/
theorem announces_of_not_isMarketOpen (hist : now.IsIst)
    (hopen : ¬ isMarketOpen isTradingHoliday now.instant = true) :
    (∃ st, getMarketStateDict now.instant now = some st ∧ st.AnnouncesFuture) ↔
      now.instant < sessionStart dateMax := by
  rw [instant_lt_sessionStart_iff hist, ← getNextMarketOpen_isSome]
  unfold getMarketStateDict
  rw [session_now hist]
  cases hnext : getNextMarketOpen now with
  | none => simp [hopen]
  | some t =>
    have hlt := lt_of_getNextMarketOpen hist hnext
    simp [hopen, MarketState.AnnouncesFuture, hlt]

/-- **When the announced time lies ahead.** The state of the current time announces exactly one time, and
    a later one, if and only if it is not 15:30 to 15:40 of a trading day and the last close of the
    calendar is still to come. -/
theorem announces_future_iff (hist : now.utcoffset = some istOffset) :
    (∃ st, getMarketStateDict now.instant now = some st ∧ st.AnnouncesFuture) ↔
      ¬ (tradingDay isTradingHoliday (istDay now.instant) = true ∧
        marketClose ≤ istTime now.instant ∧ istTime now.instant < postCloseEnd) ∧
      now.instant < sessionEnd dateMax := by
  by_cases hopen : isMarketOpen isTradingHoliday now.instant = true
  · rw [announces_of_isMarketOpen (Or.inr hist) hopen]
    obtain ⟨hday, -, hend⟩ := isMarketOpen_iff.1 hopen
    have hclose : now.instant < sessionEnd (istDay now.instant) ↔
        istTime now.instant < marketClose := by
      unfold istTime sessionEnd
      exact sub_lt_iff_lt_add'.symm
    rw [hclose]
    constructor
    · intro hlt
      refine ⟨fun hpost => (not_le.mpr hlt) hpost.2.1, (hclose.mpr hlt).trans_le ?_⟩
      -- no day of the calendar closes after the last one
      have hmax : istDay now.instant ≤ dateMax := by
        rw [istDay_instant (Or.inr hist)]
        exact now.inCalendar.2
      exact sessionEnd_mono hmax
    · intro h
      obtain ⟨hpost, -⟩ := h
      by_contra hlate
      exact hpost ⟨hday, not_lt.mp hlate, hend⟩
  · rw [announces_of_not_isMarketOpen (Or.inr hist) hopen]
    constructor
    · intro hlt
      refine ⟨fun hpost => hopen (isMarketOpen_iff.2 ⟨hpost.1, ?_, hpost.2.2⟩),
        hlt.trans sessionStart_lt_sessionEnd⟩
      exact le_trans (by norm_num [preOpenStart, marketClose]) hpost.2.1
    · intro h
      obtain ⟨-, hlt⟩ := h
      by_contra hafter
      -- the last session of the calendar
      have hcont := continuous_iff.2 ⟨dateMax, tradingDay_dateMax, not_lt.mp hafter, hlt⟩
      refine hopen ?_
      unfold isMarketOpen
      rw [hcont]
      decide

end Current

/-- Monday, 5 January 2026, 15:35 in India. -/
def mondayPostClose : Datetime := .ist (20458 * 86400 + 15 * 3600 + 35 * 60) (by decide)

/-- **In the post-close session the announced close is past.** -/
theorem postClose_announces_past :
    (getMarketStateDict mondayPostClose.instant mondayPostClose).map (·.nextClose) =
      some (some (sessionEnd 20458)) ∧
    sessionEnd 20458 < mondayPostClose.instant ∧
    ¬ ∃ st, getMarketStateDict mondayPostClose.instant mondayPostClose = some st ∧
      st.AnnouncesFuture := by
  refine ⟨by decide, by decide, ?_⟩
  rw [announces_of_isMarketOpen (Or.inr rfl) (by decide)]
  decide

/-- During the day it is still to come. -/
theorem announces_future_iff_monday :
    (∃ st, getMarketStateDict mondayIst.instant mondayIst = some st ∧ st.AnnouncesFuture) ↔
      ¬ (tradingDay isTradingHoliday (istDay mondayIst.instant) = true ∧
        marketClose ≤ istTime mondayIst.instant ∧ istTime mondayIst.instant < postCloseEnd) ∧
      mondayIst.instant < sessionEnd dateMax :=
  announces_future_iff rfl

end BharatTicker
