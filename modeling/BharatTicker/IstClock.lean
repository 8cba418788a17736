/-
  File:      BharatTicker/IstClock.lean
  Subject:   THE CLOCK OF THE EXCHANGE (`utils/ist_clock.py`).

  An instant is in seconds since the epoch; India is five and a half hours ahead of UTC and has no
  daylight saving, so that the date and the time of day are arithmetic. A date is the number of its
  day since 1970-01-01. The holiday calendar is a parameter.

  * `istDay`, `istTime` -- the date and the time of day;
  * `MarketSession`, `getMarketSession`, `isMarketOpen` -- the sessions of a day;
  * `getMarketSession_eq_continuous`, `getMarketSession_eq_postClose`, `isMarketOpen_iff` -- when a
    session is on, and when the market is open.
-/
import Mathlib

namespace BharatTicker

/-! ## 1. Dates and times -/

/-- The offset of IST. -/
def istOffset : ℚ := 19800

/-- `dt.astimezone(IST).date()`. -/
def istDay (t : ℚ) : ℤ := ⌊(t + istOffset) / 86400⌋

/-- Midnight of a day. -/
def dayStart (day : ℤ) : ℚ := day * 86400 - istOffset

/-- `dt.astimezone(IST).time()`, in seconds. -/
def istTime (t : ℚ) : ℚ := t - dayStart (istDay t)

/-- `date.weekday()`: the epoch was a Thursday. -/
def weekday (day : ℤ) : ℤ := (day + 3) % 7

theorem istDay_eq_iff {t : ℚ} {day : ℤ} :
    istDay t = day ↔ dayStart day ≤ t ∧ t < dayStart (day + 1) := by
  unfold istDay dayStart
  rw [Int.floor_eq_iff, le_div_iff₀ (by norm_num), div_lt_iff₀ (by norm_num)]
  push_cast
  constructor
  · exact fun h => ⟨by linarith [h.1], by linarith [h.2]⟩
  · exact fun h => ⟨by linarith [h.1], by linarith [h.2]⟩

@[simp] theorem istDay_dayStart (day : ℤ) : istDay (dayStart day) = day :=
  istDay_eq_iff.2 ⟨le_refl _, by unfold dayStart; push_cast; linarith⟩

theorem istDay_mono {t t' : ℚ} (h : t ≤ t') : istDay t ≤ istDay t' := by
  unfold istDay
  gcongr

/-- An instant and the last multiple of `step` before it are of one day, if `step` divides the day and
    the offset. -/
theorem istDay_floor {step t : ℚ} (hs : 0 < step) {n m : ℤ} (hday : 86400 = n * step)
    (hoffset : istOffset = m * step) : istDay (⌊t / step⌋ * step) = istDay t := by
  obtain ⟨hle, hlt⟩ := (istDay_eq_iff (t := t)).mp rfl
  refine istDay_eq_iff.2 ⟨?_, ((le_div_iff₀ hs).mp (Int.floor_le _)).trans_lt hlt⟩
  -- midnight is a multiple of the step
  have hstart : dayStart (istDay t) = (istDay t * n - m : ℤ) * step := by
    unfold dayStart
    rw [hday, hoffset]
    push_cast
    ring
  rw [hstart] at hle ⊢
  have hfloor : istDay t * n - m ≤ ⌊t / step⌋ := Int.le_floor.mpr ((le_div_iff₀ hs).mpr hle)
  gcongr

/-! ## 2. Sessions -/

inductive MarketSession where
  | preOpen
  | continuousTrading
  | postClose
  | afterMarketClose
  | closed
  | holiday
  | weekend
  deriving DecidableEq, Repr

def preOpenStart : ℚ := 9 * 3600
def marketOpen : ℚ := 9 * 3600 + 15 * 60
def marketClose : ℚ := 15 * 3600 + 30 * 60
def postCloseEnd : ℚ := 15 * 3600 + 40 * 60
def amcEnd : ℚ := 16 * 3600

/-- `get_market_session`. -/
def getMarketSession (isTradingHoliday : ℤ → Bool) (t : ℚ) : MarketSession :=
  if weekday (istDay t) ≥ 5 then .weekend
  else if isTradingHoliday (istDay t) then .holiday
  else if istTime t < preOpenStart then .closed
  else if istTime t < marketOpen then .preOpen
  else if istTime t < marketClose then .continuousTrading
  else if istTime t < postCloseEnd then .postClose
  else if istTime t < amcEnd then .afterMarketClose
  else .closed

/-- `is_market_open`. -/
def isMarketOpen (isTradingHoliday : ℤ → Bool) (t : ℚ) : Bool :=
  getMarketSession isTradingHoliday t ∈
    [MarketSession.preOpen, .continuousTrading, .postClose]

/-- A weekday that is no holiday. -/
def tradingDay (isTradingHoliday : ℤ → Bool) (day : ℤ) : Bool :=
  weekday day < 5 && !isTradingHoliday day

section Sessions

variable {isTradingHoliday : ℤ → Bool} {t : ℚ}

/-- A day without trading has one session. -/
theorem getMarketSession_of_not_tradingDay (h : tradingDay isTradingHoliday (istDay t) ≠ true) :
    getMarketSession isTradingHoliday t ∈ [MarketSession.weekend, .holiday] := by
  unfold tradingDay at h
  unfold getMarketSession
  by_cases hweek : weekday (istDay t) ≥ 5
  · rw [if_pos hweek]
    decide
  · have hholiday : isTradingHoliday (istDay t) = true := by
      have hday : weekday (istDay t) < 5 := by omega
      simpa [hday] using h
    rw [if_neg hweek, if_pos hholiday]
    decide

/-- On a trading day the time of day decides. -/
theorem getMarketSession_of_tradingDay (h : tradingDay isTradingHoliday (istDay t) = true) :
    getMarketSession isTradingHoliday t =
      if istTime t < preOpenStart then .closed
      else if istTime t < marketOpen then .preOpen
      else if istTime t < marketClose then .continuousTrading
      else if istTime t < postCloseEnd then .postClose
      else if istTime t < amcEnd then .afterMarketClose
      else .closed := by
  unfold tradingDay at h
  rw [Bool.and_eq_true, decide_eq_true_iff, Bool.not_eq_true'] at h
  have hweek : ¬ weekday (istDay t) ≥ 5 := by omega
  unfold getMarketSession
  rw [if_neg hweek, h.2]
  rfl

/-- **Continuous trading is from 09:15 to 15:30 on trading days.** -/
theorem getMarketSession_eq_continuous :
    getMarketSession isTradingHoliday t = .continuousTrading ↔
      tradingDay isTradingHoliday (istDay t) = true ∧ marketOpen ≤ istTime t ∧
        istTime t < marketClose := by
  have hpre : preOpenStart < marketOpen := by norm_num [preOpenStart, marketOpen]
  by_cases hday : tradingDay isTradingHoliday (istDay t) = true
  · rw [getMarketSession_of_tradingDay hday]
    split_ifs <;> grind
  · refine iff_of_false (fun h => ?_) fun h => hday h.1
    have hsession := getMarketSession_of_not_tradingDay hday
    rw [h] at hsession
    exact absurd hsession (by decide)

/-- The post-close session is from 15:30 to 15:40 on trading days. -/
theorem getMarketSession_eq_postClose :
    getMarketSession isTradingHoliday t = .postClose ↔
      tradingDay isTradingHoliday (istDay t) = true ∧ marketClose ≤ istTime t ∧
        istTime t < postCloseEnd := by
  have hpre : preOpenStart < marketClose := by norm_num [preOpenStart, marketClose]
  have hopen : marketOpen < marketClose := by norm_num [marketOpen, marketClose]
  by_cases hday : tradingDay isTradingHoliday (istDay t) = true
  · rw [getMarketSession_of_tradingDay hday]
    split_ifs <;> grind
  · refine iff_of_false (fun h => ?_) fun h => hday h.1
    have hsession := getMarketSession_of_not_tradingDay hday
    rw [h] at hsession
    exact absurd hsession (by decide)

/-- **The market is open from 09:00 to 15:40 on trading days.** -/
theorem isMarketOpen_iff :
    isMarketOpen isTradingHoliday t = true ↔ tradingDay isTradingHoliday (istDay t) = true ∧
      preOpenStart ≤ istTime t ∧ istTime t < postCloseEnd := by
  have hopen : marketOpen < postCloseEnd := by norm_num [marketOpen, postCloseEnd]
  have hclose : marketClose < postCloseEnd := by norm_num [marketClose, postCloseEnd]
  unfold isMarketOpen
  rw [decide_eq_true_iff]
  by_cases hday : tradingDay isTradingHoliday (istDay t) = true
  · rw [getMarketSession_of_tradingDay hday]
    split_ifs <;> simp <;> grind
  · refine iff_of_false (fun h => ?_) fun h => hday h.1
    have hsession := getMarketSession_of_not_tradingDay hday
    generalize getMarketSession isTradingHoliday t = session at h hsession
    cases session <;> simp at h hsession

end Sessions

/-- When a day's session opens, at 09:15. -/
def sessionStart (day : ℤ) : ℚ := dayStart day + marketOpen

theorem dayStart_le_sessionStart (day : ℤ) : dayStart day ≤ sessionStart day := by
  unfold sessionStart marketOpen
  linarith

/-- An instant between a day's opening and another instant of the day is of the day. -/
theorem istDay_of_session {t t' : ℚ} (h : sessionStart (istDay t') ≤ t) (hle : t ≤ t') :
    istDay t = istDay t' :=
  istDay_eq_iff.2 ⟨(dayStart_le_sessionStart _).trans h, hle.trans_lt (istDay_eq_iff.1 rfl).2⟩

/-- A time on Monday, 5 January 2026. -/
def monday (hour minute : ℚ) : ℚ := dayStart 20458 + hour * 3600 + minute * 60

end BharatTicker
