/-
  File:      BharatTicker/Analytics.lean
  Subject:   RETURNS FROM DAILY HISTORY: `get_analytics` (`engine/market_data.py`).

  The candles are what `get_history` returned; a close is what `float` makes of its text. Arithmetic on
  finite numbers is exact, and the square root is a parameter.

  * `DailyCandle`, `Analytics`, `getAnalytics` -- the function;
  * `ytdPlace`, `ytd_eq` -- which of the valid closes the year-to-date return is computed from;
  * `firstPlace`, `Ascending`, `YtdAligned` -- which it is meant to be, and the condition;
  * `ytdPlace_eq_iff`, `ytd_from_first_of_year` -- any history.
-/
import BharatTicker.Basis.FloatValue
import BharatTicker.Basis.Pairing
import BharatTicker.Basis.TextOrder
import BharatTicker.LiveCandles

namespace BharatTicker

open Basis

-- the concrete runs below compute with rationals
unseal Rat.add Rat.mul Rat.sub Rat.inv

/-! ## 1. The function -/

structure DailyCandle where
  bucket : String
  /-- `none`: the key is missing. -/
  close : Option FloatValue := none
  deriving DecidableEq, Repr

namespace DailyCandle

/-- `float(c.get("close", 0))`. -/
def closeValue (c : DailyCandle) : FloatValue := c.close.getD (.finite 0)

/-- `float(c.get("close", 0)) > 0`. -/
def valid (c : DailyCandle) : Bool := (FloatValue.finite 0).lt c.closeValue

end DailyCandle

/-- `d[:4] == str(year)`. -/
def sameYear (year : ℕ) (d : String) : Bool := d.toList.take 4 = (toString year).toList

structure Analytics where
  symbol : String
  exchange : String
  ltp : FloatValue
  week : Option FloatValue
  month : Option FloatValue
  ytd : Option FloatValue
  year : Option FloatValue
  threeYears : Option FloatValue
  fiveYears : Option FloatValue
  dailyPct : FloatValue
  annualisedPct : FloatValue
  week52High : FloatValue
  week52Low : FloatValue
  sessions : ℕ
  deriving DecidableEq, Repr

/-- `round((last / c - 1) * 100, 2)`. -/
def pctReturn (last c : FloatValue) : FloatValue :=
  (((last.div c).sub (.finite 1)).mul (.finite 100)).round 2

/-- `closes`. -/
def validCloses (candles : List DailyCandle) : List FloatValue :=
  (candles.filter DailyCandle.valid).map DailyCandle.closeValue

/-- `closes[-1]`, of closes that are there. -/
def lastClose (closes : List FloatValue) : FloatValue := closes.getLastD (.finite 0)

/-- `ret(n)`. -/
def periodReturn (closes : List FloatValue) (n : ℕ) : Option FloatValue :=
  (closes.reverse[n]?.filter (FloatValue.finite 0).lt).map (pctReturn (lastClose closes))

/-- The loop for `ytd`. -/
def ytdReturn (year : ℕ) (dates : List String) (closes : List FloatValue) : Option FloatValue :=
  ((dates.zip closes).find? fun p => sameYear year p.1 && (FloatValue.finite 0).lt p.2).map
    fun p => pctReturn (lastClose closes) p.2

/-- `sum(l)`. -/
def floatSum (l : List FloatValue) : FloatValue := l.foldl FloatValue.add (.finite 0)

/-- `rets`. -/
def dailyReturns (window : List FloatValue) : List FloatValue :=
  ((window.zip window.tail).filter fun p => (FloatValue.finite 0).lt p.1).map
    fun p => (p.2.div p.1).sub (.finite 1)

/-- `daily_vol`. -/
def dailyVolatility (sqrt : FloatValue → FloatValue) (rets : List FloatValue) : FloatValue :=
  let n : FloatValue := .finite rets.length
  let mean := (floatSum rets).div n
  if rets = [] then .finite 0
  else sqrt ((floatSum (rets.map fun r => (r.sub mean).mul (r.sub mean))).div n)

/-- `get_analytics`. -/
def getAnalytics (sqrt : FloatValue → FloatValue) (symbol exchange : String) (year : ℕ)
    (candles : List DailyCandle) : Option Analytics :=
  let closes := validCloses candles
  let dates := candles.map (·.bucket)
  if closes.length < 10 then none
  else
    let last := lastClose closes
    let dailyVol := dailyVolatility sqrt (dailyReturns (closes.rtake 251))
    let yr := closes.rtake 252
    some {
      symbol := upper symbol
      exchange := exchange
      ltp := last.round 2
      week := periodReturn closes 5
      month := periodReturn closes 21
      ytd := ytdReturn year dates closes
      year := periodReturn closes 252
      threeYears := periodReturn closes 756
      fiveYears := periodReturn closes 1260
      dailyPct := (dailyVol.mul (.finite 100)).round 2
      annualisedPct := ((dailyVol.mul (sqrt (.finite 252))).mul (.finite 100)).round 2
      week52High := (yr.tail.foldl FloatValue.max (yr.headD (.finite 0))).round 2
      week52Low := (yr.tail.foldl FloatValue.min (yr.headD (.finite 0))).round 2
      sessions := closes.length }

/-! ## 2. The bar of the year-to-date return -/

/-- The candles with a valid close: `closes` has theirs, in this order. -/
def validCandles (candles : List DailyCandle) : List DailyCandle := candles.filter DailyCandle.valid

/-- The candle of the year, whatever its close. -/
def DailyCandle.ofYear (year : ℕ) (c : DailyCandle) : Bool := sameYear year c.bucket

/-- The place in `closes` of the close that the loop takes: that of the first date of the year. -/
def ytdPlace (year : ℕ) (candles : List DailyCandle) : Option ℕ :=
  (candles.zip (validCandles candles)).findIdx? fun p => p.1.ofYear year

/-- The place of the first candle of the year, among those with a valid close. -/
def firstPlace (year : ℕ) (candles : List DailyCandle) : Option ℕ :=
  (validCandles candles).findIdx? (DailyCandle.ofYear year)

/-- A daily history, in its order. -/
def Ascending (candles : List DailyCandle) : Prop :=
  candles.Pairwise fun c d => c.bucket ≤ d.bucket

/-- The candles before the first one of the year. -/
def beforeYear (year : ℕ) (candles : List DailyCandle) : List DailyCandle :=
  candles.takeWhile fun c => !c.ofYear year

/-- Where the year has a valid close, all closes before the year are valid; where it has none, there are
    no more valid closes than candles before the year. -/
def YtdAligned (year : ℕ) (candles : List DailyCandle) : Prop :=
  ((∃ c ∈ candles, c.valid = true ∧ c.ofYear year = true) →
    ∀ c ∈ beforeYear year candles, c.valid = true) ∧
  ((∀ c ∈ candles, c.valid = true → c.ofYear year = false) →
    (validCandles candles).length ≤ (beforeYear year candles).length)

section Ytd

variable {year : ℕ} {candles : List DailyCandle}

/-- The return is computed from the close at that place. -/
theorem ytd_eq (year : ℕ) (candles : List DailyCandle) :
    ytdReturn year (candles.map (·.bucket)) (validCloses candles) =
      (ytdPlace year candles).bind fun i =>
        (validCloses candles)[i]?.map (pctReturn (lastClose (validCloses candles))) := by
  have hzip : (candles.map (·.bucket)).zip (validCloses candles) =
      (candles.zip (validCandles candles)).map (Prod.map (·.bucket) DailyCandle.closeValue) :=
    List.zip_map
  -- every close of the list is positive, so that the loop tests the year alone
  have hfind : (candles.zip (validCandles candles)).find?
      ((fun p => sameYear year p.1 && (FloatValue.finite 0).lt p.2) ∘
        Prod.map (·.bucket) DailyCandle.closeValue) =
      (candles.zip (validCandles candles)).find? fun p => p.1.ofYear year := by
    refine List.find?_congr fun p hp => ?_
    have hvalid : p.2.valid = true := List.of_mem_filter (List.of_mem_zip hp).2
    show (p.1.ofYear year && p.2.valid) = _
    rw [hvalid, Bool.and_true]
  unfold ytdReturn ytdPlace
  rw [hzip, List.find?_map, hfind, List.find?_eq_bind_findIdx?_getElem?]
  cases hi : (candles.zip (validCandles candles)).findIdx? fun p => p.1.ofYear year with
  | none => rfl
  | some i =>
    obtain ⟨hlt, -⟩ := List.findIdx?_eq_some_iff_getElem.mp hi
    have hlt' : i < (validCandles candles).length := by
      rw [List.length_zip] at hlt
      exact hlt.trans_le (min_le_right _ _)
    have hclose : (validCloses candles)[i]? = (validCandles candles)[i]?.map DailyCandle.closeValue :=
      List.getElem?_map
    show ((candles.zip (validCandles candles))[i]?.map _).map _ = _
    rw [List.getElem?_eq_getElem hlt, List.getElem_zip]
    show _ = (validCloses candles)[i]?.map _
    rw [hclose, List.getElem?_eq_getElem hlt']
    rfl

/-- From its first candle on, a year's candles come before those of later years. -/
theorem ofYear_between {c d e : DailyCandle} (hcd : c.bucket ≤ d.bucket) (hde : d.bucket ≤ e.bucket)
    (hc : c.ofYear year = true) (he : e.ofYear year = true) : d.ofYear year = true := by
  rcases hcd.lt_or_eq with hcd | hcd
  · rcases hde.lt_or_eq with hde | hde
    · have hc' := of_decide_eq_true hc
      have he' := of_decide_eq_true he
      refine decide_eq_true ?_
      rw [take_eq_of_between (String.lt_iff.mp hcd) (String.lt_iff.mp hde) (hc'.trans he'.symm)]
      exact hc'
    · unfold DailyCandle.ofYear
      rw [hde]
      exact he
  · unfold DailyCandle.ofYear
    rw [← hcd]
    exact hc

/-- **The loop takes the close of the first valid candle of the year exactly where the dates are
    aligned.** -/
theorem ytdPlace_eq_iff (hasc : Ascending candles) :
    ytdPlace year candles = firstPlace year candles ↔ YtdAligned year candles :=
  pairing_iff (head_of_convex hasc ofYear_between)

/-- **The year-to-date return is computed from the first valid candle of the year exactly where the dates
    are aligned.** -/
theorem ytd_from_first_of_year (sqrt : FloatValue → FloatValue) (symbol exchange : String)
    (hasc : Ascending candles) (h10 : 10 ≤ (validCandles candles).length) :
    ∃ a, getAnalytics sqrt symbol exchange year candles = some a ∧
      a.ytd = ((ytdPlace year candles).bind fun i =>
        (validCloses candles)[i]?.map (pctReturn (lastClose (validCloses candles)))) ∧
      (ytdPlace year candles = firstPlace year candles ↔ YtdAligned year candles) := by
  have hlen : ¬ (validCloses candles).length < 10 := by
    rw [validCloses, List.length_map]
    exact not_lt.mpr h10
  exact ⟨_, if_neg hlen, ytd_eq year candles, ytdPlace_eq_iff hasc⟩

end Ytd

/-- Nine sessions of a year, the first two at the closes given, after two of the year before. -/
def januaryHistory (older first second : FloatValue) : List DailyCandle :=
  [("2025-12-30", older), ("2025-12-31", .finite 100), ("2026-01-01", first), ("2026-01-02", second),
    ("2026-01-05", .finite 260), ("2026-01-06", .finite 270), ("2026-01-07", .finite 280),
    ("2026-01-08", .finite 290), ("2026-01-09", .finite 295), ("2026-01-12", .finite 305),
    ("2026-01-13", .finite 300)].map fun p => ⟨p.1, some p.2⟩

instance (candles : List DailyCandle) : Decidable (Ascending candles) :=
  inferInstanceAs (Decidable (candles.Pairwise fun c d => c.bucket ≤ d.bucket))

/-- A history whose closes are all valid. -/
theorem ytd_of_valid_history :
    ∃ a, getAnalytics id "TCS" "NSE" 2026 (januaryHistory (.finite 90) (.finite 200) (.finite 250)) =
        some a ∧
      a.ytd = ((ytdPlace 2026 (januaryHistory (.finite 90) (.finite 200) (.finite 250))).bind fun i =>
        (validCloses (januaryHistory (.finite 90) (.finite 200) (.finite 250)))[i]?.map
          (pctReturn
            (lastClose (validCloses (januaryHistory (.finite 90) (.finite 200) (.finite 250)))))) ∧
      (ytdPlace 2026 (januaryHistory (.finite 90) (.finite 200) (.finite 250)) =
          firstPlace 2026 (januaryHistory (.finite 90) (.finite 200) (.finite 250)) ↔
        YtdAligned 2026 (januaryHistory (.finite 90) (.finite 200) (.finite 250))) :=
  ytd_from_first_of_year id "TCS" "NSE" (by decide +kernel) (by decide +kernel)

/-- One close of the year before is not a number: the return is the one since the second session, 20 and
    not 50 per cent. -/
theorem ytd_after_nan :
    Ascending (januaryHistory .nan (.finite 200) (.finite 250)) ∧
    (getAnalytics id "TCS" "NSE" 2026 (januaryHistory .nan (.finite 200) (.finite 250))).map (·.ytd) =
      some (some (.finite 20)) ∧
    pctReturn (.finite 300) (.finite 200) = .finite 50 ∧
    ytdPlace 2026 (januaryHistory .nan (.finite 200) (.finite 250)) = some 2 ∧
    firstPlace 2026 (januaryHistory .nan (.finite 200) (.finite 250)) = some 1 := by
  refine ⟨by decide +kernel, by decide +kernel, by decide +kernel, by decide +kernel, by decide +kernel⟩

end BharatTicker
