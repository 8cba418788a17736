/-
  File:      BharatTicker/SbIntraday/Limit.lean
  Subject:   `limit` IS A PURE SUFFIX, where a curve serves the request. The candles are cut to the
             limit and 200 more, filtered to the latest session and cut again; the session is at the
             end of the candles, so that no cut but the last one shows.

  * `pointsToOhlc_eq` -- a cut of all candles of the curve;
  * `latestSession_ordered` -- the latest session is at the end;
  * `curveCandles_limit` -- one curve; `limit_suffix` -- the endpoint.
-/
import BharatTicker.Basis.Window
import BharatTicker.Historical
import BharatTicker.IntradayBuilder.Rollup
import BharatTicker.SbIntraday

namespace BharatTicker

open Basis

-- the concrete runs below compute with rationals
unseal Rat.add Rat.mul Rat.sub Rat.inv

/-! ## 1. A curve -/

/-- The candles of all buckets. -/
def allOhlc (points : List IntradayPoint) (bucketSeconds : ℕ) : List Candle :=
  if points = [] ∨ bucketSeconds = 0 then []
  else (points.foldl (addPoint bucketSeconds) []).map ohlcOf

section Curve

variable {points : List IntradayPoint} {bucketSeconds n : ℕ}

/-- The candles are the last ones of all buckets. -/
theorem pointsToOhlc_eq (hn : 0 < n) :
    pointsToOhlc points bucketSeconds n = (allOhlc points bucketSeconds).rtake n := by
  unfold pointsToOhlc allOhlc
  split
  · exact (List.rtake_nil n).symm
  · rw [← lastSlice_map, lastSlice_eq_rtake hn]

theorem allOhlc_sorted (bucketSeconds : ℕ) (h : points.Pairwise fun p q => p.timestamp ≤ q.timestamp) :
    (allOhlc points bucketSeconds).Pairwise fun c d => c.timestamp < d.timestamp := by
  -- all of them, and one more, are the last ones
  have hall : pointsToOhlc points bucketSeconds ((allOhlc points bucketSeconds).length + 1 : ℕ) =
      allOhlc points bucketSeconds := by
    rw [pointsToOhlc_eq (Nat.succ_pos _), rtake_of_length_le (Nat.le_succ _)]
  rw [← hall]
  exact pointsToOhlc_sorted h

/-- **The latest session is at the end**: behind a candle of the last one's day all are of that day. -/
theorem latestSession_ordered {l : List Candle} {last : Candle}
    (h : l.Pairwise fun c d => c.timestamp < d.timestamp) (hlast : l.getLast? = some last) :
    l.Pairwise fun c d => decide (istDay c.timestamp = istDay last.timestamp) = true →
      decide (istDay d.timestamp = istDay last.timestamp) = true := by
  obtain ⟨pre, rfl⟩ := List.getLast?_eq_some_iff.mp hlast
  have hle : ∀ d ∈ pre ++ [last], istDay d.timestamp ≤ istDay last.timestamp := by
    intro d hd
    rcases List.mem_append.mp hd with hd | hd
    · exact istDay_mono ((List.pairwise_append.mp h).2.2 d hd last List.mem_cons_self).le
    · rw [List.mem_singleton.mp hd]
  refine h.imp_of_mem fun hc hd hlt hday => ?_
  rw [decide_eq_true_iff] at hday ⊢
  have hmono := istDay_mono hlt.le
  have := hle _ hd
  omega

/-- The last `n` of the latest session do not depend on a cut to more candles before. -/
theorem latestSession_rtake {l : List Candle} {k : ℕ}
    (h : l.Pairwise fun c d => c.timestamp < d.timestamp) (hn : 0 < n) (hnk : n ≤ k) :
    (latestSessionOnly (·.timestamp) (l.rtake k)).rtake n =
      (latestSessionOnly (·.timestamp) l).rtake n := by
  have hk : 0 < k := by omega
  have hlast : (l.rtake k).getLast? = l.getLast? := by
    rw [← lastSlice_eq_rtake hk, lastSlice_getLast? (by exact_mod_cast hk)]
  unfold latestSessionOnly
  rw [hlast]
  cases hl : l.getLast? with
  | none =>
    rw [List.getLast?_eq_none_iff.mp hl]
    simp
  | some last => exact rtake_filter_rtake (latestSession_ordered h hl) hnk

end Curve

namespace IntradayCall

/-! ## 2. The endpoint -/

section Endpoint

variable {call : IntradayCall} {n : Limit} {seconds : ℕ}

/-- The same request with and without a limit. -/
def withLimit (call : IntradayCall) (limit : Option Limit) : IntradayCall :=
  { call with limit := limit }

/-- **One curve**: the candles with a limit are the last ones of those without. -/
theorem curveCandles_limit (call : IntradayCall) (n : Limit) (seconds : ℕ)
    (curve : Option IntradayCurve) : (call.withLimit (some n)).curveCandles seconds curve =
      ((call.withLimit none).curveCandles seconds curve).rtake n.1 := by
  cases curve with
  | none => exact (List.rtake_nil n.1).symm
  | some curve =>
    have hn : 0 < n.1 := n.2.1
    have hsorted := allOhlc_sorted seconds curve.ascending
    show lastSlice n.1 (latestSessionOnly _ (pointsToOhlc curve.points seconds (n.1 + 200 : ℕ))) =
      (latestSessionOnly _ (pointsToOhlc curve.points seconds (10 ^ 9 : ℕ))).rtake n.1
    rw [lastSlice_eq_rtake hn, pointsToOhlc_eq (by omega), pointsToOhlc_eq (by norm_num),
      latestSession_rtake hsorted hn (by omega), latestSession_rtake hsorted hn]
    exact n.2.2.trans (by norm_num)

theorem rtake_ne_nil {α : Type*} {l : List α} (n : Limit) : l.rtake n.1 ≠ [] ↔ l ≠ [] := by
  have hn : 0 < n.1 := n.2.1
  rw [ne_eq, ne_eq, not_iff_not, List.rtake, List.drop_eq_nil_iff]
  constructor
  · intro hle
    exact List.length_eq_zero_iff.mp (by omega)
  · rintro rfl
    exact Nat.zero_le _

/-- The intervals of the curves are none of the live engine. -/
theorem secondsIntervals_lookup_none {name : String} (h : intradaySeconds.lookup name = some seconds) :
    secondsIntervals.lookup name = none := by
  have hdisjoint : ∀ e ∈ intradaySeconds, secondsIntervals.lookup e.1 = none := by decide
  exact hdisjoint _ (lookup_mem h)

variable {isTradingHoliday : ℤ → Bool} {exchange : Exchange} {source : String} {candles : List Candle}

theorem curveResponse_limit (call : IntradayCall) (n : Limit) :
    (call.withLimit (some n)).curveResponse isTradingHoliday exchange source (candles.rtake n.1) =
      { (call.withLimit none).curveResponse isTradingHoliday exchange source candles with
        candles := lastSlice n.1
          ((call.withLimit none).curveResponse isTradingHoliday exchange source candles).candles } := by
  unfold curveResponse
  rw [lastSlice_map, lastSlice_eq_rtake n.2.1]
  rfl

theorem minuteResponse_tape (h : call.curveCandles seconds call.tickertape ≠ []) :
    call.minuteResponse isTradingHoliday seconds = call.curveResponse isTradingHoliday .NSE
      "tickertape_realtime_nse" (call.curveCandles seconds call.tickertape) := if_pos h

theorem minuteResponse_bse (h : ¬call.curveCandles seconds call.tickertape ≠ [])
    (h' : call.curveCandles seconds call.bse ≠ []) :
    call.minuteResponse isTradingHoliday seconds = call.curveResponse isTradingHoliday .BSE
      "bse_stockreach_realtime" (call.curveCandles seconds call.bse) := (if_neg h).trans (if_pos h')

theorem minuteResponse_yahoo (h : ¬call.curveCandles seconds call.tickertape ≠ [])
    (h' : ¬call.curveCandles seconds call.bse ≠ []) :
    call.minuteResponse isTradingHoliday seconds = call.yahooResponse := (if_neg h).trans (if_neg h')

/-- **The response from a curve**, with and without a limit. -/
theorem minuteResponse_limit (call : IntradayCall) (n : Limit) (seconds : ℕ)
    (hsource : ((call.withLimit none).minuteResponse isTradingHoliday seconds).source ≠
      "yahoo_intraday_delayed") :
    (call.withLimit (some n)).minuteResponse isTradingHoliday seconds =
      { (call.withLimit none).minuteResponse isTradingHoliday seconds with
        candles := lastSlice n.1
          ((call.withLimit none).minuteResponse isTradingHoliday seconds).candles } := by
  have hcurve := call.curveCandles_limit n seconds
  have hsame : ∀ curve, (call.withLimit (some n)).curveCandles seconds curve ≠ [] ↔
      (call.withLimit none).curveCandles seconds curve ≠ [] := fun curve => by
    rw [hcurve, rtake_ne_nil]
  by_cases htape : (call.withLimit none).curveCandles seconds call.tickertape ≠ []
  · rw [minuteResponse_tape htape, minuteResponse_tape ((hsame call.tickertape).mpr htape)]
    exact (congrArg _ (hcurve call.tickertape)).trans (curveResponse_limit call n)
  · have htape' := (hsame call.tickertape).not.mpr htape
    by_cases hbse : (call.withLimit none).curveCandles seconds call.bse ≠ []
    · rw [minuteResponse_bse htape hbse, minuteResponse_bse htape' ((hsame call.bse).mpr hbse)]
      exact (congrArg _ (hcurve call.bse)).trans (curveResponse_limit call n)
    · rw [minuteResponse_yahoo htape hbse] at hsource
      exact absurd rfl hsource

end Endpoint

end IntradayCall

/-- **`limit` is a pure suffix**: for every interval of the curves, every limit and whatever the two feeds
    answer, where the request without a limit is served by a curve, the one with it has the last of its
    candles, and all else as it is. -/
theorem limit_suffix {cfg : BreakerConfig} {live : LiveSettings} {isTradingHoliday : ℤ → Bool}
    {call : IntradayCall} {seconds : ℕ} {s : LiveFeed} {r : IntradayResponse} (n : Limit)
    (hinterval : intradaySeconds.lookup call.interval = some seconds)
    (hr : ((call.withLimit none).sbIntraday cfg live isTradingHoliday s).1 = .ok r)
    (hsource : r.source ≠ "yahoo_intraday_delayed") :
    ((call.withLimit (some n)).sbIntraday cfg live isTradingHoliday s).1 =
      .ok { r with candles := lastSlice n.1 r.candles } := by
  have hseconds := IntradayCall.secondsIntervals_lookup_none hinterval
  have hserve : ∀ limit, ((call.withLimit limit).sbIntraday cfg live isTradingHoliday s).1 =
      (rejectIndex call.symbol).elim
        (.ok ((call.withLimit limit).minuteResponse isTradingHoliday seconds)) .error := by
    intro limit
    unfold IntradayCall.sbIntraday
    simp only [IntradayCall.withLimit, hseconds, hinterval]
    cases rejectIndex call.symbol <;> rfl
  rw [hserve] at hr ⊢
  cases hindex : rejectIndex call.symbol with
  | some e =>
    rw [hindex] at hr
    cases hr
  | none =>
    rw [hindex] at hr
    cases hr
    exact congrArg Except.ok (IntradayCall.minuteResponse_limit call n seconds hsource)

/-- Three minutes of one session, for the two feeds to answer. -/
def threeMinutes : IntradayCurve where
  points := [⟨36000, 100, 5⟩, ⟨36060, 101, 7⟩, ⟨36120, 102, 9⟩]
  ascending := by decide

def threeMinutesCall : IntradayCall where
  symbol := "RELIANCE"
  interval := "1minute"
  startedAt := 36180
  env := fun name =>
    { checkedAt := 36180, startedAt := 36180, endedAt := 36180, fetch := .providerError ⟨name, "HTTP 503"⟩ }
  tickertape := some threeMinutes

theorem limit_suffix_two :
    ∃ r, ((threeMinutesCall.withLimit none).sbIntraday (.ofArgs {}) {} (fun _ => false)
      ⟨controller {}, {}, [], []⟩).1 = .ok r ∧
    ((threeMinutesCall.withLimit (some ⟨2, by decide⟩)).sbIntraday (.ofArgs {}) {} (fun _ => false)
      ⟨controller {}, {}, [], []⟩).1 = .ok { r with candles := lastSlice 2 r.candles } ∧
    r.candles.length = 3 := by
  have hr : ((threeMinutesCall.withLimit none).sbIntraday (.ofArgs {}) {} (fun _ => false)
      ⟨controller {}, {}, [], []⟩).1 = .ok ((threeMinutesCall.withLimit none).minuteResponse
        (fun _ => false) 60) := rfl
  exact ⟨_, hr, limit_suffix ⟨2, by decide⟩ rfl hr (by decide), by decide⟩

end BharatTicker
