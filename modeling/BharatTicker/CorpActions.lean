/-
  File:      BharatTicker/CorpActions.lean
  Subject:   SPLITS AND BONUS ISSUES (`engine/corp_actions.py`).

  A split shows as a price that drops by a common factor from one bar to the next, with the volume
  up by about the same factor. Every bar before it is brought onto the new scale.

  * `DailyBar` -- a candle, any of whose fields may be missing;
  * `nearestFactor`, `detectSplitEvents`, `adjustForSplits` -- the functions;
  * `splitBetween_eq_some` -- what a detected event says;
  * `adjustForSplits_timestamp` -- an adjustment keeps the bars and their stamps.
-/
import BharatTicker.Basis.Rounding
import BharatTicker.SbIntraday

namespace BharatTicker

open Basis

-- the concrete runs below compute with rationals
unseal Rat.add Rat.mul Rat.sub Rat.inv

/-- A candle of the adjustment. -/
structure DailyBar where
  timestamp : ℚ
  opening : Option ℚ
  high : Option ℚ
  low : Option ℚ
  close : Option ℚ
  volume : Option ℤ
  vwap : Option ℚ := none
  deriving DecidableEq, Repr

/-- A candle of the superbrain endpoints. -/
def SbCandle.daily (c : SbCandle) : DailyBar where
  timestamp := c.timestamp
  opening := c.opening
  high := c.high
  low := c.low
  close := some c.close
  volume := some c.volume

/-- The `index` of the first bar on the new scale, and the `factor`; `date` is the stamp of that
    bar. -/
structure SplitEvent where
  index : ℕ
  factor : ℚ
  date : ℚ
  deriving DecidableEq, Repr

/-- `_FACTORS`. -/
def splitFactors : List ℚ := [2, 5 / 2, 3, 4, 5, 6, 10]

/-- `_PRICE_TOL`. -/
def priceTol : ℚ := 6 / 100

/-- `_VOL_TOL`. -/
def volTol : ℚ := 45 / 100

/-- `_num`. -/
def num (v : Option ℚ) : ℚ := v.getD 0

/-- `_nearest_factor`. -/
def nearestFactor (ratio : ℚ) : Option ℚ :=
  if ratio < 14 / 10 then none
  else splitFactors.find? fun f => |ratio - f| / f ≤ priceTol

/-- `_num(cur.get("open")) or _num(cur.get("close"))`. -/
def DailyBar.openOrClose (cur : DailyBar) : ℚ :=
  if num cur.opening ≠ 0 then num cur.opening else num cur.close

/-- The volume jump confirms the factor; it is not asked for where a volume is missing. -/
def volumeConfirms (prev cur : DailyBar) (factor : ℚ) : Bool :=
  let prevVol := num (prev.volume.map fun v => (v : ℚ))
  let curVol := num (cur.volume.map fun v => (v : ℚ))
  if 0 < prevVol ∧ 0 < curVol then decide (|curVol / prevVol - factor| / factor ≤ max volTol (9 / 10))
  else true

/-- The event between two bars, if there is one. -/
def splitBetween (prev cur : DailyBar) : Option ℚ :=
  let prevClose := num prev.close
  let curOpen := cur.openOrClose
  if prevClose ≤ 0 ∨ curOpen ≤ 0 then none
  else (nearestFactor (prevClose / curOpen)).filter (volumeConfirms prev cur)

/-- `detect_split_events`. -/
def detectSplitEvents (candles : List DailyBar) : List SplitEvent :=
  (candles.zip candles.tail).zipIdx.filterMap fun x =>
    (splitBetween x.1.1 x.1.2).map fun f => ⟨x.2 + 1, f, x.1.2.timestamp⟩

/-- A bar from before a split by the factor. -/
def DailyBar.adjust (f : ℚ) (c : DailyBar) : DailyBar :=
  { c with
    opening := c.opening.map fun x => roundTo 4 (x / f)
    high := c.high.map fun x => roundTo 4 (x / f)
    low := c.low.map fun x => roundTo 4 (x / f)
    close := c.close.map fun x => roundTo 4 (x / f)
    vwap := c.vwap.map fun x => roundTo 4 (x / f)
    volume := c.volume.map fun v =>
      -- `int` cuts towards zero
      let x := (v : ℚ) * f
      if 0 ≤ x then ⌊x⌋ else ⌈x⌉ }

/-- Every bar before the event is adjusted. -/
def adjustBefore (candles : List DailyBar) (ev : SplitEvent) : List DailyBar :=
  candles.mapIdx fun j c => if j < ev.index then c.adjust ev.factor else c

/-- `adjust_for_splits`: from the newest event to the oldest. -/
def adjustForSplits (candles : List DailyBar) : List DailyBar × List SplitEvent :=
  if candles.length < 3 then (candles, [])
  else
    let events := detectSplitEvents candles
    (events.reverse.foldl adjustBefore candles, events)

theorem nearestFactor_eq_some {ratio f : ℚ} (h : nearestFactor ratio = some f) :
    f ∈ splitFactors ∧ |ratio - f| / f ≤ priceTol := by
  unfold nearestFactor at h
  split at h
  · cases h
  · refine ⟨List.mem_of_find?_eq_some h, ?_⟩
    simpa using List.find?_some h

/-- **What an event says**: both prices are positive, their ratio is near the factor, which is a common
    one, and the volume confirms it. -/
theorem splitBetween_eq_some {prev cur : DailyBar} {f : ℚ} (h : splitBetween prev cur = some f) :
    0 < num prev.close ∧ 0 < cur.openOrClose ∧ f ∈ splitFactors ∧
      |num prev.close / cur.openOrClose - f| / f ≤ priceTol ∧ volumeConfirms prev cur f := by
  unfold splitBetween at h
  dsimp only at h
  split at h
  · cases h
  · rename_i hpos
    rw [not_or, not_le, not_le] at hpos
    obtain ⟨hnear, hvolume⟩ := Option.filter_eq_some_iff.mp h
    obtain ⟨hmem, htol⟩ := nearestFactor_eq_some hnear
    exact ⟨hpos.1, hpos.2, hmem, htol, hvolume⟩

theorem adjustBefore_timestamp (candles : List DailyBar) (ev : SplitEvent) :
    (adjustBefore candles ev).map (·.timestamp) = candles.map (·.timestamp) := by
  unfold adjustBefore
  refine List.ext_getElem (by simp) fun j h₁ h₂ => ?_
  simp only [List.getElem_map, List.getElem_mapIdx]
  split <;> rfl

theorem foldl_adjustBefore_timestamp (events : List SplitEvent) (candles : List DailyBar) :
    (events.foldl adjustBefore candles).map (·.timestamp) = candles.map (·.timestamp) := by
  induction events generalizing candles with
  | nil => rfl
  | cons ev events ih => exact (ih (adjustBefore candles ev)).trans (adjustBefore_timestamp candles ev)

/-- **An adjustment keeps the bars and their stamps.** -/
theorem adjustForSplits_timestamp (candles : List DailyBar) :
    (adjustForSplits candles).1.map (·.timestamp) = candles.map (·.timestamp) := by
  unfold adjustForSplits
  split
  · rfl
  · exact foldl_adjustBefore_timestamp _ candles

/-- A two-for-one split between the second and the third bar. -/
example : (adjustForSplits
    [⟨0, some 100, some 102, some 98, some 100, some 1000, none⟩,
      ⟨1, some 100, some 101, some 99, some 100, some 1100, none⟩,
      ⟨2, some 50, some 52, some 49, some 51, some 2100, none⟩]).2 = [⟨2, 2, 2⟩] := by
  decide

end BharatTicker
