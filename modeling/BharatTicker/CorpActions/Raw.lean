/-
  File:      BharatTicker/CorpActions/Raw.lean
  Subject:   THE ADJUSTMENT ON DICTIONARIES (`engine/corp_actions.py`). The candles come as dictionaries,
             any of whose values may be missing, a number or a text.

  * `PyValue`, `RawCandle` -- the values, and a candle as its `get`;
  * `RawCandle.splitBetween`, `detectSplitEvents`, `adjust`, `adjustForSplits` -- the functions;
  * `laterFactors`, `adjustForSplits_getElem` -- a bar of the result: the bar, rescaled by the factors of
    the events after it;
  * `adjustAll_price`, `adjustAll_volume`, `adjustAll_other` -- what that makes of each field;
  * `DailyBar.raw`, `adjustForSplits_raw` -- the endpoints' candles are adjusted in the same way.
-/
import BharatTicker.Basis.Rescale
import BharatTicker.CorpActions
import BharatTicker.Quotes

namespace BharatTicker

open Basis

/-! ## 1. Values and candles -/

/-- What stands in a candle: nothing or `None`, a number, a text. -/
inductive PyValue where
  | none
  | num (q : ℚ)
  | text (s : String)
  deriving DecidableEq, Repr

/-- `_num`; a text that is no finite number reads as zero. -/
def PyValue.toNum : PyValue → ℚ
  | .none => 0
  | .num q => q
  | .text s => (QuoteCall.float s).getD 0

/-- `bool(v)`. -/
def PyValue.truthy : PyValue → Bool
  | .none => false
  | .num q => q ≠ 0
  | .text s => s ≠ ""

/-- A candle, as its `get`. -/
abbrev RawCandle := String → PyValue

/-- An event; `date` is what `str` is applied to. -/
structure RawEvent where
  index : ℕ
  factor : ℚ
  date : PyValue
  deriving DecidableEq, Repr

/-- The fields that are divided. -/
def priceFields : List String := ["open", "high", "low", "close", "vwap"]

namespace RawCandle

/-! ## 2. The functions -/

/-- `_num(c.get("open")) or _num(c.get("close"))`. -/
def openOrClose (c : RawCandle) : ℚ :=
  if (c "open").toNum ≠ 0 then (c "open").toNum else (c "close").toNum

/-- `vol_ok`. -/
def volumeConfirms (prev cur : RawCandle) (factor : ℚ) : Bool :=
  let prevVol := (prev "volume").toNum
  let curVol := (cur "volume").toNum
  if 0 < prevVol ∧ 0 < curVol then decide (|curVol / prevVol - factor| / factor ≤ max volTol (9 / 10))
  else true

/-- The factor of the event between two candles, if there is one. -/
def splitBetween (prev cur : RawCandle) : Option ℚ :=
  let prevClose := (prev "close").toNum
  let curOpen := cur.openOrClose
  if prevClose ≤ 0 ∨ curOpen ≤ 0 then none
  else (nearestFactor (prevClose / curOpen)).filter (volumeConfirms prev cur)

/-- `candles[i].get("timestamp") or candles[i].get("bucket") or ""`. -/
def date (c : RawCandle) : PyValue :=
  if (c "timestamp").truthy then c "timestamp"
  else if (c "bucket").truthy then c "bucket"
  else .text ""

/-- `detect_split_events`. -/
def detectSplitEvents (candles : List RawCandle) : List RawEvent :=
  (candles.zip candles.tail).zipIdx.filterMap fun x =>
    (splitBetween x.1.1 x.1.2).map fun f => ⟨x.2 + 1, f, x.1.2.date⟩

/-- `if out[j].get(k) is not None: out[j][k] = g(_num(out[j][k]))`. -/
def mapField (g : ℚ → ℚ) (c : RawCandle) (k : String) : RawCandle :=
  if c k = .none then c else Function.update c k (.num (g (c k).toNum))

/-- A candle from before a split by the factor: first the prices, then the volume. -/
def adjust (f : ℚ) (c : RawCandle) : RawCandle :=
  (priceFields.foldl (mapField fun x => roundTo 4 (x / f)) c).mapField
    (fun v => truncate (v * f)) "volume"

/-- Every candle before the event is adjusted. -/
def adjustBefore (candles : List RawCandle) (ev : RawEvent) : List RawCandle :=
  candles.mapIdx fun j c => if j < ev.index then c.adjust ev.factor else c

/-- `adjust_for_splits`: from the newest event to the oldest. -/
def adjustForSplits (candles : List RawCandle) : List RawCandle × List RawEvent :=
  if candles.length < 3 then (candles, [])
  else
    let events := detectSplitEvents candles
    (events.reverse.foldl adjustBefore candles, events)

/-! ## 3. One candle -/

section Fields

variable {c : RawCandle} {f q : ℚ} {k : String}

theorem mapField_of_ne (g : ℚ → ℚ) {k' : String} (h : k' ≠ k) : c.mapField g k k' = c k' := by
  unfold mapField
  split_ifs
  · rfl
  · exact Function.update_of_ne h _ _

theorem mapField_self (g : ℚ → ℚ) :
    c.mapField g k k = if c k = .none then .none else .num (g (c k).toNum) := by
  unfold mapField
  split_ifs with h
  · exact h
  · exact Function.update_self ..

theorem foldl_mapField_of_not_mem (g : ℚ → ℚ) {ks : List String} (h : k ∉ ks) :
    ks.foldl (mapField g) c k = c k := by
  induction ks generalizing c with
  | nil => rfl
  | cons k' ks ih =>
    rw [List.foldl_cons, ih fun hk => h (List.mem_cons_of_mem k' hk)]
    exact mapField_of_ne g fun e => h (e ▸ List.mem_cons_self)

/-- Every field is mapped once. -/
theorem foldl_mapField_of_mem (g : ℚ → ℚ) {ks : List String} (hnd : ks.Nodup) (h : k ∈ ks) :
    ks.foldl (mapField g) c k = if c k = .none then .none else .num (g (c k).toNum) := by
  induction ks generalizing c with
  | nil => cases h
  | cons k' ks ih =>
    obtain ⟨hk', hnd⟩ := List.nodup_cons.mp hnd
    rw [List.foldl_cons]
    rcases List.mem_cons.mp h with rfl | hk
    · rw [foldl_mapField_of_not_mem g hk', mapField_self]
    · have hne : k ≠ k' := fun e => hk' (e ▸ hk)
      rw [ih hnd hk, mapField_of_ne g hne]

theorem adjust_price (f : ℚ) (hk : k ∈ priceFields) :
    c.adjust f k = if c k = .none then .none else .num (roundTo 4 ((c k).toNum / f)) := by
  have hne : k ≠ "volume" := by
    rintro rfl
    revert hk
    decide
  unfold adjust
  rw [mapField_of_ne _ hne, foldl_mapField_of_mem _ (by decide) hk]

theorem adjust_volume (f : ℚ) :
    c.adjust f "volume" =
      if c "volume" = .none then .none else .num (truncate ((c "volume").toNum * f)) := by
  unfold adjust
  rw [mapField_self, foldl_mapField_of_not_mem _ (by decide)]

/-- Every other field stays. -/
theorem adjust_other (f : ℚ) (hk : k ∉ "volume" :: priceFields) : c.adjust f k = c k := by
  rw [List.mem_cons, not_or] at hk
  unfold adjust
  rw [mapField_of_ne _ hk.1, foldl_mapField_of_not_mem _ hk.2]

/-- A candle that is adjusted by several factors. -/
def adjustAll (factors : List ℚ) (c : RawCandle) : RawCandle := factors.foldl (fun c f => c.adjust f) c

theorem adjustAll_concat (factors : List ℚ) (f : ℚ) (c : RawCandle) :
    adjustAll (factors ++ [f]) c = (adjustAll factors c).adjust f := List.foldl_concat ..

/-- **A price is divided by the factors**, with the rounding of each step. -/
theorem adjustAll_price (factors : List ℚ) (hk : k ∈ priceFields) (hq : c k = .num q) :
    adjustAll factors c k = .num (divRounded 4 q factors) := by
  induction factors using List.reverseRecOn with
  | nil => exact hq
  | append_singleton factors f ih =>
    rw [adjustAll_concat, adjust_price f hk, ih, if_neg nofun, divRounded_concat]
    rfl

/-- **The volume is multiplied by them**, cut to an integer in each step. -/
theorem adjustAll_volume (factors : List ℚ) (hq : c "volume" = .num q) :
    adjustAll factors c "volume" = .num (mulTruncated q factors) := by
  induction factors using List.reverseRecOn with
  | nil => exact hq
  | append_singleton factors f ih =>
    rw [adjustAll_concat, adjust_volume f, ih, if_neg nofun, mulTruncated_concat]
    rfl

theorem adjustAll_none (factors : List ℚ) (hk : k ∈ "volume" :: priceFields) (h : c k = .none) :
    adjustAll factors c k = .none := by
  induction factors using List.reverseRecOn with
  | nil => exact h
  | append_singleton factors f ih =>
    rw [adjustAll_concat]
    rcases List.mem_cons.mp hk with rfl | hk
    · rw [adjust_volume, ih, if_pos rfl]
    · rw [adjust_price f hk, ih, if_pos rfl]

theorem adjustAll_other (factors : List ℚ) (hk : k ∉ "volume" :: priceFields) :
    adjustAll factors c k = c k := by
  induction factors using List.reverseRecOn with
  | nil => rfl
  | append_singleton factors f ih => rw [adjustAll_concat, adjust_other f hk, ih]

end Fields

/-! ## 4. The series -/

section Series

variable {candles : List RawCandle} {events : List RawEvent}

/-- The factors of the events after bar `j`, newest first. -/
def laterFactors (events : List RawEvent) (j : ℕ) : List ℚ :=
  (events.reverse.filter fun ev => j < ev.index).map (·.factor)

theorem length_foldl_adjustBefore (events : List RawEvent) (candles : List RawCandle) :
    (events.foldl adjustBefore candles).length = candles.length := by
  induction events generalizing candles with
  | nil => rfl
  | cons ev events ih => exact (ih _).trans List.length_mapIdx

/-- A bar meets the events after it, one after another. -/
theorem foldl_adjustBefore_getElem (events : List RawEvent) {j : ℕ} (hj : j < candles.length)
    (hj' : j < (events.foldl adjustBefore candles).length) :
    (events.foldl adjustBefore candles)[j] =
      adjustAll ((events.filter fun ev => j < ev.index).map (·.factor)) candles[j] := by
  induction events generalizing candles with
  | nil => rfl
  | cons ev events ih =>
    have hlen : j < (adjustBefore candles ev).length := by
      rw [adjustBefore, List.length_mapIdx]
      exact hj
    have hone : (adjustBefore candles ev)[j] =
        if j < ev.index then candles[j].adjust ev.factor else candles[j] := List.getElem_mapIdx ..
    have hrest := ih hlen hj'
    rw [hone] at hrest
    refine hrest.trans ?_
    by_cases hlt : j < ev.index
    · rw [if_pos hlt, List.filter_cons_of_pos (by simpa using hlt)]
      rfl
    · rw [if_neg hlt, List.filter_cons_of_neg (by simpa using hlt)]

/-- The result, for a series that is long enough. -/
theorem adjustForSplits_eq (h : 3 ≤ candles.length) :
    adjustForSplits candles =
      ((detectSplitEvents candles).reverse.foldl adjustBefore candles, detectSplitEvents candles) :=
  if_neg (by omega)

@[simp] theorem length_adjustForSplits (candles : List RawCandle) :
    (adjustForSplits candles).1.length = candles.length := by
  unfold adjustForSplits
  split_ifs
  · rfl
  · exact length_foldl_adjustBefore _ candles

/-- **A bar of the result** is the bar, rescaled by the factors of the events after it. -/
theorem adjustForSplits_getElem (h : 3 ≤ candles.length) {j : ℕ} (hj : j < candles.length)
    (hj' : j < (adjustForSplits candles).1.length) :
    (adjustForSplits candles).1[j] =
      adjustAll (laterFactors (detectSplitEvents candles) j) candles[j] := by
  have e := congrArg Prod.fst (adjustForSplits_eq h)
  rw [List.getElem_of_eq e hj']
  exact foldl_adjustBefore_getElem _ hj _

/-- The events: a split between a bar and the one before it. -/
theorem mem_detectSplitEvents {ev : RawEvent} : ev ∈ detectSplitEvents candles ↔
    ∃ i, ∃ h : i + 1 < candles.length, ev.index = i + 1 ∧ ev.date = candles[i + 1].date ∧
      splitBetween candles[i] candles[i + 1] = some ev.factor := by
  unfold detectSplitEvents
  rw [List.mem_filterMap]
  constructor
  · intro hex
    obtain ⟨⟨⟨p, c⟩, i⟩, hx, hev⟩ := hex
    obtain ⟨f, hf, rfl⟩ := Option.map_eq_some_iff.mp hev
    rw [List.mem_zipIdx_iff_getElem?, List.getElem?_zip_eq_some, List.getElem?_tail] at hx
    obtain ⟨hp, hc⟩ := hx
    dsimp only at hp hc hf ⊢
    obtain ⟨h, rfl⟩ := List.getElem?_eq_some_iff.mp hc
    obtain ⟨h', rfl⟩ := List.getElem?_eq_some_iff.mp hp
    exact ⟨i, h, rfl, rfl, hf⟩
  · intro hex
    obtain ⟨i, h, hindex, hdate, hf⟩ := hex
    refine ⟨((candles[i], candles[i + 1]), i), ?_, ?_⟩
    · rw [List.mem_zipIdx_iff_getElem?, List.getElem?_zip_eq_some, List.getElem?_tail]
      exact ⟨List.getElem?_eq_getElem _, List.getElem?_eq_getElem h⟩
    · rw [hf]
      cases ev
      cases hindex
      cases hdate
      rfl

theorem detectSplitEvents_eq_nil : detectSplitEvents candles = [] ↔
    ∀ i, ∀ h : i + 1 < candles.length, splitBetween candles[i] candles[i + 1] = none := by
  rw [List.eq_nil_iff_forall_not_mem]
  constructor
  · intro hno i h
    by_contra hne
    obtain ⟨f, hf⟩ := Option.ne_none_iff_exists'.mp hne
    exact hno ⟨i + 1, f, candles[i + 1].date⟩ (mem_detectSplitEvents.2 ⟨i, h, rfl, rfl, hf⟩)
  · intro hnone ev hev
    obtain ⟨i, h, -, -, hf⟩ := mem_detectSplitEvents.1 hev
    rw [hnone i h] at hf
    cases hf

/-- What an event says, as on `splitBetween_eq_some`. -/
theorem splitBetween_eq_some {prev cur : RawCandle} {f : ℚ} (h : splitBetween prev cur = some f) :
    0 < (prev "close").toNum ∧ 0 < cur.openOrClose ∧ f ∈ splitFactors ∧
      |(prev "close").toNum / cur.openOrClose - f| / f ≤ priceTol ∧
      volumeConfirms prev cur f = true := by
  unfold splitBetween at h
  dsimp only at h
  split at h
  · cases h
  · rename_i hpos
    rw [not_or, not_le, not_le] at hpos
    obtain ⟨hnear, hvolume⟩ := Option.filter_eq_some_iff.mp h
    obtain ⟨hmem, htol⟩ := nearestFactor_eq_some hnear
    exact ⟨hpos.1, hpos.2, hmem, htol, hvolume⟩

end Series

end RawCandle

/-! ## 5. The candles of the endpoints -/

/-- A field that may be missing. -/
def PyValue.ofOption (v : Option ℚ) : PyValue := v.elim .none .num

/-- The dictionary of a candle. -/
def DailyBar.raw (c : DailyBar) : RawCandle := fun k =>
  if k = "timestamp" then .num c.timestamp
  else if k = "open" then .ofOption c.opening
  else if k = "high" then .ofOption c.high
  else if k = "low" then .ofOption c.low
  else if k = "close" then .ofOption c.close
  else if k = "volume" then .ofOption (c.volume.map fun v => (v : ℚ))
  else if k = "vwap" then .ofOption c.vwap
  else .none

section Daily

theorem toNum_ofOption (v : Option ℚ) : (PyValue.ofOption v).toNum = num v := by
  cases v <;> rfl

theorem ofOption_map (g : ℚ → ℚ) (v : Option ℚ) :
    (if PyValue.ofOption v = .none then .none else .num (g (PyValue.ofOption v).toNum)) =
      PyValue.ofOption (v.map g) := by
  cases v <;> rfl

theorem splitBetween_raw (prev cur : DailyBar) :
    prev.raw.splitBetween cur.raw = splitBetween prev cur := by
  have hclose : ∀ c : DailyBar, (c.raw "close").toNum = num c.close := fun c =>
    toNum_ofOption c.close
  have hopen : ∀ c : DailyBar, (c.raw "open").toNum = num c.opening := fun c =>
    toNum_ofOption c.opening
  have hvolume : ∀ c : DailyBar, (c.raw "volume").toNum = num (c.volume.map fun v => (v : ℚ)) :=
    fun c => toNum_ofOption _
  have hconfirms : prev.raw.volumeConfirms cur.raw = volumeConfirms prev cur := by
    funext f
    unfold RawCandle.volumeConfirms volumeConfirms
    rw [hvolume, hvolume]
  have hcur : cur.raw.openOrClose = cur.openOrClose := by
    unfold RawCandle.openOrClose DailyBar.openOrClose
    rw [hopen, hclose]
  unfold RawCandle.splitBetween splitBetween
  rw [hclose, hcur, hconfirms]

theorem adjust_raw (f : ℚ) (c : DailyBar) : c.raw.adjust f = (c.adjust f).raw := by
  funext k
  by_cases hk : k ∈ "volume" :: priceFields
  · rcases List.mem_cons.mp hk with rfl | hk
    · rw [RawCandle.adjust_volume]
      change (if PyValue.ofOption (c.volume.map fun v => (v : ℚ)) = .none then PyValue.none
        else .num (truncate ((PyValue.ofOption (c.volume.map fun v => (v : ℚ))).toNum * f))) =
          PyValue.ofOption ((c.adjust f).volume.map fun v => (v : ℚ))
      rw [ofOption_map (fun v => (truncate (v * f) : ℚ))]
      cases hv : c.volume <;> simp [DailyBar.adjust, hv, truncate]
    · have hstep : ∀ v : Option ℚ, c.raw k = PyValue.ofOption v →
          (c.adjust f).raw k = PyValue.ofOption (v.map fun x => roundTo 4 (x / f)) →
          c.raw.adjust f k = (c.adjust f).raw k := by
        intro v h h'
        rw [RawCandle.adjust_price f hk, h, ofOption_map (fun x => roundTo 4 (x / f)), h']
      simp only [priceFields, List.mem_cons, List.not_mem_nil, or_false] at hk
      rcases hk with rfl | rfl | rfl | rfl | rfl
      · exact hstep c.opening rfl rfl
      · exact hstep c.high rfl rfl
      · exact hstep c.low rfl rfl
      · exact hstep c.close rfl rfl
      · exact hstep c.vwap rfl rfl
  · rw [RawCandle.adjust_other f hk]
    simp only [priceFields, List.mem_cons, List.not_mem_nil, or_false, not_or] at hk
    unfold DailyBar.raw
    simp [hk, DailyBar.adjust]

/-- The events are found at the same candles, with the same factors. -/
theorem detectSplitEvents_raw (candles : List DailyBar) :
    (RawCandle.detectSplitEvents (candles.map DailyBar.raw)).map (fun ev => (ev.index, ev.factor)) =
      (detectSplitEvents candles).map fun ev => (ev.index, ev.factor) := by
  unfold RawCandle.detectSplitEvents detectSplitEvents
  rw [← List.map_tail, List.zip_map, List.zipIdx_map, List.filterMap_map, List.map_filterMap,
    List.map_filterMap]
  refine List.filterMap_congr fun x _ => ?_
  simp [splitBetween_raw, Function.comp_def]

theorem adjustBefore_raw (candles : List DailyBar) {ev : SplitEvent} {ev' : RawEvent}
    (h : (ev'.index, ev'.factor) = (ev.index, ev.factor)) :
    RawCandle.adjustBefore (candles.map DailyBar.raw) ev' =
      (adjustBefore candles ev).map DailyBar.raw := by
  obtain ⟨hi, hf⟩ := Prod.mk.inj h
  unfold RawCandle.adjustBefore adjustBefore
  rw [hi, hf]
  refine List.ext_getElem (by simp) fun j h₁ h₂ => ?_
  simp only [List.getElem_mapIdx, List.getElem_map]
  split_ifs
  · exact adjust_raw ev.factor _
  · rfl

theorem foldl_adjustBefore_raw {evs : List SplitEvent} {evs' : List RawEvent}
    (h : evs'.map (fun ev => (ev.index, ev.factor)) = evs.map fun ev => (ev.index, ev.factor))
    (candles : List DailyBar) : evs'.foldl RawCandle.adjustBefore (candles.map DailyBar.raw) =
      (evs.foldl adjustBefore candles).map DailyBar.raw := by
  induction evs generalizing evs' candles with
  | nil =>
    rw [List.map_eq_nil_iff.mp h]
    rfl
  | cons ev evs ih =>
    cases evs' with
    | nil => cases h
    | cons ev' evs' =>
      obtain ⟨hev, hrest⟩ := List.cons.inj h
      rw [List.foldl_cons, List.foldl_cons, adjustBefore_raw candles hev]
      exact ih hrest _

/-- **The endpoints' candles are adjusted as their dictionaries are.** -/
theorem adjustForSplits_raw (candles : List DailyBar) :
    (RawCandle.adjustForSplits (candles.map DailyBar.raw)).1 =
        (adjustForSplits candles).1.map DailyBar.raw ∧
      (RawCandle.adjustForSplits (candles.map DailyBar.raw)).2.map (fun ev => (ev.index, ev.factor)) =
        (adjustForSplits candles).2.map fun ev => (ev.index, ev.factor) := by
  have hdetect := detectSplitEvents_raw candles
  unfold RawCandle.adjustForSplits adjustForSplits
  rw [List.length_map]
  split_ifs
  · exact ⟨rfl, rfl⟩
  · refine ⟨foldl_adjustBefore_raw ?_ candles, hdetect⟩
    rw [List.map_reverse, List.map_reverse, hdetect]

end Daily

end BharatTicker
