/-
  File:      BharatTicker/IntradayBuilder/Rollup.lean
  Subject:   COARSE BARS OF A CURVE ARE THE ROLL-UP OF FINE ONES (`engine/intraday_builder.py`:
             `points_to_ohlc`), of any points, some of which do not count.

  * `PointDict`, `dictsToOhlc` -- `points_to_ohlc` of the dictionaries that it is given;
  * `dictsToOhlc_eq` -- under one UTC offset it computes the candles of the points that count;
  * `ohlcBars`, `foldl_addPriced` -- the loop as an aggregate, over the integers;
  * `bucketStart_bucketStart` -- buckets of buckets;
  * `rollUp`, `dictsToOhlc_rollUp` -- the roll-up, and the volume.
-/
import BharatTicker.IntradayStore.Rollup
import BharatTicker.IntradayBuilder

namespace BharatTicker

open Basis

-- the concrete runs below compute with rationals
unseal Rat.add Rat.mul Rat.sub Rat.inv

/-! ## 1. Dictionaries -/

/-- What `fromisoformat` makes of a text: the instant, and the UTC offset in seconds. -/
structure OhlcStamp where
  instant : ℚ
  offset : ℤ
  deriving DecidableEq, Repr

/-- `timestamp`, `price`, `volume`; a timestamp that is missing or no date is absent. -/
structure PointDict where
  timestamp : Option OhlcStamp
  price : Option ℚ
  volume : Option ℤ
  deriving DecidableEq, Repr

/-- A cell, with the offset of its `iso`. -/
structure OhlcCell where
  cell : Cell
  offset : ℤ
  deriving DecidableEq

/-- A candle, with the offset that its timestamp is printed in. -/
structure OhlcCandle where
  candle : Candle
  offset : ℤ
  deriving DecidableEq, Repr

/-- The loop's body. -/
def addPointDict (bucketSeconds : ℕ) (buckets : List (ℤ × OhlcCell)) (p : PointDict) :
    List (ℤ × OhlcCell) :=
  match p.timestamp, p.price with
  | some e, some price =>
    if price ≤ 0 then buckets
    else
      let b := bucketStart bucketSeconds e.instant
      let c := (entryAt buckets b).getD ⟨⟨price, price, price, price, 0⟩, e.offset⟩
      assign buckets b
        { c with
          cell :=
            { c.cell with
              high := max c.cell.high price
              low := min c.cell.low price
              close := price
              volume := c.cell.volume + (p.volume.getD 0 : ℤ) } }
  | _, _ => buckets

/-- `points_to_ohlc`. -/
def dictsToOhlc (points : List PointDict) (bucketSeconds : ℕ) (limit : ℤ := 400) :
    List OhlcCandle :=
  if points = [] ∨ bucketSeconds = 0 then []
  else (lastSlice limit (points.foldl (addPointDict bucketSeconds) [])).map fun b =>
    ⟨ohlcOf (b.1, b.2.cell), b.2.offset⟩

/-- A point that counts, or would but for its price. -/
def PointDict.point (p : PointDict) : Option IntradayPoint :=
  match p.timestamp, p.price with
  | some e, some price => some ⟨e.instant, price, p.volume.getD 0⟩
  | _, _ => none

/-- The points that count. -/
def validPoints (points : List PointDict) : List IntradayPoint :=
  priced (points.filterMap PointDict.point)

/-- All timestamps are of one UTC offset. -/
def OneOffset (offset : ℤ) (points : List PointDict) : Prop :=
  ∀ p ∈ points, ∀ e ∈ p.timestamp, e.offset = offset

theorem lastSlice_map {α β : Type*} (f : α → β) (limit : ℤ) (l : List α) :
    lastSlice limit (l.map f) = (lastSlice limit l).map f := by
  unfold lastSlice
  split_ifs
  · rw [← List.map_reverse, ← List.map_take, ← List.map_reverse]
  · rw [List.map_drop]

section Dicts

variable {bucketSeconds : ℕ} {points : List PointDict} {offset : ℤ} {limit : ℤ}

/-- A cell under the one offset. -/
def withOffset (offset : ℤ) (c : Cell) : OhlcCell := ⟨c, offset⟩

theorem addPointDict_eq {p : PointDict} (h : ∀ e ∈ p.timestamp, e.offset = offset)
    (buckets : List (ℤ × Cell)) :
    addPointDict bucketSeconds (buckets.map (Prod.map id (withOffset offset))) p =
      (p.point.toList.foldl (addPoint bucketSeconds) buckets).map
        (Prod.map id (withOffset offset)) := by
  unfold addPointDict PointDict.point
  cases hts : p.timestamp with
  | none => rfl
  | some e =>
    cases hprice : p.price with
    | none => rfl
    | some price =>
      obtain rfl := h e hts
      dsimp only
      rw [Option.toList_some, List.foldl_cons, List.foldl_nil]
      unfold addPoint
      by_cases h0 : price ≤ 0
      · rw [if_pos h0, if_pos h0]
      · rw [if_neg h0, if_neg h0]
        unfold addPriced
        dsimp only
        rw [← assign_map, entryAt_map]
        cases entryAt buckets (bucketStart bucketSeconds e.instant) <;> rfl

/-- The loop, under one offset. -/
theorem foldl_addPointDict (h : OneOffset offset points) (buckets : List (ℤ × Cell)) :
    points.foldl (addPointDict bucketSeconds) (buckets.map (Prod.map id (withOffset offset))) =
      ((points.filterMap PointDict.point).foldl (addPoint bucketSeconds) buckets).map
        (Prod.map id (withOffset offset)) := by
  induction points generalizing buckets with
  | nil => rfl
  | cons p points ih =>
    have hrest : OneOffset offset points := fun q hq => h q (List.mem_cons_of_mem p hq)
    rw [List.foldl_cons, addPointDict_eq (h p List.mem_cons_self), ih hrest,
      ← List.foldl_append]
    congr 2
    rw [List.filterMap_cons]
    cases p.point <;> rfl

/-- **Under one offset** the candles are those of the points that count, printed in it. -/
theorem dictsToOhlc_eq (h : OneOffset offset points) (hs : bucketSeconds ≠ 0) :
    dictsToOhlc points bucketSeconds limit =
      ((lastSlice limit ((validPoints points).foldl (addPriced bucketSeconds) [])).map ohlcOf).map
        (OhlcCandle.mk · offset) := by
  have hloop := @foldl_addPointDict bucketSeconds points offset h []
  rw [List.map_nil, foldl_addPoint] at hloop
  unfold dictsToOhlc
  split_ifs with hnil
  · have hnil := hnil.resolve_right hs
    subst hnil
    simp [validPoints, priced, lastSlice]
  · rw [hloop, lastSlice_map, List.map_map, List.map_map]
    rfl

end Dicts

/-! ## 2. The loop as an aggregate -/

/-- The bar of one point. -/
def IntradayPoint.bar (p : IntradayPoint) : RowBar := ⟨p.price, p.price, p.price, p.price, p.volume⟩

/-- The bars of a curve, over the integers, in buckets of `bucketSeconds`. -/
def ohlcBars (bucketSeconds : ℕ) (points : List IntradayPoint) : List (ℤ × RowBar) :=
  aggregate (points.map fun p => (bucketStart bucketSeconds p.timestamp, p.bar))

/-- The cell of an integer bar. -/
def cellOf (b : RowBar) : Cell := b.map id fun n : ℤ => (n : ℚ)

theorem cellOf_mul (a b : RowBar) : cellOf (a * b) = cellOf a * cellOf b :=
  Bar.map_mul monotone_id (fun v w => by push_cast; rfl) a b

/-- The candle of an integer bar, printed in the offset. -/
def ohlcCandle (offset : ℤ) (e : ℤ × RowBar) : OhlcCandle :=
  ⟨{ toBar := e.2, timestamp := e.1 }, offset⟩

/-- The prices of a bar, rounded as they are printed. -/
def roundBar (b : RowBar) : RowBar := b.map (roundTo 2) id

theorem roundBar_mul (a b : RowBar) : roundBar (a * b) = roundBar a * roundBar b :=
  Bar.map_mul (roundTo_mono 2) (fun _ _ => rfl) a b

theorem ohlcOf_cellOf (offset : ℤ) (e : ℤ × RowBar) :
    OhlcCandle.mk (ohlcOf (Prod.map id cellOf e)) offset =
      ohlcCandle offset (Prod.map id roundBar e) := by
  simp [ohlcOf, ohlcCandle, cellOf, roundBar, Bar.map]

section Bars

variable {bucketSeconds : ℕ} {points : List IntradayPoint}

theorem ohlcBars_sorted (h : points.Pairwise fun p q => p.timestamp ≤ q.timestamp) :
    ((ohlcBars bucketSeconds points).map Prod.fst).Pairwise (· < ·) := by
  refine aggregate_sorted ?_
  rw [List.map_map]
  exact List.pairwise_map.mpr (h.imp fun hpq => bucketStart_mono _ hpq)

/-- A point of a bucket that is not behind the others joins the last bar or opens a new one. -/
theorem addPriced_eq_push {bars : List (ℤ × RowBar)} (hs : (bars.map Prod.fst).Pairwise (· < ·))
    {p : IntradayPoint} (hp : ∀ k ∈ bars.map Prod.fst, k ≤ bucketStart bucketSeconds p.timestamp) :
    addPriced bucketSeconds (bars.map (Prod.map id cellOf)) p =
      (push bars (bucketStart bucketSeconds p.timestamp, p.bar)).map (Prod.map id cellOf) := by
  rw [← assign_eq_push hs hp, ← assign_map]
  unfold addPriced
  dsimp only
  rw [entryAt_map]
  congr 1
  cases entryAt bars (bucketStart bucketSeconds p.timestamp) with
  | none => exact Bar.ext rfl (max_self _) (min_self _) rfl (zero_add _)
  | some b =>
    rw [cellOf_mul]
    rfl

/-- **The loop computes the bars of the curve.** -/
theorem foldl_addPriced (h : points.Pairwise fun p q => p.timestamp ≤ q.timestamp) :
    points.foldl (addPriced bucketSeconds) [] =
      (ohlcBars bucketSeconds points).map (Prod.map id cellOf) := by
  induction points using List.reverseRecOn with
  | nil => rfl
  | append_singleton points p ih =>
    obtain ⟨hpts, -, hlast⟩ := List.pairwise_append.mp h
    rw [List.foldl_append, List.foldl_cons, List.foldl_nil, ih hpts,
      addPriced_eq_push (ohlcBars_sorted hpts)]
    · unfold ohlcBars
      rw [List.map_append, List.map_singleton, aggregate_concat]
    · intro k hk
      rw [ohlcBars, mem_keys_aggregate, List.map_map] at hk
      obtain ⟨q, hq, rfl⟩ := List.mem_map.mp hk
      exact bucketStart_mono _ (hlast q hq p (List.mem_singleton.mpr rfl))

end Bars

/-! ## 3. Buckets of buckets -/

theorem bucketStart_bucketStart {s : ℕ} (hs : 0 < s) (k : ℕ) (t : ℚ) :
    bucketStart (k * s) (bucketStart s t : ℚ) = bucketStart (k * s) t := by
  have hs0 : (s : ℚ) ≠ 0 := by positivity
  have hnested : ∀ x : ℚ, x / ((k * s : ℕ) : ℚ) = x / s / k := by
    intro x
    rw [div_div, mul_comm (s : ℚ), Nat.cast_mul]
  have hfine : ((⌊t / s⌋ * s : ℤ) : ℚ) / s = (⌊t / s⌋ : ℚ) := by
    push_cast
    exact mul_div_cancel_right₀ _ hs0
  unfold bucketStart
  rw [hnested, hnested, hfine, Int.floor_div_natCast (⌊t / s⌋ : ℚ), Int.floor_div_natCast (t / s),
    Int.floor_intCast]

/-- The bars of the coarse width are the runs of the fine ones. -/
theorem ohlcBars_comp {s : ℕ} (hs : 0 < s) (k : ℕ) (points : List IntradayPoint) :
    aggregate ((ohlcBars s points).map (Prod.map (fun b : ℤ => bucketStart (k * s) b) id)) =
      ohlcBars (k * s) points := by
  unfold ohlcBars
  rw [aggregate_comp, List.map_map]
  congr 1
  refine List.map_congr_left fun p _ => ?_
  exact Prod.ext (bucketStart_bucketStart hs k p.timestamp) rfl

/-! ## 4. The roll-up -/

/-- Bars grouped by the bucket that they begin in: first open, highest high, lowest low, last close,
    total volume. -/
def rollUp (bucketSeconds : ℕ) (bars : List OhlcCandle) : List OhlcCandle :=
  (bars.map fun c => bucketStart bucketSeconds c.candle.timestamp).dedup.map fun b =>
    let group := bars.filter fun c => bucketStart bucketSeconds c.candle.timestamp = b
    ⟨{ toBar := Bar.summary (group.map (·.candle.toBar)), timestamp := b },
      (group.head?.map (·.offset)).getD 0⟩

/-- The points stand in the order of their times, where these parse. -/
def TimesAscend (points : List PointDict) : Prop :=
  points.Pairwise fun p q => ∀ e ∈ p.timestamp, ∀ e' ∈ q.timestamp, e.instant ≤ e'.instant

/-- `limit` cuts off no bucket. -/
def Untruncated (points : List PointDict) (bucketSeconds : ℕ) (limit : ℤ) : Prop :=
  lastSlice limit (points.foldl (addPointDict bucketSeconds) []) =
    points.foldl (addPointDict bucketSeconds) []

theorem PointDict.point_timestamp {p : PointDict} {q : IntradayPoint} (h : p.point = some q) :
    ∃ e ∈ p.timestamp, e.instant = q.timestamp := by
  unfold PointDict.point at h
  cases hts : p.timestamp with
  | none => simp [hts] at h
  | some e =>
    cases hprice : p.price with
    | none => simp [hts, hprice] at h
    | some price =>
      simp only [hts, hprice, Option.some.injEq] at h
      exact ⟨e, rfl, by rw [← h]⟩

section RollUp

variable {points : List PointDict} {offset : ℤ}

theorem validPoints_ascending (h : TimesAscend points) :
    (validPoints points).Pairwise fun p q => p.timestamp ≤ q.timestamp := by
  refine (List.Pairwise.filterMap PointDict.point ?_ h).filter _
  intro p q hpq p' hp' q' hq'
  obtain ⟨e, he, hep⟩ := PointDict.point_timestamp hp'
  obtain ⟨e', he', heq⟩ := PointDict.point_timestamp hq'
  rw [← hep, ← heq]
  exact hpq e he e' he'

/-- **What is printed**: the bars of the points that count, rounded. -/
theorem dictsToOhlc_bars (ho : OneOffset offset points) (ha : TimesAscend points)
    {bucketSeconds : ℕ} (hs : 0 < bucketSeconds) {limit : ℤ}
    (hl : Untruncated points bucketSeconds limit) :
    dictsToOhlc points bucketSeconds limit =
      ((ohlcBars bucketSeconds (validPoints points)).map (Prod.map id roundBar)).map
        (ohlcCandle offset) := by
  have hloop : points.foldl (addPointDict bucketSeconds) [] =
      (((validPoints points).foldl (addPriced bucketSeconds) []).map
        (Prod.map id (withOffset offset))) := by
    rw [validPoints, ← foldl_addPoint]
    exact foldl_addPointDict ho []
  rw [foldl_addPriced (validPoints_ascending ha)] at hloop
  unfold Untruncated at hl
  rw [hloop, lastSlice_map] at hl
  have hall : lastSlice limit ((ohlcBars bucketSeconds (validPoints points)).map
      (Prod.map id cellOf)) = (ohlcBars bucketSeconds (validPoints points)).map
        (Prod.map id cellOf) := by
    refine (lastSlice_sublist _ _).eq_of_length ?_
    have hlen := congrArg List.length hl
    rwa [List.length_map, List.length_map] at hlen
  rw [dictsToOhlc_eq ho hs.ne', foldl_addPriced (validPoints_ascending ha), hall, List.map_map,
    List.map_map, List.map_map]
  exact List.map_congr_left fun e _ => ohlcOf_cellOf offset e

/-- The groups of bars under one offset. -/
theorem rollUp_eq (offset : ℤ) (bucketSeconds : ℕ) {bars : List (ℤ × RowBar)}
    (h : (bars.map Prod.fst).Pairwise (· < ·)) :
    rollUp bucketSeconds (bars.map (ohlcCandle offset)) =
      (aggregate (bars.map (Prod.map (fun b : ℤ => bucketStart bucketSeconds b) id))).map
        (ohlcCandle offset) := by
  let key : ℤ → ℤ := fun b => bucketStart bucketSeconds b
  have hkeys : (bars.map (ohlcCandle offset)).map
      (fun c => bucketStart bucketSeconds c.candle.timestamp) =
        (bars.map (Prod.map key id)).map Prod.fst := by
    rw [List.map_map, List.map_map]
    rfl
  have hordered : ((bars.map (Prod.map key id)).map Prod.fst).Pairwise (· ≤ ·) := by
    rw [List.map_map]
    refine List.pairwise_map.mpr ((List.pairwise_map.mp h).imp fun hlt => ?_)
    exact bucketStart_mono _ (by exact_mod_cast hlt.le)
  rw [aggregate_eq_dedup hordered fun x xs => Bar.summary_cons x xs, List.map_map]
  unfold rollUp
  rw [hkeys]
  refine List.map_congr_left fun b hb => ?_
  have hgroup : (bars.map (ohlcCandle offset)).filter
      (fun c => bucketStart bucketSeconds c.candle.timestamp = b) =
        (bars.filter fun e => key e.1 = b).map (ohlcCandle offset) := by
    rw [List.filter_map]
    rfl
  have hvalues : groupOf (bars.map (Prod.map key id)) b =
      (bars.filter fun e => key e.1 = b).map Prod.snd := by
    unfold groupOf
    rw [List.filter_map, List.map_map]
    rfl
  have hhead : (((bars.filter fun e => key e.1 = b).map (ohlcCandle offset)).head?.map
      (·.offset)).getD 0 = offset := by
    rw [List.map_map] at hb
    obtain ⟨e, he, heb⟩ := List.mem_map.mp (List.mem_dedup.mp hb)
    have hmem : e ∈ bars.filter fun e => key e.1 = b :=
      List.mem_filter.mpr ⟨he, decide_eq_true heb⟩
    obtain ⟨x, xs, hx⟩ := List.exists_cons_of_ne_nil (List.ne_nil_of_mem hmem)
    rw [hx]
    rfl
  dsimp only
  rw [hgroup, hhead, List.map_map]
  simp only [Function.comp_apply, hvalues]
  rfl

/-- **Coarse bars are the roll-up of fine ones**, and nothing of the volume is lost. -/
theorem dictsToOhlc_rollUp (ho : OneOffset offset points) (ha : TimesAscend points) {s k : ℕ}
    (hs : 1 ≤ s) (hk : 1 ≤ k) {limit limit' : ℤ} (hl : Untruncated points s limit)
    (hl' : Untruncated points (k * s) limit') :
    dictsToOhlc points (k * s) limit' = rollUp (k * s) (dictsToOhlc points s limit) ∧
      ((dictsToOhlc points s limit).map (·.candle.volume)).sum =
        ((validPoints points).map (·.volume)).sum := by
  have hks : 0 < k * s := Nat.mul_pos hk hs
  have hsorted : (((ohlcBars s (validPoints points)).map (Prod.map id roundBar)).map
      Prod.fst).Pairwise (· < ·) := by
    rw [List.map_map]
    exact ohlcBars_sorted (validPoints_ascending ha)
  rw [dictsToOhlc_bars ho ha hs hl, dictsToOhlc_bars ho ha hks hl', rollUp_eq offset _ hsorted]
  constructor
  · -- rounding and coarser buckets may be exchanged
    have hswap : ((ohlcBars s (validPoints points)).map (Prod.map id roundBar)).map
        (Prod.map (fun b : ℤ => bucketStart (k * s) b) id) =
          ((ohlcBars s (validPoints points)).map
            (Prod.map (fun b : ℤ => bucketStart (k * s) b) id)).map (Prod.map id roundBar) := by
      rw [List.map_map, List.map_map]
      rfl
    rw [hswap, aggregate_map roundBar_mul, ohlcBars_comp hs]
  · have hsum := sum_aggregate (φ := fun b : RowBar => b.volume) (fun _ _ => rfl)
      (fun _ : ℤ => true) ((validPoints points).map fun p => (bucketStart s p.timestamp, p.bar))
    rw [List.filter_true, List.filter_true, List.map_map] at hsum
    rw [List.map_map, List.map_map]
    exact hsum

end RollUp

/-- Six minutes of points in IST, three of which do not count: one is of no date, one has no price
    and one a price of zero. -/
def patchyPoints : List PointDict :=
  [⟨some ⟨900, 19800⟩, some 100, some 5⟩, ⟨none, some 101, some 7⟩,
    ⟨some ⟨930, 19800⟩, none, some 3⟩, ⟨some ⟨950, 19800⟩, some 0, some 9⟩,
    ⟨some ⟨965, 19800⟩, some 102, some 4⟩, ⟨some ⟨1210, 19800⟩, some 99, none⟩]

theorem dictsToOhlc_rollUp_patchy :
    dictsToOhlc patchyPoints 300 = rollUp 300 (dictsToOhlc patchyPoints 60) ∧
      ((dictsToOhlc patchyPoints 60).map (·.candle.volume)).sum = 9 := by
  have ho : OneOffset 19800 patchyPoints := by
    unfold OneOffset
    decide
  have ha : TimesAscend patchyPoints := by
    unfold TimesAscend
    decide
  obtain ⟨hroll, hvolume⟩ := dictsToOhlc_rollUp ho ha (show 1 ≤ 60 by decide) (show 1 ≤ 5 by decide)
    (show Untruncated patchyPoints 60 400 by unfold Untruncated; decide)
    (show Untruncated patchyPoints (5 * 60) 400 by unfold Untruncated; decide)
  exact ⟨hroll, hvolume.trans (by decide)⟩

end BharatTicker
