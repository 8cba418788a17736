/-
  File:      BharatTicker/IntradayBuilder.lean
  Subject:   INTRADAY CURVES AND THEIR CANDLES (`engine/intraday_builder.py`,
             `engine/tickertape.py`: `fetch_intraday_points`,
             `providers/bse_scraper.py`: `fetch_intraday_graph`).

  Both fetchers stamp their points in IST and sort them, so that a curve ascends (`IntradayCurve`).
  A stamp is the instant that its text denotes; the buckets of a curve are numbered, as in the
  code, by the second they begin at.

  * `fetchIntradayPoints`, `fetchIntradayGraph` -- what the two upstreams answer, as curves;
  * `addPoint`, `pointsToOhlc` -- the loop over the points;
  * `pointsToOhlc_sorted`, `pointsToOhlc_getLast?` -- the order of the candles, and the last one.
-/
import BharatTicker.LiveCandles

namespace BharatTicker

open Basis

/-! ## 1. Curves -/

/-- `{"timestamp": ..., "price": ..., "volume": ...}`; the volume is of the interval. -/
structure IntradayPoint where
  timestamp : ℚ
  price : ℚ
  volume : ℤ
  deriving DecidableEq, Repr

/-- Points in the order of their times. -/
structure IntradayCurve where
  points : List IntradayPoint
  ascending : points.Pairwise fun p q => p.timestamp ≤ q.timestamp

/-- A point of the first upstream: last price, stamp, cumulative volume. A stamp that is no
    date is absent. -/
structure TtPoint where
  lp : Option ℚ
  ts : Option ℚ
  v : Option ℚ
  deriving DecidableEq, Repr

/-- The first loop of `fetch_intraday_points`: `(dt, price, cum)`. -/
def TtPoint.raw (p : TtPoint) : Option (ℚ × ℚ × ℚ) :=
  match p.lp, p.ts with
  | some lp, some ts => some (ts, lp, p.v.getD 0)
  | _, _ => none

/-- `cum - prev_cum if (prev_cum is not None and cum >= prev_cum) else 0`. -/
def increment (prevCum : Option ℚ) (cum : ℚ) : ℚ :=
  match prevCum with
  | some c => if c ≤ cum then cum - c else 0
  | none => 0

/-- The second loop, after `prev_cum`. -/
def perInterval : Option ℚ → List (ℚ × ℚ × ℚ) → List IntradayPoint
  | _, [] => []
  | prevCum, (dt, price, cum) :: raw =>
    ⟨dt, price, truncInt (increment prevCum cum)⟩ :: perInterval (some cum) raw

theorem perInterval_timestamps (prevCum : Option ℚ) (raw : List (ℚ × ℚ × ℚ)) :
    (perInterval prevCum raw).map (·.timestamp) = raw.map Prod.fst := by
  induction raw generalizing prevCum with
  | nil => rfl
  | cons r raw ih =>
    obtain ⟨dt, price, cum⟩ := r
    rw [perInterval, List.map_cons, ih, List.map_cons]

/-- `fetch_intraday_points`, of the points that the upstream lists. -/
def fetchIntradayPoints (pts : List TtPoint) : IntradayCurve where
  points := perInterval none ((pts.filterMap TtPoint.raw).insertionSort fun a b => a.1 ≤ b.1)
  ascending := by
    have h := List.pairwise_map.mpr (insertionSort_key Prod.fst (pts.filterMap TtPoint.raw))
    rw [← perInterval_timestamps none] at h
    exact List.pairwise_map.mp h

/-- A point of the second upstream; a stamp that is no date is absent, a price or volume that is no
    number is zero. -/
structure GraphPoint where
  dttm : Option ℚ
  vale1 : ℚ
  vole : ℚ
  deriving DecidableEq, Repr

/-- The loop of `fetch_intraday_graph`. -/
def GraphPoint.point (p : GraphPoint) : Option IntradayPoint :=
  match p.dttm with
  | some dttm => if p.vale1 ≤ 0 then none else some ⟨dttm, p.vale1, truncInt p.vole⟩
  | none => none

/-- `fetch_intraday_graph`, of the points that the upstream lists. -/
def fetchIntradayGraph (pts : List GraphPoint) : IntradayCurve where
  points := (pts.filterMap GraphPoint.point).insertionSort fun a b => a.timestamp ≤ b.timestamp
  ascending := insertionSort_key _ _

/-! ## 2. Candles -/

/-- `INTRADAY_SECONDS`. -/
def intradaySeconds : List (String × ℕ) :=
  [("1minute", 60), ("1m", 60), ("2minute", 120), ("2m", 120), ("3minute", 180), ("3m", 180),
    ("5minute", 300), ("5m", 300), ("10minute", 600), ("10m", 600), ("15minute", 900),
    ("15m", 900), ("30minute", 1800), ("30m", 1800), ("60minute", 3600), ("60m", 3600),
    ("1h", 3600)]

/-- `int(e // bucket_seconds) * bucket_seconds`. -/
def bucketStart (bucketSeconds : ℕ) (e : ℚ) : ℤ := ⌊e / bucketSeconds⌋ * bucketSeconds

/-- The loop's body for a price that counts. -/
def addPriced (bucketSeconds : ℕ) (buckets : List (ℤ × Cell)) (p : IntradayPoint) :
    List (ℤ × Cell) :=
  let b := bucketStart bucketSeconds p.timestamp
  let cell : Cell := (entryAt buckets b).getD ⟨p.price, p.price, p.price, p.price, 0⟩
  assign buckets b
    { cell with
      high := max cell.high p.price
      low := min cell.low p.price
      close := p.price
      volume := cell.volume + p.volume }

/-- `if e is None or price is None or price <= 0: continue`. -/
def addPoint (bucketSeconds : ℕ) (buckets : List (ℤ × Cell)) (p : IntradayPoint) :
    List (ℤ × Cell) :=
  if p.price ≤ 0 then buckets else addPriced bucketSeconds buckets p

/-- One bar of the output. -/
def ohlcOf (b : ℤ × Cell) : Candle where
  toBar := b.2.map (roundTo 2) truncInt
  timestamp := b.1

/-- `points_to_ohlc`. -/
def pointsToOhlc (points : List IntradayPoint) (bucketSeconds : ℕ) (limit : ℤ := 400) :
    List Candle :=
  if points = [] ∨ bucketSeconds = 0 then []
  else (lastSlice limit (points.foldl (addPoint bucketSeconds) [])).map ohlcOf

/-- The points that count. -/
def priced (points : List IntradayPoint) : List IntradayPoint := points.filter fun p => 0 < p.price

section Candles

variable {bucketSeconds : ℕ} {points : List IntradayPoint} {limit : ℤ}

theorem bucketStart_mono (bucketSeconds : ℕ) : Monotone (bucketStart bucketSeconds) := by
  intro t t' h
  unfold bucketStart
  gcongr

/-- The loop passes over the points that do not count. -/
theorem foldl_addPoint (buckets : List (ℤ × Cell)) :
    points.foldl (addPoint bucketSeconds) buckets =
      (priced points).foldl (addPriced bucketSeconds) buckets := by
  unfold priced
  rw [List.foldl_filter]
  congr 1
  funext buckets p
  by_cases h : p.price ≤ 0
  · simp [addPoint, h, not_lt_of_ge h]
  · simp [addPoint, h, lt_of_not_ge h]

theorem addPriced_keys (buckets : List (ℤ × Cell)) (p : IntradayPoint) :
    (addPriced bucketSeconds buckets p).map Prod.fst =
      if bucketStart bucketSeconds p.timestamp ∈ buckets.map Prod.fst then buckets.map Prod.fst
      else buckets.map Prod.fst ++ [bucketStart bucketSeconds p.timestamp] :=
  keys_assign _ _ _

theorem buckets_ordered (h : points.Pairwise fun p q => p.timestamp ≤ q.timestamp) :
    ((priced points).map fun p => bucketStart bucketSeconds p.timestamp).Pairwise (· ≤ ·) :=
  List.pairwise_map.mpr ((h.filter _).imp fun hpq => bucketStart_mono _ hpq)

theorem lastSlice_sublist {α : Type*} (limit : ℤ) (l : List α) : (lastSlice limit l).Sublist l := by
  unfold lastSlice
  split_ifs
  · have h := (List.take_sublist limit.toNat l.reverse).reverse
    rwa [List.reverse_reverse] at h
  · exact List.drop_sublist _ _

theorem lastSlice_getLast? {α : Type*} (h : 0 < limit) (l : List α) :
    (lastSlice limit l).getLast? = l.getLast? := by
  obtain ⟨n, hn⟩ : ∃ n : ℕ, limit.toNat = n + 1 := ⟨limit.toNat - 1, by omega⟩
  unfold lastSlice
  rw [if_pos h, hn, List.getLast?_reverse, List.head?_take, if_neg (Nat.succ_ne_zero n),
    List.head?_reverse]

/-- **The candles of an ascending curve ascend strictly.** -/
theorem pointsToOhlc_sorted (h : points.Pairwise fun p q => p.timestamp ≤ q.timestamp) :
    (pointsToOhlc points bucketSeconds limit).Pairwise fun c d => c.timestamp < d.timestamp := by
  unfold pointsToOhlc
  split_ifs
  · exact List.Pairwise.nil
  · rw [foldl_addPoint]
    have hkeys : (((priced points).foldl (addPriced bucketSeconds) []).map Prod.fst).Pairwise
        (· < ·) := foldl_keys_sorted (List.map Prod.fst) addPriced_keys rfl (buckets_ordered h)
    refine List.pairwise_map.mpr (((List.pairwise_map.mp hkeys).sublist
      (lastSlice_sublist _ _)).imp fun hlt => ?_)
    exact Int.cast_lt.mpr hlt

/-- A candle begins at the bucket of a point that counts. -/
theorem pointsToOhlc_timestamp {c : Candle} (hc : c ∈ pointsToOhlc points bucketSeconds limit) :
    ∃ p ∈ points, c.timestamp = bucketStart bucketSeconds p.timestamp := by
  unfold pointsToOhlc at hc
  split_ifs at hc
  · cases hc
  · obtain ⟨b, hb, rfl⟩ := List.mem_map.mp hc
    have hb := (lastSlice_sublist _ _).subset hb
    rw [foldl_addPoint] at hb
    have hk := (mem_foldl_keys (List.map Prod.fst) addPriced_keys rfl (priced points) b.1).mp
      (List.mem_map_of_mem hb)
    obtain ⟨p, hp, e⟩ := List.mem_map.mp hk
    exact ⟨p, (List.mem_filter.mp hp).1, by simp [ohlcOf, ← e]⟩

/-- **The last candle of a curve begins at the bucket of its last point that counts.** -/
theorem pointsToOhlc_getLast? (hs : 0 < bucketSeconds) (hl : 0 < limit)
    (h : points.Pairwise fun p q => p.timestamp ≤ q.timestamp) :
    (pointsToOhlc points bucketSeconds limit).getLast?.map (·.timestamp) =
      (priced points).getLast?.map fun p => (bucketStart bucketSeconds p.timestamp : ℚ) := by
  by_cases hp : points = []
  · simp [pointsToOhlc, hp, priced]
  · have hlast : ((points.foldl (addPoint bucketSeconds) []).map Prod.fst).getLast? =
        (priced points).getLast?.map fun p => bucketStart bucketSeconds p.timestamp := by
      refine Option.ext fun k => ?_
      rw [foldl_addPoint, foldl_getLast?_keys (List.map Prod.fst) addPriced_keys rfl,
        opensLast_of_ordered (buckets_ordered h), Option.map_eq_some_iff]
    have hmap := congrArg (Option.map fun k : ℤ => (k : ℚ)) hlast
    rw [List.getLast?_map, Option.map_map, Option.map_map] at hmap
    have hgo : ¬ (points = [] ∨ bucketSeconds = 0) := by
      intro h
      rcases h with h | h
      · exact hp h
      · omega
    unfold pointsToOhlc
    rw [if_neg hgo, List.getLast?_map, lastSlice_getLast? hl, Option.map_map]
    exact hmap

end Candles

end BharatTicker
