/-
  File:      BharatTicker/IntradayBuilder/SessionVolume.lean
  Subject:   WHAT A CURVE SHOWS OF A SESSION'S VOLUME (`engine/tickertape.py`:
             `fetch_intraday_points`, `engine/intraday_builder.py`: `points_to_ohlc`). The upstream's
             counter starts anew with each session, the loop over its readings does not.

  * `readings`, `sessionReadings`, `SessionCounters` -- the readings of a curve and of a session;
  * `pointsOfSession_eq` -- the points of a session see its readings and the last one before them;
  * `sum_pointsToOhlc` -- the volume of the bars of some days;
  * `session_volume_iff`, `session_volume_carried` -- when that is the final reading of the session,
    and a session that is counted from the end of the one before.
-/
import BharatTicker.Basis.Counter
import BharatTicker.IntradayBuilder.Rollup
import BharatTicker.IstClock

namespace BharatTicker

open Basis

-- the concrete runs below compute with rationals
unseal Rat.add Rat.mul Rat.sub Rat.inv

/-! ## 1. Readings -/

/-- Time, price and cumulative volume of the points that are read, in the order of their times. -/
def readings (pts : List TtPoint) : List (ℚ × ℚ × ℚ) :=
  (pts.filterMap TtPoint.raw).insertionSort fun a b => a.1 ≤ b.1

/-- A session is a day of the exchange. -/
def sessionReadings (day : ℤ) (pts : List TtPoint) : List (ℚ × ℚ × ℚ) :=
  (readings pts).filter fun r => istDay r.1 = day

def earlierReadings (day : ℤ) (pts : List TtPoint) : List (ℚ × ℚ × ℚ) :=
  (readings pts).filter fun r => istDay r.1 < day

/-- The session's final `v`. -/
def finalVolume (day : ℤ) (pts : List TtPoint) : ℚ :=
  ((sessionReadings day pts).getLast?.map (·.2.2)).getD 0

/-- Distinct times; `v` counts shares, and does not fall within a session. -/
structure SessionCounters (pts : List TtPoint) : Prop where
  distinct : ((pts.filterMap TtPoint.raw).map Prod.fst).Nodup
  count : ∀ r ∈ pts.filterMap TtPoint.raw, ∃ n : ℕ, r.2.2 = n
  ascending : ∀ r ∈ pts.filterMap TtPoint.raw, ∀ r' ∈ pts.filterMap TtPoint.raw,
    istDay r.1 = istDay r'.1 → r.1 < r'.1 → r.2.2 ≤ r'.2.2

/-- The first reading of the session is zero, or the one before it, of an earlier session, is. -/
def OpensAtZero (day : ℤ) (pts : List TtPoint) : Prop :=
  (∀ r ∈ (sessionReadings day pts).head?, r.2.2 = 0) ∨
    ∃ r ∈ (earlierReadings day pts).getLast?, r.2.2 = 0

/-- A reading of the session whose price does not count is not above the one before it. -/
def TradesPriced (day : ℤ) (pts : List TtPoint) : Prop :=
  ∀ x ∈ withPrevious (earlierReadings day pts).getLast? (sessionReadings day pts),
    x.2.2.1 ≤ 0 → ∀ y ∈ x.1, x.2.2.2 ≤ y.2.2

/-- The points of a session. -/
def pointsOfSession (day : ℤ) (pts : List TtPoint) : List IntradayPoint :=
  (fetchIntradayPoints pts).points.filter fun p => istDay p.timestamp = day

/-- `limit` cuts off no bucket of the curve. -/
def CurveUntruncated (points : List IntradayPoint) (bucketSeconds : ℕ) (limit : ℤ) : Prop :=
  lastSlice limit (points.foldl (addPoint bucketSeconds) []) =
    points.foldl (addPoint bucketSeconds) []

/-! ## 2. The points of a session -/

theorem increment_eq_rise (prevCum : Option ℚ) (cum : ℚ) : increment prevCum cum = rise prevCum cum := by
  cases prevCum <;> rfl

/-- The point of a reading and the one before it. -/
def pointOf (x : Option (ℚ × ℚ × ℚ) × (ℚ × ℚ × ℚ)) : IntradayPoint :=
  ⟨x.2.1, x.2.2.1, truncInt (rise (x.1.map (·.2.2)) x.2.2.2)⟩

theorem perInterval_eq (prev : Option (ℚ × ℚ × ℚ)) (raw : List (ℚ × ℚ × ℚ)) :
    perInterval (prev.map (·.2.2)) raw = (withPrevious prev raw).map pointOf := by
  induction raw generalizing prev with
  | nil => rfl
  | cons r raw ih =>
    obtain ⟨dt, price, cum⟩ := r
    rw [perInterval, withPrevious, List.map_cons, ← ih (some (dt, price, cum)), increment_eq_rise]
    rfl

section Session

variable {pts : List TtPoint}

theorem readings_ascending (pts : List TtPoint) :
    (readings pts).Pairwise fun a b => a.1 ≤ b.1 := insertionSort_key Prod.fst _

theorem mem_readings {r : ℚ × ℚ × ℚ} : r ∈ readings pts ↔ r ∈ pts.filterMap TtPoint.raw :=
  (List.perm_insertionSort _ _).mem_iff

/-- **The points of a session** see its readings and the last one before them. -/
theorem pointsOfSession_eq (day : ℤ) (pts : List TtPoint) :
    pointsOfSession day pts =
      (withPrevious (earlierReadings day pts).getLast? (sessionReadings day pts)).map pointOf := by
  have hkeys : (readings pts).Pairwise fun a b => istDay a.1 ≤ istDay b.1 :=
    (readings_ascending pts).imp fun h => istDay_mono h
  have hsession := filter_withPrevious_key hkeys day
  have hcurve : (fetchIntradayPoints pts).points = (withPrevious none (readings pts)).map pointOf :=
    perInterval_eq none (readings pts)
  unfold pointsOfSession earlierReadings sessionReadings
  rw [hcurve, List.filter_map, ← hsession]
  rfl

theorem SessionCounters.session_ascending (h : SessionCounters pts) (day : ℤ) :
    ((sessionReadings day pts).map (·.2.2)).Pairwise (· ≤ ·) := by
  have hnodup : ((readings pts).map Prod.fst).Nodup :=
    ((List.perm_insertionSort _ _).map Prod.fst).nodup_iff.mpr h.distinct
  have hlt : (readings pts).Pairwise fun a b => a.1 < b.1 := by
    refine ((readings_ascending pts).and (List.pairwise_map.mp hnodup)).imp fun hab => ?_
    exact lt_of_le_of_ne hab.1 hab.2
  refine List.pairwise_map.mpr ((hlt.filter _).imp_of_mem fun {a b} ha hb hab => ?_)
  obtain ⟨ha, hday⟩ := List.mem_filter.mp ha
  obtain ⟨hb, hday'⟩ := List.mem_filter.mp hb
  exact h.ascending a (mem_readings.1 ha) b (mem_readings.1 hb)
    ((of_decide_eq_true hday).trans (of_decide_eq_true hday').symm) hab

/-- The increase of a reading over another one is an integer. -/
theorem pointOf_volume {x : Option (ℚ × ℚ × ℚ) × (ℚ × ℚ × ℚ)} (hx : ∃ n : ℕ, x.2.2.2 = n)
    (hprev : ∀ y ∈ x.1, ∃ n : ℕ, y.2.2 = n) :
    ((pointOf x).volume : ℚ) = rise (x.1.map (·.2.2)) x.2.2.2 := by
  obtain ⟨n, hn⟩ := hx
  have hint : ∃ k : ℤ, rise (x.1.map (·.2.2)) x.2.2.2 = k := by
    cases hy : x.1 with
    | none => exact ⟨0, Int.cast_zero.symm⟩
    | some y =>
      obtain ⟨m, hm⟩ := hprev y hy
      rw [Option.map_some, hm, hn]
      rcases le_or_gt (m : ℚ) n with h | h
      · exact ⟨n - m, by rw [rise_of_le h]; push_cast; rfl⟩
      · exact ⟨0, by rw [rise_of_lt h, Int.cast_zero]⟩
  obtain ⟨k, hk⟩ := hint
  unfold pointOf
  rw [hk, truncInt_intCast]

section Counters

variable (h : SessionCounters pts) (day : ℤ)

include h

/-- Readings are counts, and so is the one before them. -/
theorem SessionCounters.count_session {r : ℚ × ℚ × ℚ} (hr : r ∈ sessionReadings day pts) :
    ∃ n : ℕ, r.2.2 = n := h.count r (mem_readings.1 (List.mem_filter.mp hr).1)

theorem SessionCounters.count_earlier {r : ℚ × ℚ × ℚ}
    (hr : r ∈ (earlierReadings day pts).getLast?) : ∃ n : ℕ, r.2.2 = n :=
  h.count r (mem_readings.1 (List.mem_filter.mp (List.mem_of_getLast? hr)).1)

/-- The volume of a point of the session. -/
theorem SessionCounters.pointOf_volume {x : Option (ℚ × ℚ × ℚ) × (ℚ × ℚ × ℚ)}
    (hx : x ∈ withPrevious (earlierReadings day pts).getLast? (sessionReadings day pts)) :
    ((pointOf x).volume : ℚ) = rise (x.1.map (·.2.2)) x.2.2.2 := by
  refine BharatTicker.pointOf_volume (h.count_session day ?_) fun y hy => ?_
  · rw [← withPrevious_snd (earlierReadings day pts).getLast? (sessionReadings day pts)]
    exact List.mem_map_of_mem hx
  · rcases withPrevious_fst hx with e | hex
    · exact h.count_earlier day (e ▸ hy)
    · obtain ⟨z, hz, e⟩ := hex
      rw [e] at hy
      exact h.count_session day (Option.some.inj hy ▸ hz)

theorem SessionCounters.sum_pointsOfSession :
    ((((pointsOfSession day pts).map (·.volume)).sum : ℤ) : ℚ) =
      (rises ((earlierReadings day pts).getLast?.map (·.2.2))
        ((sessionReadings day pts).map (·.2.2))).sum := by
  rw [pointsOfSession_eq, rises_eq_map, Int.cast_list_sum, List.map_map, List.map_map]
  exact congrArg List.sum (List.map_congr_left fun x hx => h.pointOf_volume day hx)

/-- What is missing of the final reading is what the first one adds too little. -/
theorem SessionCounters.sum_cons {r : ℚ × ℚ × ℚ} {rs : List (ℚ × ℚ × ℚ)}
    (hsession : sessionReadings day pts = r :: rs) :
    ((((pointsOfSession day pts).map (·.volume)).sum : ℤ) : ℚ) =
      rise ((earlierReadings day pts).getLast?.map (·.2.2)) r.2.2 +
        (finalVolume day pts - r.2.2) := by
  have hsum := h.sum_pointsOfSession day
  have hasc := h.session_ascending day
  rw [hsession, List.map_cons] at hsum hasc
  have hfinal : lastMinusFirst (r.2.2 :: rs.map (·.2.2)) = finalVolume day pts - r.2.2 := by
    unfold finalVolume lastMinusFirst
    rw [hsession, ← List.map_cons (f := fun r : ℚ × ℚ × ℚ => r.2.2), List.getLast?_map]
    rfl
  rw [hsum, sum_rises_ascending _ hasc, hfinal]

theorem SessionCounters.earlier_nonneg :
    ∀ c ∈ (earlierReadings day pts).getLast?.map (·.2.2), 0 ≤ c := by
  intro c hc
  obtain ⟨r, hr, rfl⟩ := Option.map_eq_some_iff.mp hc
  obtain ⟨n, hn⟩ := h.count_earlier day hr
  rw [hn]
  exact n.cast_nonneg

omit h in
theorem sum_nil (hsession : sessionReadings day pts = []) :
    ((((pointsOfSession day pts).map (·.volume)).sum : ℤ) : ℚ) = finalVolume day pts := by
  rw [pointsOfSession_eq, finalVolume, hsession]
  rfl

theorem SessionCounters.sum_le :
    ((((pointsOfSession day pts).map (·.volume)).sum : ℤ) : ℚ) ≤ finalVolume day pts := by
  cases hsession : sessionReadings day pts with
  | nil => exact (sum_nil day hsession).le
  | cons r rs =>
    obtain ⟨n, hn⟩ := h.count_session day (r := r) (by rw [hsession]; exact List.mem_cons_self)
    have hrise := rise_le_self (h.earlier_nonneg day) (hn ▸ n.cast_nonneg : 0 ≤ r.2.2)
    rw [h.sum_cons day hsession]
    linarith

/-- **The points of a session** add up to its final reading exactly when it opens at zero. -/
theorem SessionCounters.sum_eq_iff :
    ((((pointsOfSession day pts).map (·.volume)).sum : ℤ) : ℚ) = finalVolume day pts ↔
      OpensAtZero day pts := by
  unfold OpensAtZero
  cases hsession : sessionReadings day pts with
  | nil => exact iff_of_true (sum_nil day hsession) (.inl fun r hr => by cases hr)
  | cons r rs =>
    obtain ⟨n, hn⟩ := h.count_session day (r := r) (by rw [hsession]; exact List.mem_cons_self)
    have hself := rise_eq_self_iff (h.earlier_nonneg day) (hn ▸ n.cast_nonneg : 0 ≤ r.2.2)
    have hsum : rise ((earlierReadings day pts).getLast?.map (·.2.2)) r.2.2 +
        (finalVolume day pts - r.2.2) = finalVolume day pts ↔
          rise ((earlierReadings day pts).getLast?.map (·.2.2)) r.2.2 = r.2.2 := by
      constructor <;> intro e <;> linarith
    rw [h.sum_cons day hsession, hsum, hself]
    simp

/-- A session's points that do not count are of no volume exactly when its trades are priced. -/
theorem SessionCounters.tradesPriced_iff :
    TradesPriced day pts ↔ ∀ p ∈ pointsOfSession day pts, p.price ≤ 0 → p.volume = 0 := by
  rw [pointsOfSession_eq, List.forall_mem_map]
  refine forall₂_congr fun x hx => imp_congr_right fun _ => ?_
  rw [← Int.cast_eq_zero (α := ℚ), h.pointOf_volume day hx, rise_eq_zero_iff]
  constructor
  · intro hall c hc
    obtain ⟨y, hy, rfl⟩ := Option.map_eq_some_iff.mp hc
    exact hall y hy
  · exact fun hall y hy => hall y.2.2 (Option.map_eq_some_iff.mpr ⟨y, hy, rfl⟩)

end Counters

end Session

/-! ## 3. The bars of a session -/

section Bars

variable {points : List IntradayPoint} {bucketSeconds : ℕ} {limit : ℤ}

/-- **The volume of some of the bars**, chosen by their stamps, is that of the points in them that
    count. -/
theorem sum_pointsToOhlc (ha : points.Pairwise fun p q => p.timestamp ≤ q.timestamp)
    (hs : 0 < bucketSeconds) (hl : CurveUntruncated points bucketSeconds limit) (p : ℚ → Bool) :
    (((pointsToOhlc points bucketSeconds limit).filter fun c => p c.timestamp).map
        (·.volume)).sum =
      (((priced points).filter fun q => p (bucketStart bucketSeconds q.timestamp)).map
        (·.volume)).sum := by
  have hpriced : (priced points).Pairwise fun p q => p.timestamp ≤ q.timestamp := ha.filter _
  have hcandles : pointsToOhlc points bucketSeconds limit =
      (ohlcBars bucketSeconds (priced points)).map fun e => ohlcOf (Prod.map id cellOf e) := by
    by_cases hnil : points = []
    · subst hnil
      rfl
    · unfold pointsToOhlc
      rw [if_neg (not_or.mpr ⟨hnil, hs.ne'⟩), hl, foldl_addPoint, foldl_addPriced hpriced,
        List.map_map]
      rfl
  have hsum := sum_aggregate (φ := fun b : RowBar => b.volume) (fun _ _ => rfl)
    (fun b : ℤ => p b) ((priced points).map fun q => (bucketStart bucketSeconds q.timestamp, q.bar))
  rw [hcandles, List.filter_map, List.map_map]
  rw [List.filter_map, List.map_map] at hsum
  refine Eq.trans (congrArg List.sum (List.map_congr_left fun e _ => ?_)) hsum
  exact truncInt_intCast _

/-- Points that do not count take nothing away exactly where they are of no volume. -/
theorem sum_priced_eq_iff {total : ℚ} (hnonneg : ∀ p ∈ points, 0 ≤ p.volume)
    (hle : (((points.map (·.volume)).sum : ℤ) : ℚ) ≤ total) :
    ((((priced points).map (·.volume)).sum : ℤ) : ℚ) = total ↔
      (((points.map (·.volume)).sum : ℤ) : ℚ) = total ∧
        ∀ p ∈ points, p.price ≤ 0 → p.volume = 0 := by
  let others := points.filter fun p => ¬ 0 < p.price
  have hsplit : ((priced points).map (·.volume)).sum + (others.map (·.volume)).sum =
      (points.map (·.volume)).sum :=
    List.sum_map_filter_add_sum_map_filter_not (fun p => 0 < p.price) (·.volume) points
  have hothers : ∀ v ∈ others.map (·.volume), 0 ≤ v := by
    intro v hv
    obtain ⟨p, hp, rfl⟩ := List.mem_map.mp hv
    exact hnonneg p (List.mem_filter.mp hp).1
  have hsum : 0 ≤ (others.map (·.volume)).sum := List.sum_nonneg hothers
  rw [← hsplit, Int.cast_add] at hle ⊢
  have hsum' : (0 : ℚ) ≤ ((others.map (·.volume)).sum : ℤ) := by exact_mod_cast hsum
  constructor
  · intro e
    have hzero : (others.map (·.volume)).sum = 0 := by
      have hle0 : (((others.map (·.volume)).sum : ℤ) : ℚ) ≤ 0 := by linarith
      exact le_antisymm (by exact_mod_cast hle0) hsum
    refine ⟨by rw [hzero, e, Int.cast_zero, add_zero], fun p hp hprice => ?_⟩
    refine List.all_zero_of_le_zero_le_of_sum_eq_zero hothers hzero (List.mem_map_of_mem ?_)
    exact List.mem_filter.mpr ⟨hp, decide_eq_true (not_lt.mpr hprice)⟩
  · intro hex
    obtain ⟨e, hall⟩ := hex
    have hzero : (others.map (·.volume)).sum = 0 := by
      refine List.sum_eq_zero fun v hv => ?_
      obtain ⟨p, hp, rfl⟩ := List.mem_map.mp hv
      obtain ⟨hp, hprice⟩ := List.mem_filter.mp hp
      exact hall p hp (not_lt.mp (of_decide_eq_true hprice))
    rwa [hzero, Int.cast_zero, add_zero] at e

/-- A bar that is no wider than the time since midnight is dated on the day of its points. -/
theorem istDay_bucketStart_of_le {t : ℚ} (hs : 0 < bucketSeconds) (h : (bucketSeconds : ℚ) ≤ istTime t) :
    istDay (bucketStart bucketSeconds t : ℚ) = istDay t := by
  obtain ⟨-, hlt⟩ := (istDay_eq_iff (t := t)).mp rfl
  have hs0 : (0 : ℚ) < bucketSeconds := by exact_mod_cast hs
  have hle : (bucketStart bucketSeconds t : ℚ) ≤ t := by
    unfold bucketStart
    push_cast
    exact (le_div_iff₀ hs0).mp (Int.floor_le _)
  have hgt : t < (bucketStart bucketSeconds t : ℚ) + bucketSeconds := by
    have hfloor := (div_lt_iff₀ hs0).mp (Int.lt_floor_add_one (t / bucketSeconds))
    unfold bucketStart
    push_cast
    linarith
  unfold istTime at h
  exact istDay_eq_iff.2 ⟨by linarith, by linarith⟩

end Bars

/-- **The volume of a session.** The increments of its points add up to its final reading exactly when
    it opens at zero; so do its bars, whether they are made of its own points or of the whole curve,
    if besides its trades are priced. -/
theorem session_volume_iff {pts : List TtPoint} (h : SessionCounters pts) (day : ℤ) :
    ((((pointsOfSession day pts).map (·.volume)).sum : ℤ) = finalVolume day pts ↔
      OpensAtZero day pts) ∧
    ∀ {bucketSeconds : ℕ}, 0 < bucketSeconds → ∀ {limit : ℤ},
      (CurveUntruncated (pointsOfSession day pts) bucketSeconds limit →
        ((((pointsToOhlc (pointsOfSession day pts) bucketSeconds limit).map (·.volume)).sum : ℤ) =
          finalVolume day pts ↔ OpensAtZero day pts ∧ TradesPriced day pts)) ∧
      (CurveUntruncated (fetchIntradayPoints pts).points bucketSeconds limit →
        (∀ p ∈ (fetchIntradayPoints pts).points,
          istDay (bucketStart bucketSeconds p.timestamp : ℚ) = istDay p.timestamp) →
        (((((pointsToOhlc (fetchIntradayPoints pts).points bucketSeconds limit).filter fun c =>
            istDay c.timestamp = day).map (·.volume)).sum : ℤ) =
          finalVolume day pts ↔ OpensAtZero day pts ∧ TradesPriced day pts)) := by
  have hnonneg : ∀ p ∈ pointsOfSession day pts, 0 ≤ p.volume := by
    rw [pointsOfSession_eq, List.forall_mem_map]
    intro x hx
    have hrise := rise_nonneg (x.1.map (·.2.2)) x.2.2.2
    rw [← h.pointOf_volume day hx] at hrise
    exact_mod_cast hrise
  have hpriced := sum_priced_eq_iff hnonneg (h.sum_le day)
  rw [h.sum_eq_iff day, ← h.tradesPriced_iff day] at hpriced
  refine ⟨h.sum_eq_iff day, fun {bucketSeconds} hs {limit} => ⟨fun hl => ?_, fun hl hdated => ?_⟩⟩
  · have hasc : (pointsOfSession day pts).Pairwise fun p q => p.timestamp ≤ q.timestamp :=
      (fetchIntradayPoints pts).ascending.filter _
    have hbars := sum_pointsToOhlc hasc hs hl fun _ => true
    rw [List.filter_true, List.filter_true] at hbars
    rw [← hpriced, ← hbars]
  · have hbars := sum_pointsToOhlc (fetchIntradayPoints pts).ascending hs hl
      fun t => decide (istDay t = day)
    have hsession : ((priced (fetchIntradayPoints pts).points).filter fun p =>
        decide (istDay (bucketStart bucketSeconds p.timestamp : ℚ) = day)) =
          priced (pointsOfSession day pts) := by
      unfold priced pointsOfSession
      rw [List.filter_comm]
      refine congrArg (List.filter _) (List.filter_congr fun p hp => ?_)
      rw [hdated p hp]
    rw [hsession] at hbars
    rw [← hpriced, ← hbars]

/-- A reading so many minutes after 09:00 of a day. -/
def readingAt (day : ℤ) (minutes : ℚ) (lp v : ℚ) : TtPoint :=
  ⟨some lp, some (dayStart day + preOpenStart + minutes * 60), some v⟩

/-- A session that is read from its opening on. -/
def openedPoints : List TtPoint :=
  [readingAt 20459 16 102 1000, readingAt 20459 0 100 0, readingAt 20458 389 99 300,
    readingAt 20459 15 101 500]

/-- A session that opens above the end of the one before. -/
def carriedPoints : List TtPoint :=
  [readingAt 20459 16 102 1000, readingAt 20458 389 99 300, readingAt 20459 15 101 500]

/-- Readings that are counts, as it is decided. -/
theorem SessionCounters.of_floor {pts : List TtPoint}
    (hdistinct : ((pts.filterMap TtPoint.raw).map Prod.fst).Nodup)
    (hcount : ∀ r ∈ pts.filterMap TtPoint.raw, r.2.2 = (⌊r.2.2⌋.toNat : ℕ))
    (hascending : ∀ r ∈ pts.filterMap TtPoint.raw, ∀ r' ∈ pts.filterMap TtPoint.raw,
      istDay r.1 = istDay r'.1 → r.1 < r'.1 → r.2.2 ≤ r'.2.2) : SessionCounters pts :=
  ⟨hdistinct, fun r hr => ⟨_, hcount r hr⟩, hascending⟩

theorem session_volume_opened :
    ((((pointsOfSession 20459 openedPoints).map (·.volume)).sum : ℤ) : ℚ) = 1000 ∧
      (((((pointsToOhlc (fetchIntradayPoints openedPoints).points 3600).filter fun c =>
        istDay c.timestamp = 20459).map (·.volume)).sum : ℤ) : ℚ) = 1000 := by
  have hcounters : SessionCounters openedPoints :=
    .of_floor (by decide) (by decide) (by decide)
  obtain ⟨hpoints, hbars⟩ := session_volume_iff hcounters 20459
  have hfinal : finalVolume 20459 openedPoints = 1000 := by decide
  have hopens : OpensAtZero 20459 openedPoints := .inl (by decide)
  have hpriced : TradesPriced 20459 openedPoints := by
    unfold TradesPriced
    decide
  have hwidth : ∀ p ∈ (fetchIntradayPoints openedPoints).points,
      ((3600 : ℕ) : ℚ) ≤ istTime p.timestamp := by decide
  rw [← hfinal]
  refine ⟨hpoints.mpr hopens, ((hbars (show 0 < 3600 by decide)).2 ?_ ?_).mpr ⟨hopens, hpriced⟩⟩
  · unfold CurveUntruncated
    decide
  · exact fun p hp => istDay_bucketStart_of_le (by decide) (hwidth p hp)

/-- The session is counted from the end of the one before. -/
theorem session_volume_carried :
    SessionCounters carriedPoints ∧
      (sessionReadings 20459 carriedPoints).map (·.2.2) = [500, 1000] ∧
      finalVolume 20459 carriedPoints = 1000 ∧
      (pointsOfSession 20459 carriedPoints).map (·.volume) = [200, 500] ∧
      ((pointsToOhlc (fetchIntradayPoints carriedPoints).points 60).filter fun c =>
        istDay c.timestamp = 20459).map (·.volume) = [200, 500] :=
  ⟨.of_floor (by decide) (by decide) (by decide), by decide⟩

end BharatTicker
