/-
  File:      BharatTicker/LiveCandles/Counters.lean
  Subject:   WHAT THE BARS SHOW OF A DAY'S VOLUME. The counter of a feed is that of a day, the ring goes
             on over midnight, and a sample without a reading stands as zero.

  * `dayReadings`, `OpensBelow` -- the readings of a day, and how a day may begin;
  * `datedVolume_eq` -- the bars of a day show its own increases and the one over the day before;
  * `day_volume_iff`, `day_volume_carried` -- when that is the volume of the day, and a night that
    is counted;
  * `gap_volume_iff`, `gap_volume_fabricated` -- the same for missing readings.
-/
import BharatTicker.LiveCandles.Finished
import BharatTicker.SbIntraday

namespace BharatTicker

open Basis LiveCandleEngine

-- the concrete runs below compute with rationals
unseal Rat.add Rat.mul Rat.sub Rat.inv

/-! ## 1. The volume of bars -/

section Volume

variable {seconds : ℚ} {samples : List Sample}

/-- Integer volumes are not cut. -/
theorem sum_truncInt (hs : 0 < seconds) (ho : TimeOrdered samples) (hv : IntegerVolumes samples)
    (p : ℤ × Cell → Bool) :
    ((((referenceBars seconds samples).filter p).map fun e => truncInt e.2.volume).sum : ℚ) =
      (((referenceBars seconds samples).filter p).map fun e => e.2.volume).sum := by
  rw [← bars_eq_reference hs ho, Int.cast_list_sum, List.map_map]
  refine congrArg List.sum (List.map_congr_left fun e he => ?_)
  have hmem := (List.mem_filter.mp he).1
  rw [bars_int hv] at hmem
  obtain ⟨f, -, rfl⟩ := List.mem_map.mp hmem
  simp [Bar.map]

/-- The candles whose stamps meet a condition, and their volume. -/
theorem sum_candle_volumes {eng : LiveCandleEngine} {symbol exchange : String} {limit : ℤ}
    (hs : 0 < seconds) (ho : TimeOrdered (eng.samples (engineKey symbol exchange)))
    (hv : IntegerVolumes (eng.samples (engineKey symbol exchange)))
    (hlimit : (referenceBars seconds (eng.samples (engineKey symbol exchange))).length ≤
      limit.toNat) (p : Candle → Bool) :
    ((((eng.build symbol exchange seconds limit).filter p).map (·.volume)).sum : ℤ) =
      (((referenceBars seconds (eng.samples (engineKey symbol exchange))).filter
        fun e => p (candleOf seconds e)).map fun e => e.2.volume).sum := by
  rw [build_eq_reference hs ho hlimit, List.filter_map, List.map_map,
    ← sum_truncInt hs ho hv]
  rfl

end Volume

/-! ## 2. Days -/

/-- The readings of a day. -/
def dayReadings (day : ℤ) (ring : List Sample) : List ℚ :=
  (ring.filter fun x => istDay x.ts = day).map (·.cum)

/-- The counter does not fall within a day. -/
def DailyCounter (ring : List Sample) : Prop :=
  ring.Pairwise fun x y => istDay x.ts = istDay y.ts → x.cum ≤ y.cum

/-- The first reading of the day is not above the one before it, which is of another day. -/
def OpensBelow (day : ℤ) (ring : List Sample) : Prop :=
  ∀ e ∈ withPrevious none ring, istDay e.2.ts = day → ∀ y ∈ e.1, istDay y.ts ≠ day →
    e.2.cum ≤ y.cum

/-- The un-truncated volume of the bars that are dated on a day. -/
def datedVolume (seconds : ℚ) (day : ℤ) (ring : List Sample) : ℚ :=
  (((referenceBars seconds ring).filter fun e =>
    istDay (candleOf seconds e).timestamp = day).map fun e => e.2.volume).sum

section Day

variable {seconds : ℚ} {day : ℤ} {ring : List Sample}

/-- The samples of a day see each other and the last one before them. -/
theorem daySamples_withPrevious (ho : TimeOrdered ring) (day : ℤ) :
    ((withPrevious none ring).filter fun x => istDay x.2.ts = day) =
      withPrevious (ring.filter fun x => istDay x.ts < day).getLast?
        (ring.filter fun x => istDay x.ts = day) := by
  have hkeys : ring.Pairwise fun x y => istDay x.ts ≤ istDay y.ts := ho.imp fun h => istDay_mono h
  exact filter_withPrevious_key hkeys day

/-- **The bars of a day show the increases of its samples**, the first of which may be over a sample
    of the day before. -/
theorem datedVolume_eq (ho : TimeOrdered ring) {name : String}
    (hname : secondsIntervals.lookup name = some seconds) (day : ℤ) :
    datedVolume seconds day ring =
      ((withPrevious (ring.filter fun x => istDay x.ts < day).getLast?
        (ring.filter fun x => istDay x.ts = day)).map increase).sum := by
  have hs := (istDay_isoInstant hname 0).1
  have hsum := @sum_volume_bars seconds ring
    fun idx => decide (istDay (isoInstant (decide (seconds < 1)) (idx * seconds)) = day)
  unfold datedVolume
  rw [← bars_eq_reference hs ho]
  refine hsum.trans ?_
  simp only [(istDay_isoInstant hname _).2]
  rw [daySamples_withPrevious ho]

/-- How the day opens. -/
theorem opensBelow_iff (ho : TimeOrdered ring) {x : Sample} {xs : List Sample}
    (hown : (ring.filter fun x => istDay x.ts = day) = x :: xs) :
    OpensBelow day ring ↔
      ∀ c ∈ (ring.filter fun x => istDay x.ts < day).getLast?.map (·.cum), x.cum ≤ c := by
  have hmem : ∀ e : Option Sample × Sample,
      e ∈ withPrevious (ring.filter fun x => istDay x.ts < day).getLast? (x :: xs) ↔
        e ∈ withPrevious none ring ∧ istDay e.2.ts = day := by
    intro e
    rw [← hown, ← daySamples_withPrevious ho, List.mem_filter, decide_eq_true_iff]
  have hday : ∀ z ∈ x :: xs, istDay z.ts = day := fun z hz => by
    rw [← hown] at hz
    exact of_decide_eq_true (List.mem_filter.mp hz).2
  constructor
  · intro hopens c hc
    obtain ⟨y, hy, rfl⟩ := Option.map_eq_some_iff.mp hc
    obtain ⟨hfirst, hdate⟩ := (hmem (_, x)).mp List.mem_cons_self
    have hbefore : istDay y.ts < day :=
      of_decide_eq_true (List.mem_filter.mp (List.mem_of_getLast? hy)).2
    exact hopens _ hfirst hdate y hy hbefore.ne
  · intro hfirst e he hdate y hy hne
    rcases List.mem_cons.mp ((hmem e).mpr ⟨he, hdate⟩) with rfl | hrest
    · exact hfirst y.cum (Option.map_eq_some_iff.mpr ⟨y, hy, rfl⟩)
    · -- the others have a sample of the day before them
      have hprev : ∃ z ∈ x :: xs, e.1 = some z := by
        rcases withPrevious_fst hrest with hx | ⟨z, hz, hez⟩
        · exact ⟨x, List.mem_cons_self, hx⟩
        · exact ⟨z, List.mem_cons_of_mem x hz, hez⟩
      obtain ⟨z, hz, hez⟩ := hprev
      rw [hez] at hy
      exact absurd (Option.some.inj hy ▸ hday z hz) hne

theorem DailyCounter.ascending (h : DailyCounter ring) (day : ℤ) :
    (dayReadings day ring).Pairwise (· ≤ ·) := by
  refine List.pairwise_map.mpr (List.Pairwise.imp_of_mem ?_ (h.sublist List.filter_sublist))
  intro x y hx hy hxy
  have hx := of_decide_eq_true (List.mem_filter.mp hx).2
  have hy := of_decide_eq_true (List.mem_filter.mp hy).2
  exact hxy (hx.trans hy.symm)

/-- **The volume of a day's bars** is that of the day exactly when the day does not open above the
    reading before it. -/
theorem datedVolume_iff (ho : TimeOrdered ring) (hsource : SingleSource ring)
    (hcounter : DailyCounter ring) {name : String}
    (hname : secondsIntervals.lookup name = some seconds) (day : ℤ) :
    datedVolume seconds day ring = lastMinusFirst (dayReadings day ring) ↔ OpensBelow day ring := by
  have hsub : ∀ x ∈ ring.filter fun x => istDay x.ts = day, x ∈ ring :=
    fun x hx => (List.mem_filter.mp hx).1
  have hprev : ∀ y ∈ (ring.filter fun x => istDay x.ts < day).getLast?, y ∈ ring :=
    fun y hy => (List.mem_filter.mp (List.mem_of_getLast? hy)).1
  have hasc := hcounter.ascending day
  rw [datedVolume_eq ho hname, increases_singleSource
    (fun x hx y hy => hsource x (hsub x hx) y (hprev y hy))
    (fun x hx y hy => hsource x (hsub x hx) y (hsub y hy))]
  unfold dayReadings at hasc ⊢
  cases hown : ring.filter fun x => istDay x.ts = day with
  | nil =>
    refine iff_of_true (by simp [rises, lastMinusFirst]) fun e he hdate => ?_
    -- no sample is of the day
    have hmem : e ∈ (withPrevious none ring).filter fun x => istDay x.2.ts = day :=
      List.mem_filter.mpr ⟨he, decide_eq_true hdate⟩
    rw [daySamples_withPrevious ho, hown] at hmem
    cases hmem
  | cons x xs =>
    rw [hown, List.map_cons] at hasc
    rw [List.map_cons, sum_rises_ascending _ hasc, add_eq_right, rise_eq_zero_iff,
      opensBelow_iff ho hown]

/-- **The volume of a day.** Of a ring of one source in the order of its times, whose counter does not
    fall within a day, at each width below the minute: the bars that are dated on a day show its last
    reading minus its first exactly when its first reading is not above the one before it. Integer
    readings are shown as they are. -/
theorem day_volume_iff (eng : LiveCandleEngine) (symbol exchange : String) {name : String}
    {seconds : ℚ} (hname : secondsIntervals.lookup name = some seconds) {limit : ℤ}
    (ho : TimeOrdered (eng.samples (engineKey symbol exchange)))
    (hsource : SingleSource (eng.samples (engineKey symbol exchange)))
    (hcounter : DailyCounter (eng.samples (engineKey symbol exchange)))
    (hlimit : (referenceBars seconds (eng.samples (engineKey symbol exchange))).length ≤
      limit.toNat) (day : ℤ) :
    let ring := eng.samples (engineKey symbol exchange)
    (datedVolume seconds day ring = lastMinusFirst (dayReadings day ring) ↔
      OpensBelow day ring) ∧
    (IntegerVolumes ring →
      (((((eng.build symbol exchange seconds limit).filter fun c =>
          istDay c.timestamp = day).map (·.volume)).sum : ℤ) =
        lastMinusFirst (dayReadings day ring) ↔ OpensBelow day ring)) := by
  intro ring
  have hiff := datedVolume_iff ho hsource hcounter hname day
  refine ⟨hiff, fun hv => ?_⟩
  rw [sum_candle_volumes (istDay_isoInstant hname 0).1 ho hv hlimit]
  exact hiff

end Day

/-- A sample of a feed on one key. -/
def tapeCall (t : ℚ) (volume : Option ℚ) : RecordCall :=
  ⟨"RELIANCE", "NSE", some 100, volume, some t, some "groww", 0⟩

/-- The end of a Monday and the beginning of a Tuesday. -/
def overnightCalls (opening : ℚ) : List RecordCall :=
  [tapeCall (monday 15 28) (some 1000), tapeCall (monday 15 29) (some 1200),
    tapeCall (monday 33 15) (some opening), tapeCall (monday 33 16) (some (opening + 100))]

/-- Tuesday opens with fewer shares than Monday ended with. -/
theorem day_volume_low :
    let eng := recordAll {} (overnightCalls 50) {}
    (((((eng.build "RELIANCE" "NSE" 1).filter fun c =>
      istDay c.timestamp = 20459).map (·.volume)).sum : ℤ) : ℚ) = 100 := by
  intro eng
  have hkey : engineKey "RELIANCE" "NSE" = "NSE:RELIANCE" := by decide
  have h := @day_volume_iff eng "RELIANCE" "NSE" "1s" 1 rfl 300
  rw [hkey] at h
  obtain ⟨-, hint⟩ := h (by unfold TimeOrdered; decide)
    (by unfold SingleSource; decide) (by unfold DailyCounter; decide)
    (by decide) 20459
  have hv : IntegerVolumes (eng.samples "NSE:RELIANCE") := by
    intro x hx
    exact ⟨⌊x.cum⌋, by revert x; decide⟩
  refine ((hint hv).mpr (by unfold OpensBelow; decide)).trans (by decide)

/-- Tuesday opens with more: the night is counted, and lies in one bar. -/
theorem day_volume_carried :
    let eng := recordAll {} (overnightCalls 1500) {}
    let ring := eng.samples "NSE:RELIANCE"
    TimeOrdered ring ∧ SingleSource ring ∧ DailyCounter ring ∧
      ((eng.build "RELIANCE" "NSE" 1).filter fun c => istDay c.timestamp = 20459).map (·.volume) =
        [300, 100] ∧
      lastMinusFirst (dayReadings 20459 ring) = 100 := by
  unfold TimeOrdered SingleSource DailyCounter
  decide

/-! ## 3. Missing readings -/

/-- The call has no volume: `None` or 0. -/
def RecordCall.Missing (c : RecordCall) : Prop := c.cumVolume.getD 0 = 0

/-- The volumes of the calls that carry one. -/
def carriedVolumes (calls : List RecordCall) : List ℚ :=
  calls.filterMap fun c => c.cumVolume.filter fun v => v ≠ 0

section Gaps

variable {cfg : LiveSettings} {key : String} {source : Option String} {calls : List RecordCall}

/-- What the ring holds of the volumes, and the readings among it. -/
theorem carrying_samples (calls : List RecordCall) :
    carrying ((calls.map RecordCall.sample).map (·.cum)) = carriedVolumes calls := by
  unfold carrying carriedVolumes
  induction calls with
  | nil => rfl
  | cons c calls ih =>
    rw [List.map_cons, List.map_cons, List.filter_cons, List.filterMap_cons, ih]
    cases hv : c.cumVolume with
    | none => simp [RecordCall.sample, hv]
    | some v => by_cases h0 : v = 0 <;> simp [RecordCall.sample, hv, h0, Option.filter]

/-- Where the volumes are not below zero and do not fall, the increases of the
    stream are those of the volumes exactly when the missing ones come last. -/
theorem sum_rises_samples_iff (hnonneg : ∀ c ∈ calls, ∀ v ∈ c.cumVolume, 0 ≤ v)
    (hmono : (carriedVolumes calls).Pairwise (· ≤ ·)) :
    (rises none ((calls.map RecordCall.sample).map (·.cum))).sum =
        lastMinusFirst (carriedVolumes calls) ↔
      calls.Pairwise fun c d => c.Missing → d.Missing := by
  have hpos : ∀ v ∈ (calls.map RecordCall.sample).map (·.cum), 0 ≤ v := by
    intro v hv
    obtain ⟨x, hx, rfl⟩ := List.mem_map.mp hv
    obtain ⟨c, hc, rfl⟩ := List.mem_map.mp hx
    show 0 ≤ c.cumVolume.getD 0
    cases hcum : c.cumVolume with
    | none => exact le_refl 0
    | some v => exact hnonneg c hc v hcum
  have hgaps : ((calls.map RecordCall.sample).map (·.cum)).Pairwise (fun x y => x = 0 → y = 0) ↔
      calls.Pairwise fun c d => c.Missing → d.Missing := by
    rw [List.map_map, List.pairwise_map]
    rfl
  rw [← carrying_samples] at hmono ⊢
  rw [sum_rises_gaps_iff hpos hmono, hgaps]

theorem integerVolumes_samples (hint : ∀ c ∈ calls, ∀ v ∈ c.cumVolume, ∃ n : ℤ, v = n) :
    IntegerVolumes (calls.map RecordCall.sample) := by
  intro x hx
  obtain ⟨c, hc, rfl⟩ := List.mem_map.mp hx
  show ∃ n : ℤ, c.cumVolume.getD 0 = n
  cases hcum : c.cumVolume with
  | none => exact ⟨0, by simp⟩
  | some v => exact hint c hc v hcum

/-- **Missing readings.** Calls of a single source in the order of their times, the volumes that they
    carry not falling: at each width the bars of the ring show the last of the volumes that it holds
    minus the first exactly when the calls without one come after all the others. Integer volumes
    are shown as they are. -/
theorem gap_volume_iff (cfg : LiveSettings) (symbol exchange : String) {source : Option String}
    {calls : List RecordCall}
    (hcalls : ∀ c ∈ calls, c.key = engineKey symbol exchange ∧ c.source = source ∧
      ∃ p, c.price = some p ∧ 0 < p)
    (hordered : calls.Pairwise fun c d => c.stamp ≤ d.stamp)
    (hnonneg : ∀ c ∈ calls, ∀ v ∈ c.cumVolume, 0 ≤ v)
    (hmono : (carriedVolumes (window cfg.sampleMaxlen calls)).Pairwise (· ≤ ·)) {seconds : ℚ}
    (hs : 0 < seconds) {limit : ℤ}
    (hlimit : (referenceBars seconds ((recordAll cfg calls {}).samples
      (engineKey symbol exchange))).length ≤ limit.toNat) :
    let kept := window cfg.sampleMaxlen calls
    let eng := recordAll cfg calls {}
    let bars := referenceBars seconds (eng.samples (engineKey symbol exchange))
    ((bars.map fun e => e.2.volume).sum = lastMinusFirst (carriedVolumes kept) ↔
      kept.Pairwise fun c d => c.Missing → d.Missing) ∧
    ((∀ c ∈ calls, ∀ v ∈ c.cumVolume, ∃ n : ℤ, v = n) →
      (((((eng.build symbol exchange seconds limit).map (·.volume)).sum : ℤ) : ℚ) =
        lastMinusFirst (carriedVolumes kept) ↔
          kept.Pairwise fun c d => c.Missing → d.Missing)) := by
  intro kept eng bars
  have hkept : kept.Sublist calls := List.drop_sublist _ _
  have hring : eng.samples (engineKey symbol exchange) = kept.map RecordCall.sample := by
    rw [recordAll_empty, sampleLog_singleSource hcalls (.inl rfl), window_map]
  have ho : TimeOrdered (eng.samples (engineKey symbol exchange)) := by
    rw [hring]
    exact List.pairwise_map.mpr (hordered.sublist hkept)
  have hsource : SingleSource (eng.samples (engineKey symbol exchange)) := by
    rw [hring]
    intro x hx y hy
    obtain ⟨c, hc, rfl⟩ := List.mem_map.mp hx
    obtain ⟨d, hd, rfl⟩ := List.mem_map.mp hy
    exact (hcalls c (hkept.subset hc)).2.1.trans (hcalls d (hkept.subset hd)).2.1.symm
  -- the bars show the increases of the stream
  have hiff : (bars.map fun e => e.2.volume).sum = lastMinusFirst (carriedVolumes kept) ↔
      kept.Pairwise fun c d => c.Missing → d.Missing := by
    rw [sum_referenceBars hs ho, streamVolume_rises hsource, hring]
    exact sum_rises_samples_iff (fun c hc => hnonneg c (hkept.subset hc)) hmono
  refine ⟨hiff, fun hint => ?_⟩
  have hv : IntegerVolumes (eng.samples (engineKey symbol exchange)) := by
    rw [hring]
    exact integerVolumes_samples fun c hc => hint c (hkept.subset hc)
  have hsum := sum_candle_volumes hs ho hv hlimit fun _ => true
  simp only [List.filter_true] at hsum
  rw [hsum]
  exact hiff

end Gaps

/-- The feed loses its volume at the end. -/
theorem gap_volume_tail :
    (((((recordAll {} [tapeCall 0 (some 900), tapeCall 1 (some 1000), tapeCall 2 none]
      {}).build "RELIANCE" "NSE" 1).map (·.volume)).sum : ℤ) : ℚ) = 100 := by
  have h := @gap_volume_iff {} "RELIANCE" "NSE" (some "groww")
    [tapeCall 0 (some 900), tapeCall 1 (some 1000), tapeCall 2 none] ?_ (by decide)
    (by decide) (by decide) 1 one_pos 300 (by decide)
  · obtain ⟨-, hint⟩ := h
    refine ((hint ?_).mpr (by unfold RecordCall.Missing; decide)).trans (by decide)
    intro c hc v hv
    exact ⟨⌊v⌋, by revert c v; decide⟩
  · intro c hc
    refine ⟨?_, ?_, 100, ?_, by norm_num⟩ <;> revert c <;> decide

/-- One reading is missing in between: the whole day is counted with the next one. -/
theorem gap_volume_fabricated :
    ((recordAll {} [tapeCall 0 (some 900), tapeCall 1 none, tapeCall 2 (some 1000)]
      {}).build "RELIANCE" "NSE" 1).map (·.volume) = [0, 0, 1000] ∧
    lastMinusFirst (carriedVolumes
      [tapeCall 0 (some 900), tapeCall 1 none, tapeCall 2 (some 1000)]) = 100 := by
  decide

end BharatTicker
