/-
  File:      BharatTicker/LiveCandles/Reference.lean
  Subject:   WHAT `build` COMPUTES, said without its loop: each non-empty bucket has one bar, made of
             its samples, and each sample with the one before it.

  * `increase`, `referenceBar`, `referenceBars` -- the bars of a ring;
  * `bars_eq_reference` -- the loop's buckets are these;
  * `sum_volume_bars`, `increases_singleSource` -- the volume over all bars is that of the stream;
  * `build_reference` -- the candles;
  * `candles_ascending` -- the stamps as they are printed.
-/
import BharatTicker.Basis.Counter
import BharatTicker.IntradayStore.Rollup

namespace BharatTicker

open Basis

-- the concrete runs below compute with rationals
unseal Rat.add Rat.mul Rat.sub Rat.inv

/-! ## 1. Reference -/

/-- The increase over the sample before, if that has the same source and is not larger. -/
def increase (x : Option Sample × Sample) : ℚ :=
  match x.1 with
  | some y => if x.2.source = y.source ∧ y.cum ≤ x.2.cum then x.2.cum - y.cum else 0
  | none => 0

/-- The samples of a bucket, each with the one before it in the ring. -/
def bucketSamples (seconds : ℚ) (samples : List Sample) (idx : ℤ) : List (Option Sample × Sample) :=
  (withPrevious none samples).filter fun x => ⌊x.2.ts / seconds⌋ = idx

/-- First price, highest, lowest, last, and the increases. -/
def referenceBar (g : List (Option Sample × Sample)) : Cell where
  opening := (g.head?.map (·.2.price)).getD 0
  high := (g.map (·.2.price)).max?.getD 0
  low := (g.map (·.2.price)).min?.getD 0
  close := (g.getLast?.map (·.2.price)).getD 0
  volume := (g.map increase).sum

def referenceBars (seconds : ℚ) (samples : List Sample) : List (ℤ × Cell) :=
  (samples.map fun x => ⌊x.ts / seconds⌋).dedup.map fun idx =>
    (idx, referenceBar (bucketSamples seconds samples idx))

/-- The volume that the whole ring shows, of whatever width the bars are. -/
def streamVolume (samples : List Sample) : ℚ := ((withPrevious none samples).map increase).sum

/-- All samples are of one source. -/
def SingleSource (samples : List Sample) : Prop :=
  ∀ x ∈ samples, ∀ y ∈ samples, x.source = y.source

section Reference

variable {seconds : ℚ} {samples : List Sample}

/-! ## 2. The loop's buckets -/

/-- The bar of one sample, of the increase. -/
theorem tickBars_eq (prev : Option Sample) (samples : List Sample) :
    tickBars prev samples =
      (withPrevious prev samples).map fun x => (x.2.ts, sampleBar (increase x) x.2) := by
  induction samples generalizing prev with
  | nil => rfl
  | cons x xs ih =>
    have hvolume : volumeDelta (prev.map (·.cum)) (prev.bind (·.source)) x = increase (prev, x) := by
      cases prev <;> rfl
    rw [tickBars, ih, withPrevious, List.map_cons, hvolume]

/-- A bucket's bar is the summary of the bars of its samples. -/
theorem referenceBar_eq (g : List (Option Sample × Sample)) :
    referenceBar g = Bar.summary (g.map fun x => sampleBar (increase x) x.2) := by
  unfold referenceBar Bar.summary
  simp only [List.head?_map, List.getLast?_map, List.map_map, Option.map_map, Function.comp_def,
    sampleBar]

theorem keys_ticks (seconds : ℚ) (samples : List Sample) :
    ((tickBars none samples).map (Prod.map (fun t => ⌊t / seconds⌋) id)).map Prod.fst =
      samples.map fun x => ⌊x.ts / seconds⌋ := by
  rw [List.map_map, tickBars_eq, List.map_map]
  conv_rhs => rw [← withPrevious_snd none samples, List.map_map]
  rfl

theorem groupOf_ticks (seconds : ℚ) (samples : List Sample) (idx : ℤ) :
    groupOf ((tickBars none samples).map (Prod.map (fun t => ⌊t / seconds⌋) id)) idx =
      (bucketSamples seconds samples idx).map fun x => sampleBar (increase x) x.2 := by
  unfold groupOf bucketSamples
  rw [tickBars_eq, List.map_map, List.filter_map, List.map_map]
  rfl

/-- **The buckets of the loop are those of the reference.** -/
theorem bars_eq_reference (hs : 0 < seconds) (ho : TimeOrdered samples) :
    bars seconds samples = referenceBars seconds samples := by
  unfold bars referenceBars
  rw [aggregate_eq_dedup (bucketKeys_ordered hs ho) fun x xs => Bar.summary_cons x xs, keys_ticks]
  refine List.map_congr_left fun idx _ => ?_
  rw [groupOf_ticks, referenceBar_eq]

/-! ## 3. Volumes -/

/-- **No volume is lost between the bars**, whatever their width. -/
theorem sum_volume_bars (p : ℤ → Bool) :
    (((bars seconds samples).filter fun e => p e.1).map fun e => e.2.volume).sum =
      (((withPrevious none samples).filter fun x => p ⌊x.2.ts / seconds⌋).map increase).sum := by
  unfold bars
  rw [sum_aggregate (φ := Bar.volume) (fun _ _ => rfl) p, tickBars_eq, List.map_map,
    List.filter_map, List.map_map]
  rfl

/-- The increases of a single source are those of its counter. -/
theorem increases_singleSource {prev : Option Sample}
    (h : ∀ x ∈ samples, ∀ y ∈ prev, x.source = y.source) (hs : SingleSource samples) :
    (withPrevious prev samples).map increase =
      rises (prev.map (·.cum)) (samples.map (·.cum)) := by
  induction samples generalizing prev with
  | nil => rfl
  | cons x xs ih =>
    have hhead : increase (prev, x) = rise (prev.map (·.cum)) x.cum := by
      cases prev with
      | none => rfl
      | some y =>
        have hsource : x.source = y.source := h x List.mem_cons_self y rfl
        simp [increase, rise, hsource]
    have hrest : SingleSource xs := fun y hy z hz =>
      hs y (List.mem_cons_of_mem x hy) z (List.mem_cons_of_mem x hz)
    rw [withPrevious, List.map_cons, List.map_cons, rises, hhead, ih ?_ hrest]
    · rfl
    · intro y hy z hz
      cases hz
      exact hs y (List.mem_cons_of_mem x hy) x List.mem_cons_self

theorem streamVolume_rises (hs : SingleSource samples) :
    streamVolume samples = (rises none (samples.map (·.cum))).sum := by
  have hnone : ∀ x ∈ samples, ∀ y ∈ (none : Option Sample), x.source = y.source := by simp
  unfold streamVolume
  rw [increases_singleSource hnone hs]
  rfl

/-- The counter of a single source that does not fall. -/
theorem streamVolume_singleSource (hs : SingleSource samples)
    (hc : (samples.map (·.cum)).Pairwise (· ≤ ·)) :
    streamVolume samples = lastMinusFirst (samples.map (·.cum)) := by
  rw [streamVolume_rises hs]
  cases samples with
  | nil => simp [rises, lastMinusFirst]
  | cons x xs =>
    rw [List.map_cons] at hc ⊢
    exact (sum_rises_ascending none hc).trans (zero_add _)

/-- **The volume over all bars is that of the stream.** -/
theorem sum_referenceBars (hs : 0 < seconds) (ho : TimeOrdered samples) :
    ((referenceBars seconds samples).map fun e => e.2.volume).sum = streamVolume samples := by
  have hsum := @sum_volume_bars seconds samples fun _ => true
  simp only [List.filter_true] at hsum
  rw [← bars_eq_reference hs ho]
  exact hsum

/-! ## 4. Candles -/

/-- Where the limit cuts nothing off, `build` returns the candles of all bars. -/
theorem build_eq_reference {eng : LiveCandleEngine} {symbol exchange : String} {limit : ℤ}
    (hs : 0 < seconds) (ho : TimeOrdered (eng.samples (engineKey symbol exchange)))
    (hlimit : (referenceBars seconds (eng.samples (engineKey symbol exchange))).length ≤
      limit.toNat) :
    eng.build symbol exchange seconds limit =
      (referenceBars seconds (eng.samples (engineKey symbol exchange))).map (candleOf seconds) := by
  unfold LiveCandleEngine.build
  rw [candles_eq hs ho, bars_eq_reference hs ho]
  exact lastSlice_of_length_le (by rwa [List.length_map])

/-- Open and close lie between low and high. -/
theorem bars_sane : ∀ e ∈ bars seconds samples, e.2.Sane := by
  unfold bars
  refine aggregate_forall (fun _ _ => Bar.Sane.mul) fun e he => ?_
  obtain ⟨x, hx, rfl⟩ := List.mem_map.mp he
  rw [tickBars_eq] at hx
  obtain ⟨y, -, rfl⟩ := List.mem_map.mp hx
  exact ⟨⟨le_refl _, le_refl _⟩, ⟨le_refl _, le_refl _⟩⟩

theorem bucketSamples_ne_nil {idx : ℤ} :
    bucketSamples seconds samples idx ≠ [] ↔ ∃ x ∈ samples, ⌊x.ts / seconds⌋ = idx := by
  have hmap : samples = (withPrevious none samples).map Prod.snd :=
    (withPrevious_snd none samples).symm
  conv_rhs => rw [hmap]
  unfold bucketSamples
  rw [ne_eq, List.filter_eq_nil_iff]
  simp only [decide_eq_true_eq, not_forall, not_not, exists_prop, Prod.exists, List.mem_map,
    exists_eq_right]
  constructor
  · intro h
    obtain ⟨prev, x, hx, e⟩ := h
    exact ⟨x, ⟨prev, hx⟩, e⟩
  · intro h
    obtain ⟨x, ⟨prev, hx⟩, e⟩ := h
    exact ⟨prev, x, hx, e⟩

/-- **What `build` returns.** Of a ring in the order of its times, at any width: a bar for each bucket
    with a sample, in the order of the buckets; it has the first, highest, lowest and last price of
    its samples and the sum of their increases. The volume over all bars is that of the stream; for
    one source whose counter does not fall, the last reading minus the first. -/
theorem build_reference (eng : LiveCandleEngine) (symbol exchange : String) {seconds : ℚ} {limit : ℤ}
    (hs : 0 < seconds) (ho : TimeOrdered (eng.samples (engineKey symbol exchange)))
    (hlimit : (referenceBars seconds (eng.samples (engineKey symbol exchange))).length ≤
      limit.toNat) :
    let ring := eng.samples (engineKey symbol exchange)
    let cells := referenceBars seconds ring
    eng.build symbol exchange seconds limit = cells.map (candleOf seconds) ∧
    (cells.map Prod.fst).Pairwise (· < ·) ∧
    (∀ idx, idx ∈ cells.map Prod.fst ↔ bucketSamples seconds ring idx ≠ []) ∧
    (∀ e ∈ cells, e.2 = referenceBar (bucketSamples seconds ring e.1) ∧ e.2.Sane) ∧
    (cells.map fun e => e.2.volume).sum = streamVolume ring ∧
    (SingleSource ring → (ring.map (·.cum)).Pairwise (· ≤ ·) →
      streamVolume ring = lastMinusFirst (ring.map (·.cum))) := by
  intro ring cells
  have hbars : bars seconds ring = cells := bars_eq_reference hs ho
  refine ⟨build_eq_reference hs ho hlimit, ?_, ?_, ?_, sum_referenceBars hs ho,
    streamVolume_singleSource⟩
  · rw [← hbars]
    exact bars_sorted hs ho
  · intro idx
    rw [← hbars, bars_keys, bucketSamples_ne_nil]
  · intro e he
    obtain ⟨idx, -, rfl⟩ := List.mem_map.mp he
    exact ⟨rfl, bars_sane _ (hbars ▸ he)⟩

/-- Instants at least a unit of the text apart are printed apart. -/
theorem isoInstant_lt {subSecond : Bool} {t t' : ℚ}
    (h : t + (if subSecond then 1 / 10 ^ 3 else 1) ≤ t') :
    isoInstant subSecond t < isoInstant subSecond t' := by
  -- `n` microseconds are a unit
  have hunit : ∀ n : ℤ, 0 < n → Even n → t * 10 ^ 6 + n ≤ t' * 10 ^ 6 →
      ⌊(roundHalfEven (t * 10 ^ 6) : ℚ) / n⌋ < ⌊(roundHalfEven (t' * 10 ^ 6) : ℚ) / n⌋ := by
    intro n hn heven hle
    have hround : roundHalfEven (t * 10 ^ 6) + n ≤ roundHalfEven (t' * 10 ^ 6) := by
      rw [← roundHalfEven_add_even _ heven]
      exact roundHalfEven_mono hle
    have hnq : (0 : ℚ) < n := by exact_mod_cast hn
    have hdiv : (roundHalfEven (t * 10 ^ 6) : ℚ) / n + 1 ≤ (roundHalfEven (t' * 10 ^ 6) : ℚ) / n := by
      rw [div_add_one hnq.ne', div_le_div_iff_of_pos_right hnq]
      exact_mod_cast hround
    have hfloor := Int.floor_le_floor hdiv
    rw [Int.floor_add_one] at hfloor
    omega
  unfold isoInstant
  cases subSecond with
  | true =>
    have hlt := hunit 1000 (by norm_num) (by decide) (by norm_num at h ⊢; linarith)
    have hcast : ((1000 : ℤ) : ℚ) = 10 ^ 3 := by norm_num
    rw [hcast] at hlt
    simp only [if_true]
    gcongr
  | false =>
    have hlt := hunit 1000000 (by norm_num) (by decide) (by norm_num at h ⊢; linarith)
    have hcast : ((1000000 : ℤ) : ℚ) = 10 ^ 6 := by norm_num
    rw [hcast] at hlt
    simp only [Bool.false_eq_true, if_false]
    exact_mod_cast hlt

/-- **The printed stamps ascend** from a width of a millisecond on. -/
theorem candles_ascending (hs : 1 / 10 ^ 3 ≤ seconds) (ho : TimeOrdered samples) :
    (candles samples seconds).Pairwise fun c d => c.timestamp < d.timestamp := by
  have hpos : 0 < seconds := lt_of_lt_of_le (by norm_num) hs
  rw [candles_eq hpos ho]
  refine List.pairwise_map.mpr ((List.pairwise_map.mp (bars_sorted hpos ho)).imp fun {e f} hlt => ?_)
  refine isoInstant_lt ?_
  have hstep : (e.1 : ℚ) * seconds + seconds ≤ f.1 * seconds := by
    have hle : (e.1 : ℚ) + 1 ≤ f.1 := by exact_mod_cast hlt
    calc (e.1 : ℚ) * seconds + seconds = ((e.1 : ℚ) + 1) * seconds := by ring
      _ ≤ f.1 * seconds := mul_le_mul_of_nonneg_right hle hpos.le
  refine le_trans (add_le_add_right ?_ _) hstep
  by_cases h1 : seconds < 1
  · simpa [h1] using hs
  · simpa [h1] using not_lt.mp h1

theorem build_reference_opening :
    openingRing.build "reliance" "nse" 10 300 =
        (referenceBars 10 (openingRing.samples "NSE:RELIANCE")).map (candleOf 10) ∧
      streamVolume (openingRing.samples "NSE:RELIANCE") = 40 := by
  have hkey : engineKey "reliance" "nse" = "NSE:RELIANCE" := by decide
  have h := @build_reference openingRing "reliance" "nse" 10 300 (by norm_num)
  rw [hkey] at h
  have ho : TimeOrdered (openingRing.samples "NSE:RELIANCE") := by
    unfold TimeOrdered
    decide
  obtain ⟨hbuild, -, -, -, -, hvolume⟩ := h ho (by decide)
  refine ⟨hbuild, (hvolume ?_ (by decide)).trans (by decide)⟩
  unfold SingleSource
  decide

end Reference

end BharatTicker
