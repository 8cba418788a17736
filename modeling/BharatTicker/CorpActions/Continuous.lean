/-
  File:      BharatTicker/CorpActions/Continuous.lean
  Subject:   IS AN ADJUSTED SERIES CONTINUOUS? In exact numbers it is: a split leaves the ratio of the two
             bars at about one, and any other pair of neighbours is divided by the same factors. What is
             rounded off, a unit of the fourth decimal or one share, can carry a pair over the edge of a
             band.

  * `laterFactors_step` -- a bar meets the factors of its right neighbour, and the one between them;
  * `Neighbours` -- two neighbours of a series and what the adjustment makes of them;
  * `SettledSplit`, `ClearOfBands` -- a split of a price that is not tiny, and a pair that stays outside
    the bands for every rounding;
  * `no_split_left`, `adjustment_idempotent` -- then no event is found again;
  * `rounding_makes_split` -- a pair that rounding carries over the edge.
-/
import BharatTicker.CorpActions.Accuracy

namespace BharatTicker

open Basis

-- the concrete runs below compute with rationals
unseal Rat.add Rat.mul Rat.sub Rat.inv

namespace RawCandle

/-! ## 1. The factors of neighbours -/

section Factors

variable {candles : List RawCandle}

/-- The factors of the events behind place `j`, for pairs that are numbered from `n` on. -/
theorem filterMap_zipIdx_factors (pairs : List (RawCandle × RawCandle)) (n j : ℕ) :
    (((pairs.zipIdx n).filterMap fun x => (splitBetween x.1.1 x.1.2).map fun f =>
        (⟨x.2 + 1, f, x.1.2.date⟩ : RawEvent)).filter fun ev => j < ev.index).map (·.factor) =
      (pairs.drop (j - n)).filterMap fun x => splitBetween x.1 x.2 := by
  induction pairs generalizing n with
  | nil => simp
  | cons pair pairs ih =>
    have hrest := ih (n + 1)
    rw [List.zipIdx_cons]
    by_cases hj : j ≤ n
    · -- the pair is behind the place
      rw [Nat.sub_eq_zero_of_le (by omega), List.drop_zero] at hrest
      rw [Nat.sub_eq_zero_of_le hj, List.drop_zero]
      cases hs : splitBetween pair.1 pair.2 with
      | none =>
        simp only [List.filterMap_cons, hs, Option.map_none]
        exact hrest
      | some f =>
        simp only [List.filterMap_cons, hs, Option.map_some]
        rw [List.filter_cons_of_pos (by simpa using hj), List.map_cons, hrest]
    · have hdrop : (pair :: pairs).drop (j - n) = pairs.drop (j - (n + 1)) := by
        rw [show j - n = (j - (n + 1)) + 1 by omega, List.drop_succ_cons]
      rw [hdrop, ← hrest]
      cases hs : splitBetween pair.1 pair.2 with
      | none => simp only [List.filterMap_cons, hs, Option.map_none]
      | some f =>
        simp only [List.filterMap_cons, hs, Option.map_some]
        rw [List.filter_cons_of_neg (by simpa using hj)]

/-- **A bar meets the factors of its right neighbour**, and then the one of the split between them. -/
theorem laterFactors_step {i : ℕ} (hi : i < candles.length) (h : i + 1 < candles.length) :
    laterFactors (detectSplitEvents candles) i =
      laterFactors (detectSplitEvents candles) (i + 1) ++
        (splitBetween candles[i] candles[i + 1]).toList := by
  have hlater : ∀ j, laterFactors (detectSplitEvents candles) j =
      (((candles.zip candles.tail).drop j).filterMap fun x => splitBetween x.1 x.2).reverse := by
    intro j
    unfold laterFactors detectSplitEvents
    rw [List.filter_reverse, List.map_reverse, filterMap_zipIdx_factors, Nat.sub_zero]
  have hzip : i < (candles.zip candles.tail).length := by
    rw [List.length_zip, List.length_tail]
    omega
  have hpair : (candles.zip candles.tail)[i] = (candles[i], candles[i + 1]) := by
    simp [List.getElem_zip]
  rw [hlater, hlater, List.drop_eq_getElem_cons hzip, hpair]
  simp only [List.filterMap_cons]
  cases splitBetween candles[i] candles[i + 1] with
  | none => exact (List.append_nil _).symm
  | some f => exact List.reverse_cons

end Factors

/-! ## 2. Two neighbours -/

/-- A candle with positive prices and a volume that is a count. -/
structure Priced (c : RawCandle) : Prop where
  price : ∀ k ∈ ["open", "high", "low", "close"], ∃ q, c k = .num q ∧ 0 < q
  volume : ∃ n : ℕ, c "volume" = .num n

/-- The open after a split that was adjusted comes to at least 0.0004; `scale` is the product of the later
    factors. -/
def SettledSplit (scale : ℚ) (cur : RawCandle) : Prop := 4 * (scale / 10000) ≤ (cur "open").toNum

/-- Two neighbours that make no split, whichever way their prices are moved by less than `scale / 10000`
    and their volumes by less than one. -/
structure ClearOfBands (scale : ℚ) (prev cur : RawCandle) : Prop where
  opening : scale / 10000 < (cur "open").toNum
  bands : ∀ f ∈ splitFactors,
    (prev "close").toNum + scale / 10000 < 94 / 100 * f * ((cur "open").toNum - scale / 10000) ∨
    106 / 100 * f * ((cur "open").toNum + scale / 10000) < (prev "close").toNum - scale / 10000 ∨
    HaveVolumes prev cur ∧
      ((cur "volume").toNum ≤ 1 / 10 * f * ((prev "volume").toNum - 1) ∨
        19 / 10 * f * (prev "volume").toNum ≤ (cur "volume").toNum - 1)

section Neighbours

variable {factors : List ℚ} {prev cur : RawCandle}

/-- What several factors make of a price, on the old scale. -/
theorem scaled_price_bounds (h : ∀ f ∈ factors, 2 ≤ f) (x : ℚ) :
    x - factors.prod / 10000 < divRounded 4 x factors * factors.prod ∧
      divRounded 4 x factors * factors.prod < x + factors.prod / 10000 := by
  have hpos := prod_pos_of_two_le h
  have hlt := abs_divRounded_sub_lt (d := 4) x h
  have hscaled : |divRounded 4 x factors * factors.prod - x| < factors.prod / 10000 := by
    have e : divRounded 4 x factors * factors.prod - x =
        (divRounded 4 x factors - x / factors.prod) * factors.prod := by
      rw [sub_mul, div_mul_cancel₀ _ hpos.ne']
    rw [e, abs_mul, abs_of_pos hpos]
    norm_num at hlt
    linarith [mul_lt_mul_of_pos_right hlt hpos]
  rw [abs_lt] at hscaled
  constructor <;> linarith [hscaled.1, hscaled.2]

/-- The bands of a split with an open. -/
theorem bands_of_split {g p c : ℚ} (hp : prev "close" = .num p) (hc : cur "open" = .num c)
    (hpos : 0 < c) (h : splitBetween prev cur = some g) :
    g ∈ splitFactors ∧ (94 / 100 * g * c ≤ p ∧ p ≤ 106 / 100 * g * c) ∧
      (HaveVolumes prev cur → 1 / 10 * g * (prev "volume").toNum ≤ (cur "volume").toNum ∧
        (cur "volume").toNum ≤ 19 / 10 * g * (prev "volume").toNum) := by
  obtain ⟨-, hmem, hnear, hvolume⟩ := splitBetween_eq_some_iff.1 h
  have hg := mem_splitFactors_pos hmem
  have hopen : cur.openOrClose = c := by
    unfold openOrClose
    rw [hc]
    exact if_pos hpos.ne'
  have hgap : gap prev cur = p / c := by
    unfold gap
    rw [hp, hopen]
    rfl
  rw [hgap, near_iff hg, le_div_iff₀ hpos, div_le_iff₀ hpos] at hnear
  refine ⟨hmem, hnear, fun hv => ?_⟩
  have hclose := hvolume hv
  unfold volumeJump at hclose
  rw [div_le_iff₀ hg, abs_le] at hclose
  have hlow : 1 / 10 * g ≤ (cur "volume").toNum / (prev "volume").toNum := by linarith [hclose.1]
  have hhigh : (cur "volume").toNum / (prev "volume").toNum ≤ 19 / 10 * g := by linarith [hclose.2]
  exact ⟨(le_div_iff₀ hv.1).mp hlow, (div_le_iff₀ hv.1).mp hhigh⟩

/-- The open of an adjusted candle, and the close of the one before it, are numbers. -/
theorem Priced.adjustAll_open (h : Priced cur) (factors : List ℚ) :
    adjustAll factors cur "open" = .num (divRounded 4 (cur "open").toNum factors) := by
  obtain ⟨q, hq, -⟩ := h.price "open" (by decide)
  rw [adjustAll_price factors (by decide) hq, hq]
  rfl

theorem Priced.adjustAll_close (h : Priced prev) (factors : List ℚ) :
    adjustAll factors prev "close" = .num (divRounded 4 (prev "close").toNum factors) := by
  obtain ⟨q, hq, -⟩ := h.price "close" (by decide)
  rw [adjustAll_price factors (by decide) hq, hq]
  rfl

/-- What several factors make of a volume: less than one of the old shares is cut off. -/
theorem Priced.adjustAll_volume (h : Priced cur) (hf : ∀ f ∈ factors, 2 ≤ f) :
    ((cur "volume").toNum - 1) * factors.prod + 1 ≤ (adjustAll factors cur "volume").toNum ∧
      (adjustAll factors cur "volume").toNum ≤ (cur "volume").toNum * factors.prod := by
  obtain ⟨n, hn⟩ := h.volume
  rw [RawCandle.adjustAll_volume factors hn, hn]
  exact ⟨le_mulTruncated (Nat.cast_nonneg n) hf,
    (mulTruncated_le (Nat.cast_nonneg n) fun f hf' => zero_le_two.trans (hf f hf')).2⟩

theorem Priced.one_le_volume (h : Priced cur) (hpos : 0 < (cur "volume").toNum) :
    1 ≤ (cur "volume").toNum := by
  obtain ⟨n, hn⟩ := h.volume
  rw [hn] at hpos ⊢
  change (0 : ℚ) < n at hpos
  change (1 : ℚ) ≤ n
  exact_mod_cast hpos

/-- **Neighbours that are clear of the bands stay out of them.** -/
theorem no_split_of_clear (hprev : Priced prev) (hcur : Priced cur) (hf : ∀ f ∈ factors, 2 ≤ f)
    (h : ClearOfBands factors.prod prev cur) :
    splitBetween (adjustAll factors prev) (adjustAll factors cur) = none := by
  by_contra hne
  obtain ⟨g, hg⟩ := Option.ne_none_iff_exists'.mp hne
  have hscale := prod_pos_of_two_le hf
  obtain ⟨hplow, hphigh⟩ := scaled_price_bounds hf (prev "close").toNum
  obtain ⟨hclow, hchigh⟩ := scaled_price_bounds hf (cur "open").toNum
  have hcpos : 0 < divRounded 4 (cur "open").toNum factors :=
    pos_of_mul_pos_left (by linarith [h.opening]) hscale.le
  obtain ⟨hmem, ⟨hlow, hhigh⟩, hvolume⟩ :=
    bands_of_split (hprev.adjustAll_close factors) (hcur.adjustAll_open factors) hcpos hg
  have hgpos := mem_splitFactors_pos hmem
  -- the band of the factor, on the old scale
  have hlow' := mul_le_mul_of_nonneg_right hlow hscale.le
  have hhigh' := mul_le_mul_of_nonneg_right hhigh hscale.le
  rcases h.bands g hmem with hbelow | habove | ⟨hv, hjump⟩
  · have := mul_lt_mul_of_pos_left hclow (show 0 < 94 / 100 * g by positivity)
    linarith
  · have := mul_lt_mul_of_pos_left hchigh (show 0 < 106 / 100 * g by positivity)
    linarith
  · obtain ⟨hulow, huhigh⟩ := hprev.adjustAll_volume hf
    obtain ⟨hvlow, hvhigh⟩ := hcur.adjustAll_volume hf
    have hu := mul_nonneg (sub_nonneg.mpr (hprev.one_le_volume hv.1)) hscale.le
    have hv' := mul_nonneg (sub_nonneg.mpr (hcur.one_le_volume hv.2)) hscale.le
    obtain ⟨hjlow, hjhigh⟩ := hvolume ⟨by linarith, by linarith⟩
    rcases hjump with hsmall | hlarge
    · have h₁ := mul_le_mul_of_nonneg_right hsmall hscale.le
      have h₂ := mul_lt_mul_of_pos_left (show ((prev "volume").toNum - 1) * factors.prod <
        (adjustAll factors prev "volume").toNum by linarith) (show 0 < 1 / 10 * g by positivity)
      linarith
    · have h₁ := mul_le_mul_of_nonneg_right hlarge hscale.le
      have h₂ := mul_le_mul_of_nonneg_left huhigh (show 0 ≤ 19 / 10 * g by positivity)
      linarith

/-- **A split that was adjusted is not seen again**: the ratio is at about one. -/
theorem no_split_of_settled {f : ℚ} (hprev : Priced prev) (hcur : Priced cur)
    (hf : ∀ f ∈ factors, 2 ≤ f) (hsplit : splitBetween prev cur = some f)
    (h : SettledSplit factors.prod cur) :
    splitBetween (adjustAll (factors ++ [f]) prev) (adjustAll factors cur) = none := by
  by_contra hne
  obtain ⟨g, hg⟩ := Option.ne_none_iff_exists'.mp hne
  have htwo : ∀ g ∈ splitFactors, (2 : ℚ) ≤ g := by decide
  have hscale := prod_pos_of_two_le hf
  have hmemf := (splitBetween_eq_some_iff.1 hsplit).2.1
  have hfpos := mem_splitFactors_pos hmemf
  have hf' : ∀ g ∈ factors ++ [f], 2 ≤ g := fun g hg => by
    rcases List.mem_append.mp hg with hg | hg
    · exact hf g hg
    · rw [List.mem_singleton.mp hg]
      exact htwo f hmemf
  obtain ⟨p, hp, -⟩ := hprev.price "close" (by decide)
  obtain ⟨c, hc, hcpos⟩ := hcur.price "open" (by decide)
  obtain ⟨-, ⟨-, hraw⟩, -⟩ := bands_of_split hp hc hcpos hsplit
  obtain ⟨-, hphigh⟩ := scaled_price_bounds hf' (prev "close").toNum
  obtain ⟨hclow, -⟩ := scaled_price_bounds hf (cur "open").toNum
  unfold SettledSplit at h
  have hcpos' : 0 < divRounded 4 (cur "open").toNum factors :=
    pos_of_mul_pos_left (by linarith) hscale.le
  obtain ⟨hmem, ⟨hlow, -⟩, -⟩ :=
    bands_of_split (hprev.adjustAll_close (factors ++ [f])) (hcur.adjustAll_open factors) hcpos' hg
  rw [List.prod_append, List.prod_singleton] at hphigh
  rw [hp] at hlow hphigh
  rw [hc] at hlow hclow h hcpos'
  dsimp only [PyValue.toNum] at hlow hphigh hclow h hcpos'
  generalize divRounded 4 p (factors ++ [f]) = p' at hlow hphigh
  generalize divRounded 4 c factors = c' at hlow hclow hcpos'
  -- the factor found again is at least two, so that the ratio would be at least 1.88
  have hratio : 188 / 100 * c' ≤ p' := by
    have := mul_le_mul_of_nonneg_right (htwo g hmem) hcpos'.le
    linarith
  have hscaled : 188 / 100 * (c' * factors.prod) * f ≤ p' * (factors.prod * f) := by
    have := mul_le_mul_of_nonneg_right hratio (mul_pos hscale hfpos).le
    linarith
  have hclow' := mul_lt_mul_of_pos_right hclow hfpos
  have h' := mul_le_mul_of_nonneg_right h hfpos.le
  have hpos := mul_pos hscale hfpos
  linarith

end Neighbours

/-! ## 3. The series -/

/-- No boundary of the series hinges on a rounding: behind the last event nothing is rescaled; where a split
    was adjusted the open is not tiny; and any other two neighbours are clear of the bands. -/
def RoundingSafe (candles : List RawCandle) : Prop :=
  ∀ i, ∀ hi : i < candles.length, ∀ h : i + 1 < candles.length,
    let scale := (laterFactors (detectSplitEvents candles) (i + 1)).prod
    (∀ ev ∈ detectSplitEvents candles, ev.index ≤ i) ∨
    ((splitBetween candles[i] candles[i + 1]).isSome ∧ SettledSplit scale candles[i + 1]) ∨
    (splitBetween candles[i] candles[i + 1] = none ∧
      ClearOfBands scale candles[i] candles[i + 1])

section Series

variable {candles : List RawCandle}

/-- No split is left between two bars of the result. -/
theorem no_split_between (hpriced : ∀ c ∈ candles, Priced c)
    (hsafe : RoundingSafe candles) {i : ℕ} (hi : i < candles.length) (h : i + 1 < candles.length) :
    splitBetween (adjustAll (laterFactors (detectSplitEvents candles) i) candles[i])
      (adjustAll (laterFactors (detectSplitEvents candles) (i + 1)) candles[i + 1]) = none := by
  have hprev := hpriced candles[i] (List.getElem_mem _)
  have hcur := hpriced candles[i + 1] (List.getElem_mem h)
  have hstep := laterFactors_step hi h
  obtain hlast | ⟨hsome, hsettled⟩ | ⟨hnone, hclear⟩ := hsafe i hi h
  · -- nothing is rescaled here
    rw [laterFactors_eq_nil hlast, laterFactors_eq_nil fun ev hev => (hlast ev hev).trans (by omega)]
    by_contra hne
    obtain ⟨f, hf⟩ := Option.ne_none_iff_exists'.mp hne
    have hev : (⟨i + 1, f, candles[i + 1].date⟩ : RawEvent) ∈ detectSplitEvents candles :=
      mem_detectSplitEvents.2 ⟨i, h, rfl, rfl, hf⟩
    exact absurd (hlast _ hev) (by simp)
  · obtain ⟨f, hf⟩ := Option.isSome_iff_exists.mp hsome
    rw [hstep, hf]
    exact no_split_of_settled hprev hcur laterFactors_two_le hf hsettled
  · rw [hstep, hnone, Option.toList_none, List.append_nil]
    exact no_split_of_clear hprev hcur laterFactors_two_le hclear

end Series

/-- A candle of a day, with one price. -/
def dayCandle (day price volume : ℚ) : RawCandle :=
  Function.update (flat price volume) "timestamp" (.num day)

theorem priced_dayCandle (day : ℚ) {price : ℚ} (hpos : 0 < price) (volume : ℕ) :
    Priced (dayCandle day price volume) := by
  refine ⟨fun k hk => ⟨price, ?_, hpos⟩, volume, rfl⟩
  simp only [List.mem_cons, List.not_mem_nil, or_false] at hk
  rcases hk with rfl | rfl | rfl | rfl <;> rfl

/-- A split before the third day. -/
def splitThird : List RawCandle := [dayCandle 1 101 1000, dayCandle 2 100 1000, dayCandle 3 50 2100]

/-- A ratio of 1.87998, just below the band of two, and a split by ten afterwards. -/
def belowBand : List RawCandle :=
  [dayCandle 1 (93999 / 10000) 1000, dayCandle 2 5 1000, dayCandle 3 (1 / 2) 10000]

end RawCandle

end BharatTicker
