/-
  File:      BharatTicker/SbCandles/SplitToday.lean
  Subject:   THE ADJUSTMENT DOES NOT SEE THE LIVE BAR. The endpoint adjusts the history and puts the
             live bar in afterwards; the other way round, a split that the live bar shows would be
             adjusted too.

  * `DailyBar.adjustBy`, `applyEvents` -- the adjustment by one split, and by several;
  * `detectSplitEvents_concat`, `adjusted_concat` -- what one more bar at the end changes;
  * `adjustBy_inj`, `splitBetween_adjustBy` -- different splits make different closes, and a split that
    is adjusted is no longer seen;
  * `SplitKnown`, `split_today_iff` -- when the two orders agree;
  * `split_today_missed` -- an ex-date today.
-/
import BharatTicker.SbCandles.Sane

namespace BharatTicker

open Basis

-- the concrete runs below compute with rationals
unseal Rat.add Rat.mul Rat.sub Rat.inv

/-! ## 1. One more bar -/

/-- A bar from before a split, if there is one. -/
def DailyBar.adjustBy (split : Option ℚ) (c : DailyBar) : DailyBar :=
  match split with
  | some f => c.adjust f
  | none => c

/-- The events, from the newest to the oldest. -/
def applyEvents (events : List SplitEvent) (candles : List DailyBar) : List DailyBar :=
  events.reverse.foldl adjustBefore candles

section Concat

variable {candles : List DailyBar} {events : List SplitEvent}

theorem length_adjustBefore (candles : List DailyBar) (ev : SplitEvent) :
    (adjustBefore candles ev).length = candles.length := List.length_mapIdx

/-- A bar that no event comes after is left alone. -/
theorem foldl_adjustBefore_concat (h : ∀ ev ∈ events, ev.index ≤ candles.length) (b : DailyBar) :
    events.foldl adjustBefore (candles ++ [b]) = events.foldl adjustBefore candles ++ [b] := by
  induction events generalizing candles with
  | nil => rfl
  | cons ev events ih =>
    have hev : ev.index ≤ candles.length := h ev List.mem_cons_self
    have hone : adjustBefore (candles ++ [b]) ev = adjustBefore candles ev ++ [b] := by
      unfold adjustBefore
      rw [List.mapIdx_concat, if_neg (not_lt.mpr hev)]
    rw [List.foldl_cons, List.foldl_cons, hone]
    refine ih fun e he => ?_
    rw [length_adjustBefore]
    exact h e (List.mem_cons_of_mem ev he)

theorem applyEvents_concat (h : ∀ ev ∈ events, ev.index ≤ candles.length) (b : DailyBar) :
    applyEvents events (candles ++ [b]) = applyEvents events candles ++ [b] :=
  foldl_adjustBefore_concat (fun ev hev => h ev (List.mem_reverse.mp hev)) b

/-- An event behind all bars rescales them all. -/
theorem adjustBefore_all {ev : SplitEvent} (h : ev.index = candles.length) :
    adjustBefore candles ev = candles.map (DailyBar.adjust ev.factor) := by
  unfold adjustBefore
  refine List.ext_getElem (by simp) fun j hj _ => ?_
  rw [List.length_mapIdx] at hj
  rw [List.getElem_mapIdx, List.getElem_map, if_pos (h ▸ hj)]

theorem zip_tail_concat (pre : List DailyBar) (p b : DailyBar) :
    (pre ++ [p] ++ [b]).zip (pre ++ [p] ++ [b]).tail =
      (pre ++ [p]).zip (pre ++ [p]).tail ++ [(p, b)] := by
  induction pre with
  | nil => rfl
  | cons a pre ih =>
    cases pre with
    | nil => rfl
    | cons a' pre => exact congrArg ((a, a') :: ·) ih

theorem length_zip_tail (candles : List DailyBar) :
    (candles.zip candles.tail).length = candles.length - 1 := by
  rw [List.length_zip, List.length_tail]
  exact min_eq_right (Nat.sub_le _ _)

/-- An event lies within the candles. -/
theorem detectSplitEvents_index {ev : SplitEvent} (h : ev ∈ detectSplitEvents candles) :
    ev.index < candles.length := by
  unfold detectSplitEvents at h
  obtain ⟨x, hx, hev⟩ := List.mem_filterMap.mp h
  obtain ⟨f, -, rfl⟩ := Option.map_eq_some_iff.mp hev
  have hlt := List.snd_lt_of_mem_zipIdx hx
  rw [length_zip_tail] at hlt
  dsimp only
  omega

/-- **One more bar adds at most the event before it.** -/
theorem detectSplitEvents_concat (pre : List DailyBar) (p b : DailyBar) :
    detectSplitEvents (pre ++ [p] ++ [b]) = detectSplitEvents (pre ++ [p]) ++
      ((splitBetween p b).map fun f => ⟨(pre ++ [p]).length, f, b.timestamp⟩).toList := by
  unfold detectSplitEvents
  rw [zip_tail_concat, List.zipIdx_append, List.filterMap_append, length_zip_tail]
  congr 1
  rw [List.zipIdx_singleton, List.filterMap_cons, List.filterMap_nil]
  cases splitBetween p b with
  | none => rfl
  | some f => simp

/-- **The adjustment of one more bar** first brings all the others over the split before it. -/
theorem applyEvents_detect_concat (pre : List DailyBar) (p b : DailyBar) :
    applyEvents (detectSplitEvents (pre ++ [p] ++ [b])) (pre ++ [p] ++ [b]) =
      applyEvents (detectSplitEvents (pre ++ [p]))
        ((pre ++ [p]).map (DailyBar.adjustBy (splitBetween p b))) ++ [b] := by
  have hindex : ∀ ev ∈ detectSplitEvents (pre ++ [p]), ev.index ≤
      ((pre ++ [p]).map (DailyBar.adjustBy (splitBetween p b))).length := fun ev hev => by
    rw [List.length_map]
    exact (detectSplitEvents_index hev).le
  rw [← applyEvents_concat hindex, detectSplitEvents_concat]
  unfold applyEvents
  rw [List.reverse_append, List.foldl_append]
  congr 1
  cases splitBetween p b with
  | none => exact congrArg (· ++ [b]) (List.map_id _).symm
  | some f =>
    have hall : [⟨(pre ++ [p]).length, f, b.timestamp⟩].foldl adjustBefore (pre ++ [p] ++ [b]) =
        adjustBefore (pre ++ [p]) ⟨(pre ++ [p]).length, f, b.timestamp⟩ ++ [b] :=
      foldl_adjustBefore_concat (by simp) b
    exact hall.trans (congrArg (· ++ [b]) (adjustBefore_all rfl))

end Concat

/-! ## 2. Different splits -/

/-- A positive close of two decimals is at least a hundredth. -/
theorem hundredth_le {x : ℚ} (hx : 0 < x) (hround : roundTo 2 x = x) : 1 / 100 ≤ x := by
  unfold roundTo at hround
  rw [← hround] at hx ⊢
  have hpos : (0 : ℚ) < roundHalfEven (x * 10 ^ 2) := by
    by_contra hle
    exact absurd hx (not_lt.mpr (div_nonpos_of_nonpos_of_nonneg (not_lt.mp hle) (by norm_num)))
  have hone : (1 : ℚ) ≤ roundHalfEven (x * 10 ^ 2) := by
    have hint : 0 < roundHalfEven (x * 10 ^ 2) := by exact_mod_cast hpos
    exact_mod_cast hint
  have h100 : (10 : ℚ) ^ 2 = 100 := by norm_num
  rw [h100] at hone ⊢
  linarith

/-- What a split can be: one of the factors, after a bar with a positive close. -/
def SplitAfter (p : DailyBar) (split : Option ℚ) : Prop :=
  ∀ f ∈ split, f ∈ splitFactors ∧ 0 < num p.close

theorem splitAfter_splitBetween (p b : DailyBar) : SplitAfter p (splitBetween p b) := by
  intro f hf
  obtain ⟨hpos, -, hmem, -⟩ := splitBetween_eq_some hf
  exact ⟨hmem, hpos⟩

theorem splitAfter_none (p : DailyBar) : SplitAfter p none := fun f hf => by cases hf

section Close

variable {p : DailyBar} {x : ℚ}

/-- The close over a split, up to its rounding. -/
theorem adjustBy_close (hx : p.close = some x) (split : Option ℚ) :
    ∃ y, (p.adjustBy split).close = some y ∧ |y - x / split.getD 1| ≤ 1 / 20000 := by
  cases split with
  | none => exact ⟨x, hx, by norm_num⟩
  | some f =>
    refine ⟨roundTo 4 (x / f), by simp [DailyBar.adjustBy, DailyBar.adjust, hx], ?_⟩
    refine (abs_roundTo_sub_le 4 (x / f)).trans ?_
    norm_num

/-- The factors, and the factor of no split, are apart. -/
theorem factors_apart : ∀ f ∈ 1 :: splitFactors, ∀ g ∈ 1 :: splitFactors, f ≠ g →
    1 / 30 ≤ |1 / f - 1 / g| := by
  decide

theorem SplitAfter.getD_mem {split : Option ℚ} (h : SplitAfter p split) :
    split.getD 1 ∈ 1 :: splitFactors := by
  cases split with
  | none => exact List.mem_cons_self
  | some f => exact List.mem_cons_of_mem _ (h f rfl).1

/-- No split is by the factor one. -/
theorem SplitAfter.getD_inj {split split' : Option ℚ} (h : SplitAfter p split)
    (h' : SplitAfter p split') (e : split.getD 1 = split'.getD 1) : split = split' := by
  have hone : (1 : ℚ) ∉ splitFactors := by decide
  cases split with
  | none =>
    cases split' with
    | none => rfl
    | some g =>
      obtain rfl : 1 = g := e
      exact absurd (h' 1 rfl).1 hone
  | some f =>
    cases split' with
    | none =>
      obtain rfl : f = 1 := e
      exact absurd (h 1 rfl).1 hone
    | some g => exact congrArg some e

/-- **Different splits make different closes**, of a bar whose close has two decimals. -/
theorem adjustBy_inj (hround : ∀ x ∈ p.close, roundTo 2 x = x) {split split' : Option ℚ}
    (h : SplitAfter p split) (h' : SplitAfter p split')
    (e : p.adjustBy split = p.adjustBy split') : split = split' := by
  by_contra hne
  -- one of them is a split, so that there is a close
  have hpos : 0 < num p.close := by
    cases split with
    | some f => exact (h f rfl).2
    | none =>
      cases split' with
      | some g => exact (h' g rfl).2
      | none => exact absurd rfl hne
  cases hx : p.close with
  | none =>
    rw [hx] at hpos
    exact lt_irrefl _ hpos
  | some x =>
    rw [hx] at hpos
    have hcent : 1 / 100 ≤ x := hundredth_le hpos (hround x hx)
    obtain ⟨y, hy, hnear⟩ := adjustBy_close hx split
    obtain ⟨y', hy', hnear'⟩ := adjustBy_close hx split'
    rw [e, hy'] at hy
    obtain rfl := Option.some.inj hy
    have hapart := factors_apart _ h.getD_mem _ h'.getD_mem fun hf => hne (h.getD_inj h' hf)
    have hgap : |x / split.getD 1 - x / split'.getD 1| ≤ 1 / 10000 := by
      rw [abs_le] at hnear hnear' ⊢
      constructor <;> linarith
    have hscale : x / split.getD 1 - x / split'.getD 1 =
        x * (1 / split.getD 1 - 1 / split'.getD 1) := by ring
    rw [hscale, abs_mul, abs_of_pos (lt_of_lt_of_le (by norm_num) hcent)] at hgap
    have hfar : 1 / 100 * (1 / 30) ≤ x * |1 / split.getD 1 - 1 / split'.getD 1| :=
      mul_le_mul hcent hapart (by norm_num) (le_trans (by norm_num) hcent)
    linarith

/-- **A split that is adjusted is no longer seen.** -/
theorem splitBetween_adjustBy (hround : ∀ x ∈ p.close, roundTo 2 x = x) (b : DailyBar) :
    splitBetween (p.adjustBy (splitBetween p b)) b = none := by
  cases hsplit : splitBetween p b with
  | none => exact hsplit
  | some f =>
    obtain ⟨hpos, hopen, hmem, htol, -⟩ := splitBetween_eq_some hsplit
    have hf : 0 < f := mem_splitFactors_pos hmem
    cases hx : p.close with
    | none =>
      rw [hx] at hpos
      exact absurd hpos (lt_irrefl _)
    | some x =>
      rw [hx] at hpos htol
      have hcent : 1 / 100 ≤ x := hundredth_le hpos (hround x hx)
      obtain ⟨y, hy, hnear⟩ := adjustBy_close hx (some f)
      -- the ratio over the adjusted close is near one
      have hratio : x / f ≤ 106 / 100 * b.openOrClose := by
        have hle : x / b.openOrClose ≤ 106 / 100 * f := by
          have habs := (abs_le.mp ((div_le_iff₀ hf).mp htol)).2
          unfold priceTol at habs
          show num (some x) / b.openOrClose ≤ _
          linarith
        rw [div_le_iff₀ hopen] at hle
        rw [div_le_iff₀ hf]
        linarith
      have hall : ∀ g ∈ splitFactors, g ≤ 10 := by decide
      have hf10 : f ≤ 10 := hall f hmem
      have hsmall : 1 / 20000 ≤ x / f / 20 := by
        rw [div_div, div_le_div_iff₀ (by norm_num) (by positivity)]
        linarith
      have hylt : y < 14 / 10 * b.openOrClose := by
        have hyle := (abs_le.mp hnear).2
        rw [Option.getD_some] at hyle
        linarith
      unfold splitBetween nearestFactor
      dsimp only
      rw [hy]
      split_ifs with hno hlow
      · rfl
      · rfl
      · exact absurd ((div_lt_iff₀ hopen).mpr hylt) hlow

end Close

/-! ## 3. The live bar -/

/-- The live bar shows no split that the history does not show: none after a last bar of an earlier
    day; where the last bar is of today, the one that this shows after the bar before it. -/
structure SplitKnown (candles : List DailyBar) (bar : DailyBar) (today : ℤ) : Prop where
  appended : ∀ last ∈ candles.getLast?, istDay last.timestamp ≠ today → splitBetween last bar = none
  replaced : ∀ pre p last, candles = pre ++ [p] ++ [last] → istDay last.timestamp = today →
    splitBetween p bar = splitBetween p last

/-- No split is seen between the last two candles. -/
def NoSplitLeft (candles : List DailyBar) : Prop :=
  ∀ pre p last, candles = pre ++ [p] ++ [last] → splitBetween p last = none

section Overlay

variable {candles pre : List DailyBar} {p last bar : DailyBar} {today : ℤ}

theorem adjustForSplits_eq (h : 3 ≤ candles.length) :
    (adjustForSplits candles).1 = applyEvents (detectSplitEvents candles) candles := by
  unfold adjustForSplits
  rw [if_neg (not_lt.mpr h)]
  rfl

theorem overlay_append (h : istDay last.timestamp ≠ today) (pre : List DailyBar)
    (bar : DailyBar) : overlay (pre ++ [last]) bar today = pre ++ [last] ++ [bar] := by
  unfold overlay
  rw [List.getLast?_concat]
  exact if_neg h

theorem overlay_replace (h : istDay last.timestamp = today) (pre : List DailyBar)
    (bar : DailyBar) : overlay (pre ++ [last]) bar today = pre ++ [bar] := by
  unfold overlay
  rw [List.getLast?_concat]
  dsimp only
  rw [if_pos h, List.dropLast_concat]

/-- The last of the bars is left to its own split. -/
theorem applyEvents_map_concat (split : Option ℚ) (pre : List DailyBar) (p : DailyBar) :
    applyEvents (detectSplitEvents (pre ++ [p])) ((pre ++ [p]).map (DailyBar.adjustBy split)) =
      applyEvents (detectSplitEvents (pre ++ [p])) (pre.map (DailyBar.adjustBy split)) ++
        [p.adjustBy split] := by
  rw [List.map_append, List.map_singleton]
  refine applyEvents_concat (fun ev hev => ?_) _
  have hlt := detectSplitEvents_index hev
  rw [List.length_append, List.length_singleton] at hlt
  rw [List.length_map]
  omega

/-- Bars brought over one split or another differ exactly where the splits do. -/
theorem applyEvents_adjustBy_iff (hround : ∀ x ∈ p.close, roundTo 2 x = x)
    {split split' : Option ℚ} (h : SplitAfter p split) (h' : SplitAfter p split') :
    applyEvents (detectSplitEvents (pre ++ [p])) ((pre ++ [p]).map (DailyBar.adjustBy split)) =
      applyEvents (detectSplitEvents (pre ++ [p])) ((pre ++ [p]).map (DailyBar.adjustBy split')) ↔
    split = split' := by
  refine ⟨fun e => ?_, fun e => by rw [e]⟩
  rw [applyEvents_map_concat, applyEvents_map_concat] at e
  exact adjustBy_inj hround h h' (List.singleton_injective (List.append_inj' e rfl).2)

theorem noSplitLeft_concat (h : splitBetween p bar = none) (pre : List DailyBar) :
    NoSplitLeft (pre ++ [p] ++ [bar]) := by
  intro pre' p' last' e
  obtain ⟨e, hlast⟩ := List.append_inj' e rfl
  obtain ⟨-, hp⟩ := List.append_inj' e rfl
  rw [← List.singleton_injective hp, ← List.singleton_injective hlast]
  exact h

/-- **The last bar is of an earlier day**, and the live bar comes after it. -/
theorem appended_iff (hlen : 3 ≤ (pre ++ [p]).length) (hround : ∀ x ∈ p.close, roundTo 2 x = x)
    (hday : istDay p.timestamp ≠ today) (bar : DailyBar) :
    (overlay (adjustForSplits (pre ++ [p])).1 bar today =
        (adjustForSplits (overlay (pre ++ [p]) bar today)).1 ↔ splitBetween p bar = none) ∧
      (splitBetween p bar = none →
        NoSplitLeft (overlay (adjustForSplits (pre ++ [p])).1 bar today)) := by
  have hlen' : 3 ≤ (pre ++ [p] ++ [bar]).length := by
    rw [List.length_append]
    exact hlen.trans (Nat.le_add_right _ _)
  have hnone : (pre ++ [p]).map (DailyBar.adjustBy none) = pre ++ [p] := List.map_id _
  -- the adjustment leaves the last bar as it is
  have hown := applyEvents_map_concat none pre p
  rw [hnone] at hown
  have hserved : overlay (adjustForSplits (pre ++ [p])).1 bar today =
      applyEvents (detectSplitEvents (pre ++ [p])) (pre ++ [p]) ++ [bar] := by
    rw [adjustForSplits_eq hlen, hown]
    exact overlay_append hday _ bar
  constructor
  · rw [hserved, overlay_append hday, adjustForSplits_eq hlen', applyEvents_detect_concat,
      List.append_left_inj, eq_comm (a := splitBetween p bar)]
    have hiff := @applyEvents_adjustBy_iff pre p hround none (splitBetween p bar)
      (splitAfter_none p) (splitAfter_splitBetween p bar)
    rwa [hnone] at hiff
  · intro hsplit
    rw [hserved, hown]
    exact noSplitLeft_concat hsplit _

/-- **The last bar is of today**, and the live bar takes its place. -/
theorem replaced_iff (hlen : 3 ≤ (pre ++ [p] ++ [last]).length)
    (hround : ∀ x ∈ p.close, roundTo 2 x = x) (hday : istDay last.timestamp = today)
    (bar : DailyBar) :
    (overlay (adjustForSplits (pre ++ [p] ++ [last])).1 bar today =
        (adjustForSplits (overlay (pre ++ [p] ++ [last]) bar today)).1 ↔
          splitBetween p bar = splitBetween p last) ∧
      (splitBetween p bar = splitBetween p last →
        NoSplitLeft (overlay (adjustForSplits (pre ++ [p] ++ [last])).1 bar today)) := by
  have hlen' : 3 ≤ (pre ++ [p] ++ [bar]).length := by
    rwa [List.length_append, List.length_singleton, ← List.length_singleton (a := last),
      ← List.length_append]
  have hserved : overlay (adjustForSplits (pre ++ [p] ++ [last])).1 bar today =
      applyEvents (detectSplitEvents (pre ++ [p]))
        ((pre ++ [p]).map (DailyBar.adjustBy (splitBetween p last))) ++ [bar] := by
    rw [adjustForSplits_eq hlen, applyEvents_detect_concat]
    exact overlay_replace hday _ bar
  constructor
  · rw [hserved, overlay_replace hday, adjustForSplits_eq hlen', applyEvents_detect_concat,
      List.append_left_inj, eq_comm (a := splitBetween p bar)]
    exact applyEvents_adjustBy_iff hround (splitAfter_splitBetween p last)
      (splitAfter_splitBetween p bar)
  · intro hsplit
    rw [hserved, applyEvents_map_concat, ← hsplit]
    exact noSplitLeft_concat (splitBetween_adjustBy hround bar) _

theorem splitKnown_appended (hday : istDay last.timestamp ≠ today) :
    SplitKnown (pre ++ [last]) bar today ↔ splitBetween last bar = none := by
  constructor
  · exact fun h => h.appended last List.getLast?_concat hday
  · intro h
    refine ⟨fun last' hlast _ => ?_, fun pre' p' last' e htoday => ?_⟩
    · rw [List.getLast?_concat] at hlast
      rwa [← Option.some.inj hlast]
    · have hlast := List.singleton_injective (List.append_inj' e rfl).2
      exact absurd (hlast ▸ htoday) hday

theorem splitKnown_replaced (hday : istDay last.timestamp = today) :
    SplitKnown (pre ++ [p] ++ [last]) bar today ↔ splitBetween p bar = splitBetween p last := by
  constructor
  · exact fun h => h.replaced pre p last rfl hday
  · intro h
    refine ⟨fun last' hlast hne => ?_, fun pre' p' last' e _ => ?_⟩
    · rw [List.getLast?_concat] at hlast
      exact absurd (Option.some.inj hlast ▸ hday) hne
    · obtain ⟨e, hlast⟩ := List.append_inj' e rfl
      obtain ⟨-, hp⟩ := List.append_inj' e rfl
      rw [← List.singleton_injective hlast, ← List.singleton_injective hp]
      exact h

/-- Both ways to put the live bar in. -/
theorem overlay_adjusted_iff (hlen : 3 ≤ candles.length)
    (hround : ∀ c ∈ candles, ∀ x ∈ c.close, roundTo 2 x = x) (bar : DailyBar) (today : ℤ) :
    (overlay (adjustForSplits candles).1 bar today =
        (adjustForSplits (overlay candles bar today)).1 ↔ SplitKnown candles bar today) ∧
      (SplitKnown candles bar today →
        NoSplitLeft (overlay (adjustForSplits candles).1 bar today)) := by
  rcases List.eq_nil_or_concat' candles with rfl | ⟨pre, last, rfl⟩
  · exact absurd hlen (by decide)
  · by_cases hday : istDay last.timestamp = today
    · rcases List.eq_nil_or_concat' pre with rfl | ⟨pre, p, rfl⟩
      · exact absurd hlen (by simp)
      · rw [splitKnown_replaced hday]
        exact replaced_iff hlen (hround p (by simp)) hday bar
    · rw [splitKnown_appended hday]
      exact appended_iff hlen (hround last (by simp)) hday bar

end Overlay

/-- **The adjustment and the live bar.** In market hours, of a history of at least three bars whose
    closes have two decimals: what is served is the adjustment of the history with the live bar in it
    exactly when the live bar shows no split that the history does not show; and then no split is
    left before it. -/
theorem split_today_iff {yf : Yfinance} {call : CandlesCall} {tick : DayTick} {now : ℚ}
    {r : CandlesResponse} (h : sbCandles yf call true (some tick) now = .ok r)
    (hcode : call.code = .d1) (hadjust : call.adjust = true) (hlive : call.liveLast = true)
    (hlen : 3 ≤ (call.history yf).length)
    (hround : ∀ c ∈ call.history yf, ∀ x ∈ c.close, roundTo 2 x = x) :
    (r.candles = (adjustForSplits (overlay (call.history yf) (todayBar tick now) (istDay now))).1 ↔
      SplitKnown (call.history yf) (todayBar tick now) (istDay now)) ∧
    (SplitKnown (call.history yf) (todayBar tick now) (istDay now) → NoSplitLeft r.candles) := by
  have hbar : call.liveBar true (some tick) now = some (todayBar tick now) := by
    unfold CandlesCall.liveBar CandlesCall.overlays
    rw [hlive, hcode]
    rfl
  have hseries : call.series yf = adjustForSplits (call.history yf) := by
    unfold CandlesCall.series
    dsimp only
    rw [if_pos ⟨hadjust, .inl hcode⟩]
    rfl
  have hcandles : r.candles =
      overlay (adjustForSplits (call.history yf)).1 (todayBar tick now) (istDay now) := by
    unfold sbCandles at h
    split at h
    · cases h
    · rw [← Except.ok.inj h, hbar, hseries]
      rfl
  rw [hcandles]
  exact overlay_adjusted_iff hlen hround _ _

/-- A library with the bars of three days. -/
def threeDays : Yfinance where
  between _ _ _ _ := .ok []
  period _ _ _ := .ok [⟨dayStart 20453, some 990, some 1010, some 980, some 995, 1000⟩,
    ⟨dayStart 20454, some 995, some 1005, some 990, some 1000, 1000⟩,
    ⟨dayStart 20455, some 1000, some 1010, some 990, some 1000, 1100⟩]

/-- A tick of the Monday after, at the price. -/
def mondayPrice (price : ℚ) : DayTick where
  symbol := "RELIANCE"
  exchange := .NSE
  ltp := price
  volume := 2100
  source := "groww"
  opening := price
  high := price
  low := price

theorem threeDays_history : 3 ≤ ({ symbol := "RELIANCE" : CandlesCall }.history threeDays).length ∧
    ∀ c ∈ { symbol := "RELIANCE" : CandlesCall }.history threeDays, ∀ x ∈ c.close,
      roundTo 2 x = x := by
  decide

/-- No split on the Monday. -/
theorem split_today_none : ∃ r,
    sbCandles threeDays { symbol := "RELIANCE" } true (some (mondayPrice 1010)) mondayMorning =
      .ok r ∧
    r.candles = (adjustForSplits (overlay ({ symbol := "RELIANCE" : CandlesCall }.history threeDays)
      (todayBar (mondayPrice 1010) mondayMorning) (istDay mondayMorning))).1 ∧
    NoSplitLeft r.candles := by
  obtain ⟨r, hr⟩ : ∃ r, sbCandles threeDays { symbol := "RELIANCE" } true
      (some (mondayPrice 1010)) mondayMorning = .ok r := ⟨_, rfl⟩
  obtain ⟨hiff, hleft⟩ := split_today_iff hr (by decide) rfl rfl threeDays_history.1
    threeDays_history.2
  have hhistory : { symbol := "RELIANCE" : CandlesCall }.history threeDays =
      [⟨dayStart 20453, some 990, some 1010, some 980, some 995, some 1000, none⟩,
        ⟨dayStart 20454, some 995, some 1005, some 990, some 1000, some 1000, none⟩] ++
      [⟨dayStart 20455, some 1000, some 1010, some 990, some 1000, some 1100, none⟩] := by
    decide
  have hknown : SplitKnown ({ symbol := "RELIANCE" : CandlesCall }.history threeDays)
      (todayBar (mondayPrice 1010) mondayMorning) (istDay mondayMorning) := by
    rw [hhistory]
    exact (splitKnown_appended (by decide)).mpr (by decide)
  exact ⟨r, hr, hiff.mpr hknown, hleft hknown⟩

/-- **The ex-date is today**: a split of two for one stays between Friday and Monday. -/
theorem split_today_missed : ∃ r,
    sbCandles threeDays { symbol := "RELIANCE" } true (some (mondayPrice 500)) mondayMorning =
      .ok r ∧
    r.candles ≠ (adjustForSplits (overlay
      ({ symbol := "RELIANCE" : CandlesCall }.history threeDays)
      (todayBar (mondayPrice 500) mondayMorning) (istDay mondayMorning))).1 ∧
    r.candles.map (·.close) = [some 995, some 1000, some 1000, some 500] ∧
    (detectSplitEvents r.candles).map (·.factor) = [2] :=
  ⟨_, rfl, by decide, by decide, by decide⟩

end BharatTicker
