/-
  File:      BharatTicker/SbCandles/Sane.lean
  Subject:   WHEN THE SERVED DAILY CANDLES ARE SANE. The adjustment and the place of the live bar keep a
             sane history sane; the bar itself is put together from fields of a tick that nothing
             compares.

  * `DailyBar.Sane`, `SaneHistory`, `SaneSeries` -- candles whose open and close lie in their range,
    one for a day;
  * `series_sane`, `overlay_days` -- what the adjustment and the overlay keep;
  * `DayTick.InRange`, `todayBar_sane_iff` -- the ticks that make a sane bar;
  * `sane_candles_iff`, `sane_candles_lagging` -- the endpoint, and a high that lags the price.
-/
import BharatTicker.Basis.Bar
import BharatTicker.IntradayStore
import BharatTicker.SbCandles

namespace BharatTicker

open Basis

-- the concrete runs below compute with rationals
unseal Rat.add Rat.mul Rat.sub Rat.inv

/-! ## 1. Sane candles -/

/-- No price is missing, and open and close lie between low and high. -/
def DailyBar.Sane (c : DailyBar) : Prop :=
  ∃ b : RowBar, b.Sane ∧ c.opening = some b.opening ∧ c.high = some b.high ∧ c.low = some b.low ∧
    c.close = some b.close

theorem DailyBar.sane_iff {c : DailyBar} : c.Sane ↔ ∃ o ∈ c.opening, ∃ h ∈ c.high, ∃ l ∈ c.low,
    ∃ cl ∈ c.close, (l ≤ o ∧ o ≤ h) ∧ l ≤ cl ∧ cl ≤ h := by
  constructor
  · intro hsane
    obtain ⟨b, hb, ho, hh, hl, hc⟩ := hsane
    exact ⟨_, ho, _, hh, _, hl, _, hc, hb.opening, hb.close⟩
  · intro hex
    obtain ⟨o, ho, h, hh, l, hl, cl, hc, hopen, hclose⟩ := hex
    exact ⟨⟨o, h, l, cl, 0⟩, ⟨hopen, hclose⟩, ho, hh, hl, hc⟩

instance (c : DailyBar) : Decidable c.Sane := decidable_of_iff _ DailyBar.sane_iff.symm

/-- The candles of the history, as they come. -/
def CandlesCall.history (call : CandlesCall) (yf : Yfinance) : List DailyBar :=
  (normCandles (getHistory yf (canonicalSymbol call.symbol) call.exchange call.code.str none
    (some call.limit))).map SbCandle.daily

/-- Sane candles of distinct days, none of which is after today. -/
structure SaneHistory (candles : List DailyBar) (today : ℤ) : Prop where
  sane : ∀ c ∈ candles, c.Sane
  distinct : (candles.map fun c => istDay c.timestamp).Nodup
  past : ∀ c ∈ candles, istDay c.timestamp ≤ today

/-- Sane candles in the strict order of their times, at most one of which is of today. -/
structure SaneSeries (candles : List DailyBar) (today : ℤ) : Prop where
  sane : ∀ c ∈ candles, c.Sane
  ascending : candles.Pairwise fun c d => c.timestamp < d.timestamp
  oneToday : (candles.filter fun c => istDay c.timestamp = today).length ≤ 1

/-- The price lies in the range of the day, and so does the open; a field at zero is not known, and the
    price stands for it. -/
structure DayTick.InRange (tick : DayTick) : Prop where
  low : tick.low ≠ 0 → tick.low ≤ tick.ltp ∧ (tick.opening ≠ 0 → tick.low ≤ tick.opening)
  noLow : tick.low = 0 → tick.opening ≠ 0 → tick.ltp ≤ tick.opening
  high : tick.high ≠ 0 → tick.ltp ≤ tick.high ∧ (tick.opening ≠ 0 → tick.opening ≤ tick.high)
  noHigh : tick.high = 0 → tick.opening ≠ 0 → tick.opening ≤ tick.ltp

/-! ## 2. The adjustment -/

section Adjust

variable {candles : List DailyBar} {today : ℤ}

theorem mem_splitFactors_pos {f : ℚ} (h : f ∈ splitFactors) : 0 < f := by
  revert f
  decide

theorem detectSplitEvents_factor {ev : SplitEvent} (h : ev ∈ detectSplitEvents candles) :
    ev.factor ∈ splitFactors := by
  unfold detectSplitEvents at h
  obtain ⟨x, -, hx⟩ := List.mem_filterMap.mp h
  obtain ⟨f, hf, rfl⟩ := Option.map_eq_some_iff.mp hx
  exact (splitBetween_eq_some hf).2.2.1

/-- **A bar that is rescaled stays sane**: division and rounding are monotone. -/
theorem DailyBar.Sane.adjust {c : DailyBar} (h : c.Sane) {f : ℚ} (hf : 0 < f) :
    (c.adjust f).Sane := by
  obtain ⟨b, hb, ho, hh, hl, hc⟩ := h
  have hmono : Monotone fun x : ℚ => roundTo 4 (x / f) := fun x y hxy =>
    roundTo_mono 4 (div_le_div_of_nonneg_right hxy hf.le)
  refine ⟨b.map (fun x => roundTo 4 (x / f)) id, hb.map hmono id, ?_, ?_, ?_, ?_⟩ <;>
    simp [DailyBar.adjust, Bar.map, ho, hh, hl, hc]

theorem adjustBefore_sane {ev : SplitEvent} (hev : 0 < ev.factor) (h : ∀ c ∈ candles, c.Sane) :
    ∀ c ∈ adjustBefore candles ev, c.Sane := by
  intro c hc
  obtain ⟨j, hj, rfl⟩ := List.mem_mapIdx.mp hc
  have hsane := h candles[j] (List.getElem_mem hj)
  split
  · exact hsane.adjust hev
  · exact hsane

theorem foldl_adjustBefore_sane {events : List SplitEvent} (hev : ∀ ev ∈ events, 0 < ev.factor)
    (h : ∀ c ∈ candles, c.Sane) : ∀ c ∈ events.foldl adjustBefore candles, c.Sane := by
  induction events generalizing candles with
  | nil => exact h
  | cons ev events ih =>
    exact ih (fun e he => hev e (List.mem_cons_of_mem ev he))
      (adjustBefore_sane (hev ev List.mem_cons_self) h)

theorem adjustForSplits_sane (h : ∀ c ∈ candles, c.Sane) :
    ∀ c ∈ (adjustForSplits candles).1, c.Sane := by
  unfold adjustForSplits
  split
  · exact h
  · refine foldl_adjustBefore_sane (fun ev hev => ?_) h
    exact mem_splitFactors_pos (detectSplitEvents_factor (List.mem_reverse.mp hev))

end Adjust

/-! ## 3. Days -/

section Days

variable {candles : List DailyBar} {bar : DailyBar} {today : ℤ}

/-- The days that candles are dated on. -/
def candleDays (candles : List DailyBar) : List ℤ := candles.map fun c => istDay c.timestamp

theorem candleDays_eq_of_timestamps {candles' : List DailyBar}
    (h : candles'.map (·.timestamp) = candles.map (·.timestamp)) :
    candleDays candles' = candleDays candles := by
  have hdays := congrArg (List.map istDay) h
  rwa [List.map_map, List.map_map] at hdays

/-- The history comes sorted, so that its days ascend. -/
theorem history_days {call : CandlesCall} {yf : Yfinance}
    (h : SaneHistory (call.history yf) today) :
    (candleDays (call.history yf)).Pairwise (· < ·) := by
  have hle : (candleDays (call.history yf)).Pairwise (· ≤ ·) := by
    unfold candleDays CandlesCall.history
    rw [List.map_map]
    exact List.pairwise_map.mpr ((insertionSort_key SbCandle.timestamp _).imp fun hcd =>
      istDay_mono hcd)
  exact (hle.and h.distinct).imp fun hd => lt_of_le_of_ne hd.1 hd.2

/-- Candles of ascending days are in the order of their times, one for a day. -/
theorem ascending_of_days (h : (candleDays candles).Pairwise (· < ·)) (today : ℤ) :
    (candles.Pairwise fun c d => c.timestamp < d.timestamp) ∧
      (candles.filter fun c => istDay c.timestamp = today).length ≤ 1 := by
  constructor
  · refine (List.pairwise_map.mp h).imp fun {c d} hcd => ?_
    by_contra hle
    exact absurd (istDay_mono (not_lt.mp hle)) (not_le.mpr hcd)
  · have hcount := List.nodup_iff_count_le_one.mp (h.imp fun hlt => ne_of_lt hlt) today
    rw [List.count_eq_length_filter, candleDays, List.filter_map, List.length_map] at hcount
    refine le_trans (le_of_eq ?_) hcount
    congr 2

/-- **The live bar takes the place of today's**, or comes after the others. -/
theorem overlay_days (h : (candleDays candles).Pairwise (· < ·))
    (hpast : ∀ c ∈ candles, istDay c.timestamp ≤ today) (hbar : istDay bar.timestamp = today) :
    (candleDays (overlay candles bar today)).Pairwise (· < ·) := by
  have hconcat : ∀ {l : List DailyBar}, (candleDays l).Pairwise (· < ·) →
      (∀ c ∈ l, istDay c.timestamp < today) → (candleDays (l ++ [bar])).Pairwise (· < ·) := by
    intro l hl hlt
    unfold candleDays at hl ⊢
    rw [List.map_append]
    refine List.pairwise_append.mpr ⟨hl, List.pairwise_singleton .., fun k hk k' hk' => ?_⟩
    obtain ⟨c, hc, rfl⟩ := List.mem_map.mp hk
    rw [List.map_singleton, List.mem_singleton] at hk'
    rw [hk', hbar]
    exact hlt c hc
  rcases List.eq_nil_or_concat' candles with rfl | ⟨pre, last, rfl⟩
  · exact hconcat List.Pairwise.nil fun c hc => by cases hc
  · have hsplit := h
    unfold candleDays at hsplit
    rw [List.map_append, List.map_singleton] at hsplit
    obtain ⟨hpre, -, hlt⟩ := List.pairwise_append.mp hsplit
    have hbefore : ∀ c ∈ pre, istDay c.timestamp < istDay last.timestamp := fun c hc =>
      hlt _ (List.mem_map_of_mem hc) _ (List.mem_singleton.mpr rfl)
    have hle : istDay last.timestamp ≤ today := hpast last (by simp)
    unfold overlay
    rw [List.getLast?_concat]
    dsimp only
    split_ifs with hlast
    · rw [List.dropLast_concat]
      exact hconcat hpre fun c hc => hlast ▸ hbefore c hc
    · have hlastlt : istDay last.timestamp < today := lt_of_le_of_ne hle hlast
      refine hconcat h fun c hc => ?_
      rcases List.mem_append.mp hc with hc | hc
      · exact (hbefore c hc).trans hlastlt
      · rwa [List.mem_singleton.mp hc]

theorem mem_overlay {c : DailyBar} (hc : c ∈ overlay candles bar today) : c ∈ candles ∨ c = bar := by
  have hlast := overlay_getLast? candles bar today
  have hfront := overlay_dropLast candles bar today
  obtain ⟨pre, hpre⟩ := List.getLast?_eq_some_iff.mp hlast
  rw [hpre] at hc hfront
  rw [List.dropLast_concat] at hfront
  rcases List.mem_append.mp hc with hc | hc
  · exact .inl (hfront.subset hc)
  · exact .inr (List.mem_singleton.mp hc)

end Days

/-! ## 4. The endpoint -/

/-- The prices of the live bar, and how they must lie. -/
theorem todayBar_sane_iff_prices (tick : DayTick) (now : ℚ) :
    (todayBar tick now).Sane ↔
      ((if tick.low ≠ 0 then tick.low else tick.ltp) ≤
          (if tick.opening ≠ 0 then tick.opening else tick.ltp) ∧
        (if tick.opening ≠ 0 then tick.opening else tick.ltp) ≤
          (if tick.high ≠ 0 then tick.high else tick.ltp)) ∧
      (if tick.low ≠ 0 then tick.low else tick.ltp) ≤ tick.ltp ∧
        tick.ltp ≤ (if tick.high ≠ 0 then tick.high else tick.ltp) := by
  constructor
  · intro h
    obtain ⟨b, hb, ho, hh, hl, hc⟩ := h
    have ho := Option.some.inj ho
    have hh := Option.some.inj hh
    have hl := Option.some.inj hl
    have hc := Option.some.inj hc
    rw [ho, hh, hl, hc]
    exact ⟨hb.opening, hb.close⟩
  · intro h
    exact ⟨⟨_, _, _, tick.ltp, 0⟩, ⟨h.1, h.2⟩, rfl, rfl, rfl, rfl⟩

/-- **A tick makes a sane bar** exactly when it is in its own range. -/
theorem todayBar_sane_iff (tick : DayTick) (now : ℚ) :
    (todayBar tick now).Sane ↔ tick.InRange := by
  rw [todayBar_sane_iff_prices]
  constructor
  · intro h
    obtain ⟨⟨hlo, hoh⟩, hlc, hch⟩ := h
    exact {
      low := fun hl => by
        rw [if_pos hl] at hlo hlc
        exact ⟨hlc, fun ho => by rwa [if_pos ho] at hlo⟩
      noLow := fun hl ho => by rwa [if_neg (not_not.mpr hl), if_pos ho] at hlo
      high := fun hh => by
        rw [if_pos hh] at hoh hch
        exact ⟨hch, fun ho => by rwa [if_pos ho] at hoh⟩
      noHigh := fun hh ho => by rwa [if_neg (not_not.mpr hh), if_pos ho] at hoh }
  · intro h
    have hlc : (if tick.low ≠ 0 then tick.low else tick.ltp) ≤ tick.ltp := by
      split_ifs with hl
      · exact (h.low hl).1
      · exact le_refl _
    have hch : tick.ltp ≤ (if tick.high ≠ 0 then tick.high else tick.ltp) := by
      split_ifs with hh
      · exact (h.high hh).1
      · exact le_refl _
    refine ⟨⟨?_, ?_⟩, hlc, hch⟩
    · by_cases ho : tick.opening ≠ 0
      · rw [if_pos ho]
        split_ifs with hl
        · exact (h.low hl).2 ho
        · exact h.noLow (not_not.mp hl) ho
      · rwa [if_neg ho]
    · by_cases ho : tick.opening ≠ 0
      · rw [if_pos ho]
        split_ifs with hh
        · exact (h.high hh).2 ho
        · exact h.noHigh (not_not.mp hh) ho
      · rwa [if_neg ho]

section Series

variable {yf : Yfinance} {call : CandlesCall} {today : ℤ}

/-- The series is the history, with its stamps and its order of prices. -/
theorem series_sane (h : SaneHistory (call.history yf) today) :
    (∀ c ∈ (call.series yf).1, c.Sane) ∧
      (call.series yf).1.map (·.timestamp) = (call.history yf).map (·.timestamp) := by
  have hseries : call.series yf = if call.adjust = true ∧ (call.code = .d1 ∨ call.code = .w1) then
      adjustForSplits (call.history yf) else (call.history yf, []) := rfl
  rw [hseries]
  split_ifs
  · exact ⟨adjustForSplits_sane h.sane, adjustForSplits_timestamp _⟩
  · exact ⟨h.sane, rfl⟩

theorem series_past (h : SaneHistory (call.history yf) today) :
    ∀ c ∈ (call.series yf).1, istDay c.timestamp ≤ today := by
  intro c hc
  have hmem := List.mem_map_of_mem (f := fun c : DailyBar => c.timestamp) hc
  rw [(series_sane h).2] at hmem
  obtain ⟨d, hd, e⟩ := List.mem_map.mp hmem
  exact e ▸ h.past d hd

end Series

/-- **Sane candles.** Of a sane history, adjusted or not, with or without a live bar: what is served is
    sane exactly when the tick of the live bar, if one is put in, is in its own range. -/
theorem sane_candles_iff {yf : Yfinance} {call : CandlesCall} {marketOpen : Bool}
    {quote : Option DayTick} {now : ℚ} {r : CandlesResponse}
    (h : sbCandles yf call marketOpen quote now = .ok r)
    (hhistory : SaneHistory (call.history yf) (istDay now)) :
    SaneSeries r.candles (istDay now) ↔
      ∀ tick ∈ quote, call.overlays marketOpen = true → tick.InRange := by
  obtain ⟨hsane, hstamps⟩ := series_sane hhistory
  have hdays : (candleDays (call.series yf).1).Pairwise (· < ·) := by
    rw [candleDays_eq_of_timestamps hstamps]
    exact history_days hhistory
  unfold sbCandles at h
  split at h
  · cases h
  · rw [← Except.ok.inj h]
    unfold CandlesCall.response
    cases hlive : call.liveBar marketOpen quote now with
    | none =>
      -- no live bar is put in
      obtain ⟨hasc, hone⟩ := ascending_of_days hdays (istDay now)
      refine iff_of_true ⟨hsane, hasc, hone⟩ fun tick htick hover => ?_
      unfold CandlesCall.liveBar at hlive
      rw [if_pos hover, Option.mem_def.mp htick] at hlive
      cases hlive
    | some bar =>
      obtain ⟨hover, hbar⟩ := Option.ite_none_right_eq_some.mp hlive
      obtain ⟨tick, rfl, rfl⟩ := Option.map_eq_some_iff.mp hbar
      have hoverlay : (candleDays (overlay (call.series yf).1 (todayBar tick now)
          (istDay now))).Pairwise (· < ·) :=
        overlay_days hdays (series_past hhistory) (istDay_dayStart _)
      obtain ⟨hasc, hone⟩ := ascending_of_days hoverlay (istDay now)
      constructor
      · intro hserved tick' htick' _
        obtain rfl := Option.some.inj htick'
        exact (todayBar_sane_iff tick now).mp
          (hserved.sane _ (List.mem_of_getLast? (overlay_getLast? _ _ _)))
      · intro hrange
        refine ⟨fun c hc => ?_, hasc, hone⟩
        rcases mem_overlay hc with hc | rfl
        · exact hsane c hc
        · exact (todayBar_sane_iff tick now).mpr (hrange tick rfl hover)

/-- A library with the bars of a Thursday and a Friday. -/
def thursdayFriday : Yfinance where
  between _ _ _ _ := .ok []
  period _ _ _ := .ok [⟨dayStart 20454, some 98, some 100, some 97, some 99, 1000⟩,
    ⟨dayStart 20455, some 99, some 101, some 98, some 100, 1100⟩]

/-- A tick of the Monday after, whose price is 102. -/
def mondayTick (high : ℚ) : DayTick where
  symbol := "RELIANCE"
  exchange := .NSE
  ltp := 102
  volume := 500
  source := "groww"
  opening := 100
  high := high
  low := 99

/-- Ten o'clock on the Monday. -/
def mondayMorning : ℚ := dayStart 20458 + 36000

theorem thursdayFriday_sane : SaneHistory ({ symbol := "RELIANCE" : CandlesCall }.history thursdayFriday)
    (istDay mondayMorning) :=
  ⟨by decide, by decide, by decide⟩

theorem sane_candles_ranged :
    ∃ r, sbCandles thursdayFriday { symbol := "RELIANCE" } true (some (mondayTick 103)) mondayMorning =
      .ok r ∧ SaneSeries r.candles (istDay mondayMorning) := by
  obtain ⟨r, hr⟩ : ∃ r, sbCandles thursdayFriday { symbol := "RELIANCE" } true (some (mondayTick 103))
      mondayMorning = .ok r := ⟨_, rfl⟩
  refine ⟨r, hr, (sane_candles_iff hr thursdayFriday_sane).mpr fun tick htick _ => ?_⟩
  obtain rfl := Option.some.inj htick
  exact ⟨by decide, by decide, by decide, by decide⟩

/-- A high that lags the price is served as it is. -/
theorem sane_candles_lagging :
    ∃ r, sbCandles thursdayFriday { symbol := "RELIANCE" } true (some (mondayTick 101)) mondayMorning =
      .ok r ∧ SaneHistory ({ symbol := "RELIANCE" : CandlesCall }.history thursdayFriday)
        (istDay mondayMorning) ∧
      r.candles.getLast?.map (fun c => (c.high, c.close)) = some (some 101, some 102) ∧
      ¬ SaneSeries r.candles (istDay mondayMorning) := by
  refine ⟨_, rfl, thursdayFriday_sane, by decide, fun h => ?_⟩
  have hlast := h.sane (todayBar (mondayTick 101) mondayMorning) (by decide)
  revert hlast
  decide

end BharatTicker
