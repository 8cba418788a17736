/-
  File:      BharatTicker/CorpActions/Accuracy.lean
  Subject:   HOW ACCURATE AN ADJUSTED BAR IS. Every factor is at least two, so the rounding of one step is
             at least halved by the next, and all of it together stays below a unit of the fourth
             decimal.

  * `RescaledBar` -- a bar and what the factors of the later events make of it, field by field;
    `rescaledBar_adjustAll`;
  * `adjustForSplitsIn` -- the function on dictionaries in memory, which it copies first;
    `adjustForSplitsIn_eq` -- the copies are what `adjustForSplits` computes, and no dictionary that was
    there before changes;
  * `adjustment_accurate` -- both together.
-/
import BharatTicker.CorpActions.Confirmed

namespace BharatTicker

open Basis

-- the concrete runs below compute with rationals
unseal Rat.add Rat.mul Rat.sub Rat.inv

namespace RawCandle

/-! ## 1. One bar -/

/-- **What several factors make of a bar**: prices within a unit of the fourth decimal of the exact ones and
    in the same order, an exact volume where it is an integer and the factors are, and nothing else. -/
structure RescaledBar (factors : List ℚ) (c c' : RawCandle) : Prop where
  price : ∀ k ∈ priceFields, ∀ q, c k = .num q →
    ∃ q', c' k = .num q' ∧ |q' - q / factors.prod| < 1 / 10000
  order : ∀ k ∈ priceFields, ∀ k' ∈ priceFields, ∀ x y, c k = .num x → c k' = .num y → x ≤ y →
    ∃ x' y', c' k = .num x' ∧ c' k' = .num y' ∧ x' ≤ y'
  volume : ∀ v : ℤ, c "volume" = .num v → (∀ f ∈ factors, ∃ n : ℤ, (n : ℚ) = f) →
    c' "volume" = .num (v * factors.prod)
  missing : ∀ k ∈ "volume" :: priceFields, c k = .none → c' k = .none
  other : ∀ k ∉ "volume" :: priceFields, c' k = c k

theorem rescaledBar_adjustAll {factors : List ℚ} (h : ∀ f ∈ factors, 2 ≤ f) (c : RawCandle) :
    RescaledBar factors c (adjustAll factors c) where
  price k hk q hq := by
    refine ⟨_, adjustAll_price factors hk hq, ?_⟩
    have hlt := abs_divRounded_sub_lt (d := 4) q h
    norm_num at hlt ⊢
    exact hlt
  order k hk k' hk' x y hx hy hle :=
    ⟨_, _, adjustAll_price factors hk hx, adjustAll_price factors hk' hy,
      divRounded_mono 4 (fun f hf => zero_le_two.trans (h f hf)) hle⟩
  volume v hv hint := by
    rw [adjustAll_volume factors hv, (mulTruncated_intCast v hint).1]
  missing k hk hnone := adjustAll_none factors hk hnone
  other k hk := adjustAll_other factors hk

theorem laterFactors_two_le {candles : List RawCandle} {j : ℕ} :
    ∀ f ∈ laterFactors (detectSplitEvents candles) j, 2 ≤ f := by
  have htwo : ∀ g ∈ splitFactors, (2 : ℚ) ≤ g := by decide
  intro f hf
  obtain ⟨ev, hev, rfl⟩ := List.mem_map.mp hf
  obtain ⟨i, h, -, -, hsplit⟩ :=
    mem_detectSplitEvents.1 (List.mem_reverse.mp (List.mem_filter.mp hev).1)
  exact htwo _ (splitBetween_eq_some_iff.1 hsplit).2.1

/-- No event comes after the bar. -/
theorem laterFactors_eq_nil {events : List RawEvent} {j : ℕ} (h : ∀ ev ∈ events, ev.index ≤ j) :
    laterFactors events j = [] := by
  unfold laterFactors
  rw [List.filter_eq_nil_iff.mpr, List.map_nil]
  intro ev hev
  have := h ev (List.mem_reverse.mp hev)
  simp only [decide_eq_true_eq, not_lt]
  exact this

/-! ## 2. In memory -/

/-- The dictionaries in memory, each at its address. -/
abbrev Dicts := List RawCandle

/-- The dictionary at an address. -/
def Dicts.at (dicts : Dicts) (a : ℕ) : RawCandle := dicts.getD a fun _ => .none

/-- `[dict(c) for c in candles]`: new dictionaries behind the others, and their addresses. -/
def Dicts.copy (dicts : Dicts) (candles : List ℕ) : Dicts × List ℕ :=
  (dicts ++ candles.map dicts.at, (List.range candles.length).map (dicts.length + ·))

/-- The loop over the bars before an event, which writes into their dictionaries. -/
def Dicts.adjustBefore (out : List ℕ) (dicts : Dicts) (ev : RawEvent) : Dicts :=
  (out.take ev.index).foldl (fun dicts a => dicts.modify a (adjust ev.factor)) dicts

/-- `adjust_for_splits` on dictionaries in memory: the memory after it, the addresses it returns, and the
    events. -/
def adjustForSplitsIn (dicts : Dicts) (candles : List ℕ) : Dicts × List ℕ × List RawEvent :=
  if candles.length < 3 then
    let (dicts, out) := dicts.copy candles
    (dicts, out, [])
  else
    let events := detectSplitEvents (candles.map dicts.at)
    let (dicts, out) := dicts.copy candles
    (events.reverse.foldl (Dicts.adjustBefore out) dicts, out, events)

section Memory

variable {dicts copies : Dicts} {candles : List ℕ}

theorem at_before {a : ℕ} (ha : a < dicts.length) : Dicts.at (dicts ++ copies) a = dicts.at a :=
  List.getD_append _ _ _ _ ha

theorem at_behind {j : ℕ} (hj : j < copies.length) :
    Dicts.at (dicts ++ copies) (dicts.length + j) = copies[j] := by
  unfold Dicts.at
  rw [List.getD_append_right _ _ _ _ (Nat.le_add_right _ _), Nat.add_sub_cancel_left,
    List.getD_eq_getElem _ _ hj]

theorem modify_behind (dicts copies : Dicts) (g : RawCandle → RawCandle) (j : ℕ) :
    (dicts ++ copies).modify (dicts.length + j) g = dicts ++ copies.modify j g := by
  induction dicts with
  | nil => simp
  | cons c dicts ih =>
    rw [List.length_cons, Nat.succ_add, List.cons_append, List.modify_succ_cons, ih, List.cons_append]

/-- Writes at the first addresses of the copies. -/
theorem foldl_modify_behind (dicts copies : Dicts) (g : RawCandle → RawCandle) (i : ℕ) :
    ((List.range i).map (dicts.length + ·)).foldl (fun d a => d.modify a g) (dicts ++ copies) =
      dicts ++ copies.mapIdx fun j c => if j < i then g c else c := by
  induction i with
  | zero =>
    have hid : (copies.mapIdx fun j c => if j < 0 then g c else c) = copies :=
      List.ext_getElem (by simp) fun j h₁ h₂ => by simp
    rw [hid]
    rfl
  | succ i ih =>
    rw [List.range_succ, List.map_append, List.foldl_append, ih, List.map_singleton, List.foldl_cons,
      List.foldl_nil, modify_behind]
    congr 1
    refine List.ext_getElem (by simp) fun j h₁ h₂ => ?_
    rw [List.getElem_modify, List.getElem_mapIdx, List.getElem_mapIdx]
    rcases lt_trichotomy j i with hlt | rfl | hgt
    · rw [if_neg (by omega), if_pos hlt, if_pos (by omega)]
    · rw [if_pos rfl, if_neg (by omega), if_pos (by omega)]
    · rw [if_neg (by omega), if_neg (by omega), if_neg (by omega)]

/-- **The loop writes into the copies alone.** -/
theorem adjustBefore_behind (dicts copies : Dicts) (ev : RawEvent) :
    Dicts.adjustBefore ((List.range copies.length).map (dicts.length + ·)) (dicts ++ copies) ev =
      dicts ++ adjustBefore copies ev := by
  unfold Dicts.adjustBefore adjustBefore
  rw [← List.map_take, List.take_range, foldl_modify_behind]
  congr 1
  refine List.ext_getElem (by simp) fun j h₁ h₂ => ?_
  rw [List.length_mapIdx] at h₁
  rw [List.getElem_mapIdx, List.getElem_mapIdx]
  by_cases hlt : j < ev.index
  · rw [if_pos hlt, if_pos (lt_min hlt h₁)]
  · rw [if_neg hlt, if_neg fun h => hlt (h.trans_le (min_le_left _ _))]

theorem foldl_adjustBefore_behind (dicts copies : Dicts) (events : List RawEvent) :
    events.foldl (Dicts.adjustBefore ((List.range copies.length).map (dicts.length + ·)))
      (dicts ++ copies) = dicts ++ events.foldl adjustBefore copies := by
  induction events generalizing copies with
  | nil => rfl
  | cons ev events ih =>
    have hlen : (adjustBefore copies ev).length = copies.length := List.length_mapIdx
    rw [List.foldl_cons, adjustBefore_behind, ← hlen, ih]
    rfl

/-- **In memory, too**: the copies become what `adjustForSplits` computes; the dictionaries that were there
    before stay in front of them as they were. -/
theorem adjustForSplitsIn_eq (dicts : Dicts) (candles : List ℕ) :
    adjustForSplitsIn dicts candles =
      (dicts ++ (adjustForSplits (candles.map dicts.at)).1,
        (List.range candles.length).map (dicts.length + ·),
        (adjustForSplits (candles.map dicts.at)).2) := by
  unfold adjustForSplitsIn adjustForSplits Dicts.copy
  rw [List.length_map]
  split_ifs
  · rfl
  · have hfold := foldl_adjustBefore_behind dicts (candles.map dicts.at)
      (detectSplitEvents (candles.map dicts.at)).reverse
    rw [List.length_map] at hfold
    dsimp only
    rw [hfold]

end Memory

/-- **The adjustment is accurate.** For at least three candles in memory: the returned bars are new
    dictionaries, each the bar at its place rescaled by the factors of the events after it; a bar that no
    event comes after is the same; and no dictionary that was there before is changed. -/
theorem adjustment_accurate (dicts : Dicts) (candles : List ℕ) (h3 : 3 ≤ candles.length) :
    let r := adjustForSplitsIn dicts candles
    r.2.2 = detectSplitEvents (candles.map dicts.at) ∧ r.2.1.length = candles.length ∧
      (∀ (j : ℕ) (a a' : ℕ), candles[j]? = some a → r.2.1[j]? = some a' →
        dicts.length ≤ a' ∧
          RescaledBar (laterFactors r.2.2 j) (dicts.at a) (r.1.at a') ∧
          ((∀ ev ∈ r.2.2, ev.index ≤ j) → r.1.at a' = dicts.at a)) ∧
      ∀ a < dicts.length, r.1.at a = dicts.at a := by
  have hlen : 3 ≤ (candles.map dicts.at).length := by rwa [List.length_map]
  have hevents : (adjustForSplits (candles.map dicts.at)).2 =
      detectSplitEvents (candles.map dicts.at) := congrArg Prod.snd (adjustForSplits_eq hlen)
  dsimp only
  rw [adjustForSplitsIn_eq]
  refine ⟨hevents, by simp, fun j a a' ha ha' => ?_, fun a ha => ?_⟩
  · obtain ⟨hj, rfl⟩ := List.getElem?_eq_some_iff.mp ha
    have hj₁ : j < (candles.map dicts.at).length := by rwa [List.length_map]
    have hj₂ : j < (adjustForSplits (candles.map dicts.at)).1.length := by
      rwa [length_adjustForSplits]
    dsimp only at ha' ⊢
    rw [List.getElem?_map, List.getElem?_range hj] at ha'
    obtain rfl : dicts.length + j = a' := Option.some.inj ha'
    -- the copy at the place of the bar
    have hbar : Dicts.at (dicts ++ (adjustForSplits (candles.map dicts.at)).1) (dicts.length + j) =
        adjustAll (laterFactors (detectSplitEvents (candles.map dicts.at)) j)
          (dicts.at candles[j]) := by
      rw [at_behind hj₂, adjustForSplits_getElem hlen hj₁ hj₂, List.getElem_map]
    rw [hbar, hevents]
    refine ⟨Nat.le_add_right _ _, rescaledBar_adjustAll laterFactors_two_le _, fun hlast => ?_⟩
    rw [laterFactors_eq_nil hlast]
    rfl
  · exact at_before ha

/-- Three bars in memory, with a split before the last one. -/
def halving : Dicts := [flat 101 1000, flat 100 1000, flat 50 2100]

/-- The first bar is half of what it was. -/
theorem halving_accurate : ∃ q, (adjustForSplitsIn halving [0, 1, 2]).1.at 3 "close" = .num q ∧
    |q - 101 / 2| < 1 / 10000 := by
  obtain ⟨-, -, hbars, -⟩ := adjustment_accurate halving [0, 1, 2] (by decide)
  obtain ⟨-, hbar, -⟩ := hbars 0 0 3 rfl (by decide)
  have hfactor : (laterFactors (adjustForSplitsIn halving [0, 1, 2]).2.2 0).prod = 2 := by
    decide
  rw [← hfactor]
  exact hbar.price "close" (by decide) 101 (by decide)

end RawCandle

end BharatTicker
