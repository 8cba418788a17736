/-
  File:      BharatTicker/Basis/TokenBucket.lean
  Subject:   THE TOKEN BUCKET. Library: no program fact.

  A bucket holds up to `capacity` tokens, fills at a constant flow, and a token is taken out at a time
  when there is one.

  * `Bucket`, `Bucket.fill`, `Bucket.take` -- the bucket;
  * `Budget` -- what a bucket and the times tokens were taken at satisfy: the tokens taken since a time,
    with those that are left, are never more than the capacity and what has flown in since;
  * `Budget.fill`, `Budget.take` -- both operations keep it;
  * `Budget.window` -- so no window of time sees more taken than the capacity and the flow of that
    window;
  * `Replenished` -- the other side: the tokens taken since a time, with those that are left, are at
    least what has flown in since, up to one token; `Replenished.fill`, `Replenished.take` keep it, and
    `Replenished.ready` finds the token where none was taken.

  Over any ordered field.
-/
import Mathlib

namespace Basis

variable {K : Type*}

/-- The tokens, as of the time the bucket was filled last. -/
structure Bucket (K : Type*) where
  level : K
  filledAt : K

section Bucket

variable [Field K] [LinearOrder K]

def Bucket.fill (capacity flow now : K) (b : Bucket K) : Bucket K where
  level := min capacity (b.level + (now - b.filledAt) * flow)
  filledAt := now

def Bucket.take (b : Bucket K) : Bucket K := { b with level := b.level - 1 }

end Bucket

section Count

variable [LinearOrder K] {first last last' now : K} {times : List K}

/-- How many of the times lie in a window, both ends included. -/
def countWithin (first last : K) (times : List K) : ℕ :=
  times.countP fun t => first ≤ t ∧ t ≤ last

/-- A window that ends after the last time sees as much as one that ends with it. -/
theorem countWithin_of_past (h : ∀ t ∈ times, t ≤ last) (hle : last ≤ last') :
    countWithin first last' times = countWithin first last times := by
  refine List.countP_congr fun t ht => ?_
  simp only [decide_eq_true_eq, and_congr_right_iff]
  exact fun _ => iff_of_true ((h t ht).trans hle) (h t ht)

/-- A window after all the times sees none. -/
theorem countWithin_eq_zero (h : ∀ t ∈ times, t < first) : countWithin first last times = 0 := by
  refine List.countP_eq_zero.mpr fun t ht => ?_
  simp only [decide_eq_true_eq, not_and, not_le]
  exact fun hle => absurd hle (not_le.mpr (h t ht))

theorem countWithin_cons_within (h : first ≤ now ∧ now ≤ last) :
    countWithin first last (now :: times) = countWithin first last times + 1 :=
  List.countP_cons_of_pos (decide_eq_true h)

theorem countWithin_cons_outside (h : ¬ (first ≤ now ∧ now ≤ last)) :
    countWithin first last (now :: times) = countWithin first last times :=
  List.countP_cons_of_neg (by simpa using h)

end Count

section Budget

variable [Field K] [LinearOrder K]

/-- **The budget of a bucket**, with the times tokens were taken at. -/
structure Budget (capacity flow : K) (b : Bucket K) (taken : List K) : Prop where
  nonneg : 0 ≤ b.level
  level_le : b.level ≤ capacity
  past : ∀ t ∈ taken, t ≤ b.filledAt
  /-- The tokens taken since a time, and those that are left, had to flow in or be there before. -/
  since : ∀ first ≤ b.filledAt, (countWithin first b.filledAt taken : K) + b.level ≤
    capacity + (b.filledAt - first) * flow
  /-- No window sees more than the capacity and its flow. -/
  window : ∀ first last, first ≤ last →
    (countWithin first last taken : K) ≤ capacity + (last - first) * flow

variable {capacity flow : K} {b : Bucket K} {taken : List K} [IsStrictOrderedRing K]

/-- A full bucket, nothing taken. -/
theorem Budget.full (hc : 0 ≤ capacity) (hf : 0 ≤ flow) (now : K) :
    Budget capacity flow ⟨capacity, now⟩ [] where
  nonneg := hc
  level_le := le_refl _
  past := nofun
  since first hle := by
    have := mul_nonneg (sub_nonneg.mpr hle) hf
    simp only [countWithin, List.countP_nil, Nat.cast_zero, zero_add]
    linarith
  window first last hle := by
    have := mul_nonneg (sub_nonneg.mpr hle) hf
    simp only [countWithin, List.countP_nil, Nat.cast_zero]
    linarith

/-- **Filling keeps the budget.** -/
theorem Budget.fill (h : Budget capacity flow b taken) (hf : 0 ≤ flow) {now : K}
    (hnow : b.filledAt ≤ now) : Budget capacity flow (b.fill capacity flow now) taken where
  nonneg := by
    have hin := mul_nonneg (sub_nonneg.mpr hnow) hf
    exact le_min (h.nonneg.trans h.level_le) (add_nonneg h.nonneg hin)
  level_le := min_le_left _ _
  past t ht := (h.past t ht).trans hnow
  since first hle := by
    dsimp only [Bucket.fill]
    by_cases hfirst : first ≤ b.filledAt
    · -- what was taken since then was taken before the fill
      have hsince := h.since first hfirst
      have hlevel := min_le_right capacity (b.level + (now - b.filledAt) * flow)
      rw [countWithin_of_past h.past hnow]
      linarith
    · -- nothing was taken since then
      have hin : 0 ≤ (now - first) * flow := mul_nonneg (sub_nonneg.mpr hle) hf
      have hlevel := min_le_left capacity (b.level + (now - b.filledAt) * flow)
      rw [countWithin_eq_zero fun t ht => (h.past t ht).trans_lt (not_le.mp hfirst), Nat.cast_zero]
      linarith
  window := h.window

/-- **Taking a token that is there keeps the budget.** -/
theorem Budget.take (h : Budget capacity flow b taken) (hf : 0 ≤ flow) (hone : 1 ≤ b.level) :
    Budget capacity flow b.take (b.filledAt :: taken) where
  nonneg := sub_nonneg.mpr hone
  level_le := (sub_le_self _ zero_le_one).trans h.level_le
  past t ht := by
    rcases List.mem_cons.mp ht with rfl | ht
    · exact le_refl _
    · exact h.past t ht
  since first hle := by
    change first ≤ b.filledAt at hle
    have hsince := h.since first hle
    dsimp only [Bucket.take]
    rw [countWithin_cons_within ⟨hle, le_refl _⟩]
    push_cast
    linarith
  window first last hle := by
    by_cases hin : first ≤ b.filledAt ∧ b.filledAt ≤ last
    · -- the new token is in the window: all the others of the window were taken before it
      have hsince := h.since first hin.1
      have hflow : (b.filledAt - first) * flow ≤ (last - first) * flow :=
        mul_le_mul_of_nonneg_right (by linarith [hin.2]) hf
      rw [← countWithin_of_past h.past hin.2] at hsince
      rw [countWithin_cons_within hin]
      push_cast
      linarith
    · rw [countWithin_cons_outside hin]
      exact h.window first last hle

end Budget

section Replenished

variable [Field K] [LinearOrder K]

/-- **What flows into a bucket is not lost**, up to one token: with the `n` tokens taken since a time. -/
def Replenished (flow since : K) (b : Bucket K) (n : ℕ) : Prop :=
  min 1 ((b.filledAt - since) * flow) ≤ b.level + n

variable {capacity flow since now : K} {b : Bucket K} {n : ℕ}

/-- Nothing has flown in yet. -/
theorem Replenished.start (h : 0 ≤ b.level) : Replenished flow b.filledAt b 0 := by
  unfold Replenished
  rw [sub_self, zero_mul, Nat.cast_zero, add_zero]
  exact (min_le_right _ _).trans h

/-- **Filling keeps what flows in**, where the bucket has room for a token. -/
theorem Replenished.fill [IsStrictOrderedRing K] (h : Replenished flow since b n) (hf : 0 ≤ flow)
    (hc : 1 ≤ capacity) (hnow : b.filledAt ≤ now) : Replenished flow since (b.fill capacity flow now) n := by
  have hn : (0 : K) ≤ n := Nat.cast_nonneg n
  have hin : 0 ≤ (now - b.filledAt) * flow := mul_nonneg (sub_nonneg.mpr hnow) hf
  change min 1 ((now - since) * flow) ≤ min capacity (b.level + (now - b.filledAt) * flow) + n
  rcases le_total capacity (b.level + (now - b.filledAt) * flow) with hfull | hroom
  · rw [min_eq_left hfull]
    have hone := min_le_left 1 ((now - since) * flow)
    linarith
  · rw [min_eq_right hroom]
    rcases le_total 1 ((b.filledAt - since) * flow) with hone | hless
    · -- a token had flown in before
      have hold : 1 ≤ b.level + n := (le_min le_rfl hone).trans h
      have hmin := min_le_left 1 ((now - since) * flow)
      linarith
    · have hold : (b.filledAt - since) * flow ≤ b.level + n := (le_min hless le_rfl).trans h
      have hmin := min_le_right 1 ((now - since) * flow)
      linarith

/-- Taking a token counts it. -/
theorem Replenished.take [IsStrictOrderedRing K] (h : Replenished flow since b n) :
    Replenished flow since b.take (n + 1) := by
  change min 1 ((b.filledAt - since) * flow) ≤ b.level - 1 + ((n + 1 : ℕ) : K)
  have h' : min 1 ((b.filledAt - since) * flow) ≤ b.level + n := h
  push_cast
  linarith

/-- **A token has flown in and none was taken: it is there.** -/
theorem Replenished.ready (h : Replenished flow since b 0) (hone : 1 ≤ (b.filledAt - since) * flow) :
    1 ≤ b.level := by
  have h' : min 1 ((b.filledAt - since) * flow) ≤ b.level + (0 : ℕ) := h
  rw [min_eq_left hone, Nat.cast_zero, add_zero] at h'
  exact h'

end Replenished

end Basis
