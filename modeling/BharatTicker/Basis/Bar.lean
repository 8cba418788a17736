/-
  File:      BharatTicker/Basis/Bar.lean
  Subject:   BARS (open, high, low, close, volume) AS A SEMIGROUP. Library: no program fact.

  The product of two bars is the bar of the longer interval, that of several their summary
  (`Bar.summary_cons`). Whatever is monotone on prices and additive on volumes is a homomorphism
  (`Bar.map_mul`): rounding a bar of an interval is rounding the bars of its parts first.
-/
import Mathlib

namespace Basis

universe u v w x

/-- Prices in `P`, volume in `V`. -/
@[ext] structure Bar (P : Type u) (V : Type v) where
  opening : P
  high : P
  low : P
  close : P
  volume : V
  deriving DecidableEq, Repr

namespace Bar

variable {P : Type u} {V : Type v} {P' : Type w} {V' : Type x}

section Semigroup

variable [LinearOrder P] [AddSemigroup V]

/-- First the left bar, then the right one. -/
instance : Mul (Bar P V) where
  mul a b := ⟨a.opening, max a.high b.high, min a.low b.low, b.close, a.volume + b.volume⟩

@[simp] theorem mul_opening (a b : Bar P V) : (a * b).opening = a.opening := rfl
@[simp] theorem mul_high (a b : Bar P V) : (a * b).high = max a.high b.high := rfl
@[simp] theorem mul_low (a b : Bar P V) : (a * b).low = min a.low b.low := rfl
@[simp] theorem mul_close (a b : Bar P V) : (a * b).close = b.close := rfl
@[simp] theorem mul_volume (a b : Bar P V) : (a * b).volume = a.volume + b.volume := rfl

instance : Semigroup (Bar P V) where
  mul_assoc _ _ _ := Bar.ext rfl (max_assoc ..) (min_assoc ..) rfl (add_assoc ..)

end Semigroup

/-- Prices through `f`, volume through `g`. -/
def map (f : P → P') (g : V → V') (b : Bar P V) : Bar P' V' :=
  ⟨f b.opening, f b.high, f b.low, f b.close, g b.volume⟩

variable [LinearOrder P] [LinearOrder P'] [AddSemigroup V] [AddSemigroup V']

theorem map_mul {f : P → P'} (hf : Monotone f) {g : V → V'} (hg : ∀ v w, g (v + w) = g v + g w)
    (a b : Bar P V) : (a * b).map f g = a.map f g * b.map f g :=
  Bar.ext rfl (hf.map_max ..) (hf.map_min ..) rfl (hg ..)

/-! ## Open and close between low and high -/

structure Sane (b : Bar P V) : Prop where
  opening : b.low ≤ b.opening ∧ b.opening ≤ b.high
  close : b.low ≤ b.close ∧ b.close ≤ b.high

theorem Sane.mul {a b : Bar P V} (ha : a.Sane) (hb : b.Sane) : (a * b).Sane :=
  ⟨⟨(min_le_left _ _).trans ha.opening.1, ha.opening.2.trans (le_max_left _ _)⟩,
    ⟨(min_le_right _ _).trans hb.close.1, hb.close.2.trans (le_max_right _ _)⟩⟩

omit [AddSemigroup V] [AddSemigroup V'] in
theorem Sane.map {f : P → P'} (hf : Monotone f) (g : V → V') {b : Bar P V} (h : b.Sane) :
    (b.map f g).Sane :=
  ⟨⟨hf h.opening.1, hf h.opening.2⟩, ⟨hf h.close.1, hf h.close.2⟩⟩

/-! ## The product of several bars -/

section Fold

variable {P : Type u} {V : Type v} [LinearOrder P] [AddMonoid V] (x : Bar P V) (xs : List (Bar P V))

theorem foldl_opening : (xs.foldl (· * ·) x).opening = x.opening := by
  induction xs generalizing x with
  | nil => rfl
  | cons y ys ih => rw [List.foldl_cons, ih, mul_opening]

theorem foldl_high : (xs.foldl (· * ·) x).high = (xs.map high).foldl max x.high := by
  induction xs generalizing x with
  | nil => rfl
  | cons y ys ih => rw [List.foldl_cons, ih, mul_high, List.map_cons, List.foldl_cons]

theorem foldl_low : (xs.foldl (· * ·) x).low = (xs.map low).foldl min x.low := by
  induction xs generalizing x with
  | nil => rfl
  | cons y ys ih => rw [List.foldl_cons, ih, mul_low, List.map_cons, List.foldl_cons]

theorem foldl_close : some (xs.foldl (· * ·) x).close = ((x :: xs).map close).getLast? := by
  induction xs generalizing x with
  | nil => rfl
  | cons y ys ih =>
    rw [List.foldl_cons, ih, List.map_cons, List.map_cons, List.map_cons, List.getLast?_cons_cons,
      mul_close]

theorem foldl_volume : (xs.foldl (· * ·) x).volume = ((x :: xs).map volume).sum := by
  induction xs generalizing x with
  | nil => simp
  | cons y ys ih => rw [List.foldl_cons, ih]; simp [add_assoc]

/-- First open, highest high, lowest low, last close, total volume. -/
def summary [Zero P] (g : List (Bar P V)) : Bar P V where
  opening := (g.head?.map opening).getD 0
  high := (g.map high).max?.getD 0
  low := (g.map low).min?.getD 0
  close := (g.getLast?.map close).getD 0
  volume := (g.map volume).sum

/-- **The product of several bars is their summary.** -/
theorem summary_cons [Zero P] : summary (x :: xs) = xs.foldl (· * ·) x := by
  refine Bar.ext ?_ ?_ ?_ ?_ ?_
  · rw [foldl_opening]
    rfl
  · rw [foldl_high]
    rfl
  · rw [foldl_low]
    rfl
  · show ((x :: xs).getLast?.map close).getD 0 = _
    rw [← List.getLast?_map, ← foldl_close]
    rfl
  · rw [foldl_volume]
    rfl

end Fold

end Bar

end Basis
