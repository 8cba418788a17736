/-
  File:      BharatTicker/Basis/SingleFlight.lean
  Subject:   ONE SLOT, MANY FLIGHTS. Library: no program fact.

  A flight is launched into the empty slot, is pending in phases of its own, settles once with an
  outcome, and is released, which empties the slot no matter whose it is. This file shows that the
  order of these operations alone keeps the slot honest:

  * `Flights`, `launch`, `advance`, `settle`, `release` -- the registry and its operations;
  * `Sound` -- the slot names the one flight that is not released;
  * `Sound.launch`, `Sound.advance`, `Sound.settle`, `Sound.release` -- each operation keeps it;
  * `pending_unique`, `release_own` -- one pending flight at a time; a release empties its own slot;
  * `Keeps` -- no flight is lost and no outcome changed.
-/
import Mathlib.Logic.Function.Basic
import Mathlib.Order.Basic

namespace Basis

universe u v

/-- A flight: pending in a phase, or settled, and then released or not. -/
inductive Flight (φ : Type u) (ω : Type v) where
  | pending (phase : φ)
  | settled (outcome : ω) (released : Bool)
  deriving DecidableEq

/-- The flights launched so far, by number, and the slot. -/
structure Flights (φ : Type u) (ω : Type v) where
  slot : Option Nat := none
  flight : Nat → Option (Flight φ ω) := fun _ => none
  fresh : Nat := 0

namespace Flights

variable {φ : Type u} {ω : Type v}

/-! ## 1. Operations -/

def set (fs : Flights φ ω) (id : Nat) (f : Flight φ ω) : Flights φ ω :=
  { fs with flight := Function.update fs.flight id (some f) }

def launch (fs : Flights φ ω) (phase : φ) : Flights φ ω :=
  { fs.set fs.fresh (.pending phase) with slot := some fs.fresh, fresh := fs.fresh + 1 }

def advance (fs : Flights φ ω) (id : Nat) (phase : φ) : Flights φ ω := fs.set id (.pending phase)

def settle (fs : Flights φ ω) (id : Nat) (outcome : ω) : Flights φ ω :=
  fs.set id (.settled outcome false)

def release (fs : Flights φ ω) (id : Nat) (outcome : ω) : Flights φ ω :=
  { fs.set id (.settled outcome true) with slot := none }

/-- The outcome a flight has settled with. -/
def outcome? (fs : Flights φ ω) (id : Nat) : Option ω :=
  match fs.flight id with
  | some (.settled o _) => some o
  | _ => none

/-- The flight of this number is launched and not released. -/
def Aloft (fs : Flights φ ω) (id : Nat) : Prop :=
  (∃ phase, fs.flight id = some (.pending phase)) ∨ ∃ o, fs.flight id = some (.settled o false)

@[simp] theorem set_flight_self (fs : Flights φ ω) (id : Nat) (f : Flight φ ω) :
    (fs.set id f).flight id = some f := Function.update_self ..

theorem set_flight_of_ne {fs : Flights φ ω} {id n : Nat} {f : Flight φ ω} (h : n ≠ id) :
    (fs.set id f).flight n = fs.flight n := Function.update_of_ne h ..

theorem aloft_congr {fs fs' : Flights φ ω} {id : Nat} (h : fs'.flight id = fs.flight id) :
    fs'.Aloft id ↔ fs.Aloft id := by
  unfold Aloft
  rw [h]

/-! ## 2. The slot -/

/-- The flights are those launched, and the slot names the one that is not released. -/
structure Sound (fs : Flights φ ω) : Prop where
  launched : ∀ id, (∃ f, fs.flight id = some f) ↔ id < fs.fresh
  held : ∀ id, fs.Aloft id ↔ fs.slot = some id

theorem sound_init : Sound ({} : Flights φ ω) := by
  refine ⟨fun id => iff_of_false ?_ (Nat.not_lt_zero id), fun id => iff_of_false ?_ (by simp)⟩
  · intro hex
    obtain ⟨f, h⟩ := hex
    cases h
  · rintro (⟨ph, h⟩ | ⟨o, h⟩) <;> cases h

section Slot

variable {fs : Flights φ ω} {id : Nat}

theorem Aloft.flight (h : fs.Aloft id) : ∃ f, fs.flight id = some f := by
  rcases h with ⟨p, e⟩ | ⟨o, e⟩ <;> exact ⟨_, e⟩

/-- Setting a flight that is launched leaves the launched numbers. -/
theorem Sound.launched_set (hs : fs.Sound) (h : ∃ f, fs.flight id = some f) (f : Flight φ ω)
    (n : Nat) : (∃ g, (fs.set id f).flight n = some g) ↔ n < fs.fresh := by
  by_cases e : n = id
  · subst e
    exact iff_of_true ⟨f, set_flight_self ..⟩ ((hs.launched n).mp h)
  · rw [set_flight_of_ne e]
    exact hs.launched n

/-- **A flight is launched into the empty slot.** -/
theorem Sound.launch (hs : fs.Sound) (h : fs.slot = none) (phase : φ) :
    (fs.launch phase).Sound := by
  constructor
  · intro n
    show (∃ g, (fs.set fs.fresh (.pending phase)).flight n = some g) ↔ n < fs.fresh + 1
    by_cases e : n = fs.fresh
    · subst e
      exact iff_of_true ⟨_, set_flight_self ..⟩ (Nat.lt_succ_self _)
    · rw [set_flight_of_ne e, hs.launched n]
      omega
  · intro n
    by_cases e : n = fs.fresh
    · subst e
      exact iff_of_true (.inl ⟨phase, set_flight_self ..⟩) rfl
    · have hsame : (fs.launch phase).Aloft n ↔ fs.Aloft n := aloft_congr (set_flight_of_ne e)
      rw [hsame, hs.held n, h]
      exact iff_of_false (by simp) fun h' => e (Option.some.inj h').symm

/-- A flight that is aloft may change, as long as it stays aloft. -/
theorem Sound.set (hs : fs.Sound) (h : fs.Aloft id) {f : Flight φ ω}
    (hf : (fs.set id f).Aloft id) : (fs.set id f).Sound := by
  refine ⟨hs.launched_set h.flight f, fun n => ?_⟩
  by_cases e : n = id
  · subst e
    exact iff_of_true hf ((hs.held n).mp h)
  · rw [aloft_congr (set_flight_of_ne e)]
    exact hs.held n

theorem Sound.advance (hs : fs.Sound) {old : φ} (h : fs.flight id = some (.pending old))
    (phase : φ) : (fs.advance id phase).Sound :=
  Sound.set hs (.inl ⟨old, h⟩) (.inl ⟨phase, set_flight_self ..⟩)

theorem Sound.settle (hs : fs.Sound) {old : φ} (h : fs.flight id = some (.pending old))
    (outcome : ω) : (fs.settle id outcome).Sound :=
  Sound.set hs (.inl ⟨old, h⟩) (.inr ⟨outcome, set_flight_self ..⟩)

/-- **A release empties its own slot.** -/
theorem release_own (hs : fs.Sound) {o : ω} (h : fs.flight id = some (.settled o false)) :
    fs.slot = some id :=
  (hs.held id).mp (.inr ⟨o, h⟩)

theorem Sound.release (hs : fs.Sound) {o : ω} (h : fs.flight id = some (.settled o false)) :
    (fs.release id o).Sound := by
  have hslot : fs.slot = some id := release_own hs h
  refine ⟨hs.launched_set ⟨_, h⟩ (.settled o true), fun n => iff_of_false ?_ fun h' => by cases h'⟩
  by_cases e : n = id
  · subst e
    have hself : (fs.release n o).flight n = some (.settled o true) := set_flight_self ..
    intro hor
    rcases hor with ⟨ph, h'⟩ | ⟨o', h'⟩
    · rw [hself] at h'
      cases h'
    · rw [hself] at h'
      cases h'
  · have hsame : (fs.release id o).Aloft n ↔ fs.Aloft n := aloft_congr (set_flight_of_ne e)
    rw [hsame, hs.held n, hslot]
    exact fun h' => e (Option.some.inj h').symm

/-- **At most one flight is pending.** -/
theorem pending_unique (hs : fs.Sound) {n : Nat} {p q : φ} (h : fs.flight id = some (.pending p))
    (h' : fs.flight n = some (.pending q)) : id = n := by
  have h1 : fs.slot = some id := (hs.held id).mp (.inl ⟨p, h⟩)
  have h2 : fs.slot = some n := (hs.held n).mp (.inl ⟨q, h'⟩)
  exact Option.some.inj (h1.symm.trans h2)

/-- The slot names a flight that has been launched. -/
theorem slot_launched (hs : fs.Sound) (h : fs.slot = some id) : id < fs.fresh :=
  (hs.launched id).mp ((hs.held id).mpr h).flight

end Slot

/-! ## 3. Outcomes stay -/

/-- No flight is lost and no outcome changed. -/
structure Keeps (fs fs' : Flights φ ω) : Prop where
  fresh : fs.fresh ≤ fs'.fresh
  outcome : ∀ id o, fs.outcome? id = some o → fs'.outcome? id = some o

section Outcomes

variable {fs : Flights φ ω} {id : Nat}

theorem outcome?_settled {o : ω} {r : Bool} (h : fs.flight id = some (.settled o r)) :
    fs.outcome? id = some o := by
  simp [outcome?, h]

/-- A flight is pending until it has an outcome. -/
theorem pending_of_outcome?_none (h : ∃ f, fs.flight id = some f) (hn : fs.outcome? id = none) :
    ∃ p, fs.flight id = some (.pending p) := by
  obtain ⟨f, hf⟩ := h
  cases f with
  | pending p => exact ⟨p, hf⟩
  | settled o r =>
    rw [outcome?_settled hf] at hn
    cases hn

/-- A change at one number keeps the outcomes if it keeps the one at this number. -/
theorem outcome?_of_ne {fs' : Flights φ ω} (hne : ∀ n, n ≠ id → fs'.flight n = fs.flight n)
    (h : ∀ o, fs.outcome? id = some o → fs'.outcome? id = some o) (n : Nat) (o : ω)
    (hn : fs.outcome? n = some o) : fs'.outcome? n = some o := by
  by_cases e : n = id
  · subst e
    exact h o hn
  · unfold outcome? at hn ⊢
    rwa [hne n e]

theorem keeps_launch (hs : fs.Sound) (phase : φ) : Keeps fs (fs.launch phase) := by
  refine ⟨Nat.le_succ _, outcome?_of_ne (fun n hn => set_flight_of_ne hn) fun o h => ?_⟩
  have hno : fs.flight fs.fresh = none :=
    Option.eq_none_iff_forall_ne_some.mpr fun f hf =>
      Nat.lt_irrefl _ ((hs.launched fs.fresh).mp ⟨f, hf⟩)
  rw [outcome?, hno] at h
  cases h

theorem keeps_set {p : φ} (h : fs.flight id = some (.pending p)) (f : Flight φ ω) :
    Keeps fs (fs.set id f) := by
  refine ⟨Nat.le_refl _, outcome?_of_ne (fun n hn => set_flight_of_ne hn) fun o ho => ?_⟩
  rw [outcome?, h] at ho
  cases ho

theorem keeps_release {o : ω} (h : fs.flight id = some (.settled o false)) :
    Keeps fs (fs.release id o) := by
  refine ⟨Nat.le_refl _, outcome?_of_ne (fun n hn => set_flight_of_ne hn) fun o' ho => ?_⟩
  have e : (fs.release id o).flight id = some (.settled o true) := set_flight_self ..
  rw [outcome?_settled e]
  rwa [outcome?_settled h] at ho

end Outcomes

end Flights

end Basis
