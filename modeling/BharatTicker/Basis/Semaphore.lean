/-
  File:      BharatTicker/Basis/Semaphore.lean
  Subject:   A COUNTING SEMAPHORE WITH A QUEUE. Library: no program fact.

  As that of `asyncio`: a task that finds a permit and nobody waiting takes it at once, any other one
  waits in line. A permit that is given back goes to the first sleeper, who is woken with it, and
  goes on when the scheduler lets it; who arrives before that waits behind it, and a task that goes on
  wakes one more where permits are left. The queue is its woken part and then its sleeping one.
  `arrived`, `granted` and `left` are ghosts: the tasks in the order of their arrival, in that of
  their permits, and in that of their return.

  * `Semaphore`, `acquire`, `resume`, `release` -- the state and the operations;
  * `Sound`, `Sound.acquire`, `Sound.resume`, `Sound.release` -- what each of them keeps;
  * `Sound.bounded`, `Sound.fifo`, `Sound.shut`, `Sound.nodup_parts` -- what that says of the tasks;
  * `Sound.lively` -- no wake-up is lost.
-/
import Mathlib

namespace Basis

/-- `value` permits are free. A task in `woken` has a permit, but has not gone on yet. -/
structure Semaphore where
  value : ℕ
  woken : List ℕ := []
  asleep : List ℕ := []
  holders : List ℕ := []
  arrived : List ℕ := []
  granted : List ℕ := []
  left : List ℕ := []
  deriving DecidableEq, Repr

namespace Semaphore

/-! ## 1. Operations -/

/-- Nobody can take a permit at once: none is free, or somebody is before him. -/
def locked (s : Semaphore) : Bool := s.value = 0 || s.woken ≠ [] || s.asleep ≠ []

/-- A permit for the first sleeper. -/
def wakeUpNext (s : Semaphore) : Semaphore :=
  match s.asleep with
  | [] => s
  | k :: ks =>
    { s with value := s.value - 1, woken := s.woken ++ [k], asleep := ks, granted := s.granted ++ [k] }

/-- A task arrives. -/
def acquire (s : Semaphore) (k : ℕ) : Semaphore :=
  if s.locked then { s with asleep := s.asleep ++ [k], arrived := s.arrived ++ [k] }
  else
    { s with
      value := s.value - 1
      holders := k :: s.holders
      arrived := s.arrived ++ [k]
      granted := s.granted ++ [k] }

/-- A task that was woken goes on. -/
def resume (s : Semaphore) (k : ℕ) : Semaphore :=
  let s := { s with woken := s.woken.erase k, holders := k :: s.holders }
  if 0 < s.value then s.wakeUpNext else s

/-- A holder gives its permit back. -/
def release (s : Semaphore) (k : ℕ) : Semaphore :=
  wakeUpNext { s with value := s.value + 1, holders := s.holders.erase k, left := s.left ++ [k] }

section Frame

variable {s : Semaphore} {k : ℕ}

@[simp] theorem wakeUpNext_holders : s.wakeUpNext.holders = s.holders := by
  unfold wakeUpNext
  split <;> rfl

@[simp] theorem wakeUpNext_arrived : s.wakeUpNext.arrived = s.arrived := by
  unfold wakeUpNext
  split <;> rfl

@[simp] theorem wakeUpNext_left : s.wakeUpNext.left = s.left := by
  unfold wakeUpNext
  split <;> rfl

@[simp] theorem acquire_arrived : (s.acquire k).arrived = s.arrived ++ [k] := by
  unfold acquire
  split <;> rfl

@[simp] theorem acquire_left : (s.acquire k).left = s.left := by
  unfold acquire
  split <;> rfl

theorem acquire_holders : (s.acquire k).holders = if s.locked then s.holders else k :: s.holders := by
  unfold acquire
  split <;> rfl

@[simp] theorem resume_holders : (s.resume k).holders = k :: s.holders := by
  unfold resume
  dsimp only
  split
  · exact wakeUpNext_holders
  · rfl

@[simp] theorem resume_arrived : (s.resume k).arrived = s.arrived := by
  unfold resume
  dsimp only
  split
  · exact wakeUpNext_arrived
  · rfl

@[simp] theorem resume_left : (s.resume k).left = s.left := by
  unfold resume
  dsimp only
  split
  · exact wakeUpNext_left
  · rfl

@[simp] theorem release_holders : (s.release k).holders = s.holders.erase k := wakeUpNext_holders

@[simp] theorem release_arrived : (s.release k).arrived = s.arrived := wakeUpNext_arrived

@[simp] theorem release_left : (s.release k).left = s.left ++ [k] := wakeUpNext_left

end Frame

/-! ## 2. What they keep -/

/-- The invariant of a semaphore of `limit` permits. -/
structure Sound (limit : ℕ) (s : Semaphore) : Prop where
  count : s.value + s.woken.length + s.holders.length = limit
  order : s.arrived = s.granted ++ s.asleep
  nodup : s.arrived.Nodup
  whole : s.granted.Perm (s.woken ++ (s.holders ++ s.left))
  /-- No sleeper is left behind: somebody who was woken will look at the queue, or no permit is free. -/
  served : s.asleep ≠ [] → s.woken = [] → s.value = 0
  shut : limit = 0 → s.granted = []

section Sound

variable {limit : ℕ} {s : Semaphore} {k : ℕ}

theorem sound_init (limit : ℕ) : Sound limit { value := limit } where
  count := rfl
  order := rfl
  nodup := List.nodup_nil
  whole := .nil
  served h := absurd rfl h
  shut _ := rfl

theorem locked_eq_false : s.locked = false ↔ 0 < s.value ∧ s.woken = [] ∧ s.asleep = [] := by
  simp [locked, Nat.pos_iff_ne_zero, and_assoc]

/-- A permit moves on. With one free, the sleepers are served. -/
theorem wakeUpNext_sound (hcount : s.value + s.woken.length + s.holders.length = limit)
    (horder : s.arrived = s.granted ++ s.asleep) (hnodup : s.arrived.Nodup)
    (hwhole : s.granted.Perm (s.woken ++ (s.holders ++ s.left))) (hfree : 0 < s.value) :
    Sound limit s.wakeUpNext := by
  cases hs : s.asleep with
  | nil =>
    unfold wakeUpNext
    rw [hs]
    exact ⟨hcount, horder, hnodup, hwhole, fun h => absurd hs h, fun hzero => by omega⟩
  | cons j js =>
    unfold wakeUpNext
    rw [hs]
    refine ⟨?_, ?_, hnodup, ?_, fun _ h => absurd h (by simp), fun hzero => by omega⟩
    · simp only [List.length_append, List.length_singleton]
      omega
    · simp only [List.append_assoc, List.singleton_append]
      rw [horder, hs]
    · have hmoved : (s.woken ++ [j] ++ (s.holders ++ s.left)).Perm
          (s.woken ++ (s.holders ++ s.left) ++ [j]) := by
        rw [List.append_assoc, List.append_assoc]
        exact List.perm_append_comm.append_left s.woken
      exact (hwhole.append_right [j]).trans hmoved.symm

/-- **A task arrives.** -/
theorem Sound.acquire (h : Sound limit s) (hk : k ∉ s.arrived) : Sound limit (s.acquire k) := by
  have hnodup : (s.arrived ++ [k]).Nodup :=
    List.nodup_append'.mpr ⟨h.nodup, List.nodup_singleton k, List.disjoint_singleton.mpr hk⟩
  unfold Semaphore.acquire
  cases hl : s.locked with
  | true =>
    rw [if_pos rfl]
    refine ⟨h.count, ?_, hnodup, h.whole, fun _ hwoken => ?_, h.shut⟩
    · rw [← List.append_assoc, ← h.order]
    · by_contra hfree
      have hasleep : s.asleep = [] := by
        by_contra hasleep
        exact hfree (h.served hasleep hwoken)
      have hopen : s.locked = false :=
        locked_eq_false.2 ⟨Nat.pos_of_ne_zero hfree, hwoken, hasleep⟩
      rw [hl] at hopen
      cases hopen
  | false =>
    obtain ⟨hfree, hwoken, hasleep⟩ := locked_eq_false.1 hl
    rw [if_neg (by simp)]
    have hcount := h.count
    refine ⟨?_, ?_, hnodup, ?_, fun hne => absurd hasleep hne, fun hzero => by omega⟩
    · simp only [List.length_cons]
      omega
    · rw [hasleep, List.append_nil, h.order, hasleep, List.append_nil]
    · have hwhole := h.whole
      rw [hwoken, List.nil_append] at hwhole ⊢
      exact (hwhole.append_right [k]).trans (List.perm_append_singleton k _)

/-- **A task that was woken goes on.** -/
theorem Sound.resume (h : Sound limit s) (hk : k ∈ s.woken) : Sound limit (s.resume k) := by
  have hlength : (s.woken.erase k).length + 1 = s.woken.length :=
    List.length_erase_add_one hk
  have hcount : s.value + (s.woken.erase k).length + (k :: s.holders).length = limit := by
    have := h.count
    simp only [List.length_cons]
    omega
  have hwhole : s.granted.Perm (s.woken.erase k ++ (k :: s.holders ++ s.left)) :=
    h.whole.trans (((List.perm_cons_erase hk).append_right _).trans List.perm_middle.symm)
  unfold Semaphore.resume
  dsimp only
  split
  · rename_i hfree
    exact wakeUpNext_sound hcount h.order h.nodup hwhole hfree
  · rename_i hfree
    exact ⟨hcount, h.order, h.nodup, hwhole, fun _ _ => Nat.eq_zero_of_not_pos hfree, h.shut⟩

/-- **A holder gives its permit back.** -/
theorem Sound.release (h : Sound limit s) (hk : k ∈ s.holders) : Sound limit (s.release k) := by
  have hlength : (s.holders.erase k).length + 1 = s.holders.length := List.length_erase_add_one hk
  refine wakeUpNext_sound ?_ h.order h.nodup ?_ (Nat.succ_pos _)
  · have := h.count
    dsimp only
    omega
  · have hmoved : (s.holders ++ s.left).Perm (s.holders.erase k ++ (s.left ++ [k])) := by
      refine ((List.perm_cons_erase hk).append_right s.left).trans ?_
      rw [← List.append_assoc]
      exact (List.perm_append_singleton k _).symm
    exact h.whole.trans (hmoved.append_left s.woken)

/-! ## 3. What that says of the tasks -/

/-- No more than `limit` tasks are inside. -/
theorem Sound.bounded (h : Sound limit s) : s.holders.length ≤ limit := by
  have := h.count
  omega

/-- Permits are granted in the order of arrival. -/
theorem Sound.fifo (h : Sound limit s) : s.granted <+: s.arrived :=
  h.order ▸ List.prefix_append s.granted s.asleep

/-- Each task that has arrived is in one place. -/
theorem Sound.arrived_perm (h : Sound limit s) :
    s.arrived.Perm (s.woken ++ (s.holders ++ s.left) ++ s.asleep) :=
  h.order ▸ h.whole.append_right s.asleep

theorem Sound.mem_arrived (h : Sound limit s) :
    k ∈ s.arrived ↔ k ∈ s.woken ∨ k ∈ s.holders ∨ k ∈ s.left ∨ k ∈ s.asleep := by
  rw [h.arrived_perm.mem_iff]
  simp only [List.mem_append, or_assoc]

/-- The holders and those that have left are all different. -/
theorem Sound.nodup_parts (h : Sound limit s) : (s.holders ++ s.left).Nodup := by
  have hnodup := h.arrived_perm.nodup_iff.mp h.nodup
  exact (List.nodup_append'.mp (List.nodup_append'.mp hnodup).1).2.1

theorem Sound.not_left (h : Sound limit s) (hk : k ∈ s.holders) : k ∉ s.left :=
  fun hl => (List.nodup_append'.mp h.nodup_parts).2.2 hk hl

/-- Who goes on was not inside before. -/
theorem Sound.woken_new (h : Sound limit s) (hk : k ∈ s.woken) : k ∉ s.holders ++ s.left := by
  have hnodup := h.arrived_perm.nodup_iff.mp h.nodup
  exact fun hl => (List.nodup_append'.mp (List.nodup_append'.mp hnodup).1).2.2 hk hl

/-- **No wake-up is lost**: as long as a task that has arrived has not left, one of them has been woken
    or is inside. -/
theorem Sound.lively (h : Sound limit s) (hlimit : 0 < limit) (hk : k ∈ s.arrived) (hl : k ∉ s.left) :
    s.woken ≠ [] ∨ s.holders ≠ [] := by
  by_contra hnone
  simp only [not_or, not_not] at hnone
  obtain ⟨hwoken, hholders⟩ := hnone
  have hcount := h.count
  rw [hwoken, hholders, List.length_nil] at hcount
  have hasleep : s.asleep ≠ [] := by
    rintro hnil
    rcases h.mem_arrived.mp hk with hk | hk | hk | hk
    · rw [hwoken] at hk
      cases hk
    · rw [hholders] at hk
      cases hk
    · exact hl hk
    · rw [hnil] at hk
      cases hk
  have hzero := h.served hasleep hwoken
  omega

end Sound

end Semaphore

end Basis
