/-
  File:      BharatTicker/Basis/BoundedLog.lean
  Subject:   A LOG OF WHICH ONLY THE NEWEST ENTRIES ARE KEPT. Library: no program fact.

  A bounded buffer holds a window of the log, the newest `cap` entries. A reader that keeps its
  place as a position in the buffer reads on correctly exactly as long as the window is the log:

  * `window`, `window_append` -- the buffer, and what appending to it does;
  * `batch` -- what is read at a position;
  * `batch_continues_iff` -- a read goes on where the last one ended, and gets something if there
    is something, exactly when nothing has been dropped.
-/
import Mathlib.Data.List.DropRight
import Mathlib.Data.List.Nodup

namespace Basis

universe u

variable {α : Type u}

/-- The newest `cap` entries of the log. -/
def window (cap : Nat) (log : List α) : List α := log.rtake cap

theorem window_eq_drop (cap : Nat) (log : List α) : window cap log = log.drop (log.length - cap) :=
  rfl

theorem window_map {β : Type*} (cap : Nat) (f : α → β) (log : List α) :
    window cap (log.map f) = (window cap log).map f := by
  rw [window_eq_drop, window_eq_drop, List.length_map, List.map_drop]

/-- **Appending to the window and dropping from the left is appending to the log.** -/
theorem window_append (cap : Nat) (log : List α) (x : α) :
    (window cap log ++ [x]).rtake cap = window cap (log ++ [x]) := by
  cases cap with
  | zero => simp [window]
  | succ n =>
    unfold window
    rw [List.rtake_concat_succ, List.rtake_concat_succ]
    congr 1
    unfold List.rtake
    rw [List.drop_drop, List.length_drop]
    congr 1
    omega

/-- What is appended stands behind what is left of the window. -/
theorem window_append_drop {cap : Nat} {log later : List α}
    (h : (log ++ later).length - cap ≤ log.length) :
    window cap (log ++ later) =
      (window cap log).drop ((log ++ later).length - cap - (log.length - cap)) ++ later := by
  have hlen : (log ++ later).length = log.length + later.length := List.length_append
  have hsum : log.length - cap + ((log ++ later).length - cap - (log.length - cap)) =
      (log ++ later).length - cap := by
    omega
  rw [window_eq_drop, window_eq_drop, List.drop_drop, hsum, List.drop_append_of_le_length h]

/-- What is read of the buffer from a position on. -/
def batch (cap position count : Nat) (log : List α) : List α :=
  ((window cap log).drop position).take count

theorem batch_eq (cap position count : Nat) (log : List α) :
    batch cap position count log = (log.drop (log.length - cap + position)).take count := by
  rw [batch, window_eq_drop, List.drop_drop]

theorem length_batch_le (cap position count : Nat) (log : List α) :
    (batch cap position count log).length ≤ log.length - (log.length - cap + position) := by
  rw [batch_eq, List.length_take, List.length_drop]
  exact Nat.min_le_right ..

/-- As long as nothing has been dropped, a read goes on where the last one ended. -/
theorem batch_continues {cap count : Nat} {log delivered : List α} (hpre : delivered <+: log)
    (hcap : log.length ≤ cap) : delivered ++ batch cap delivered.length count log <+: log := by
  have hzero : log.length - cap = 0 := Nat.sub_eq_zero_of_le hcap
  obtain ⟨rest, rfl⟩ := hpre
  rw [batch_eq, hzero, Nat.zero_add, List.drop_left]
  exact (List.prefix_append_right_inj _).mpr (List.take_prefix ..)

/-- **A read goes on where the last one ended, and gets something if there is something, exactly
    when nothing has been dropped** (or nothing is left to read). -/
theorem batch_continues_iff {cap count : Nat} {log delivered : List α} (hnodup : log.Nodup)
    (hpre : delivered <+: log) (hcount : 0 < count) :
    (delivered ++ batch cap delivered.length count log <+: log ∧
      (delivered.length < log.length → batch cap delivered.length count log ≠ [])) ↔
    (delivered.length < log.length → log.length ≤ cap) := by
  constructor
  · intro h hlt
    obtain ⟨hgo, hsome⟩ := h
    obtain ⟨x, rest, hbatch⟩ := List.exists_cons_of_ne_nil (hsome hlt)
    -- the entry read is the one at the next place of the log, and the one that many places further
    have hnext : log[delivered.length]? = some x := by
      obtain ⟨tail, htail⟩ := hgo
      rw [← htail, hbatch]
      simp
    have hread : log[log.length - cap + delivered.length]? = some x := by
      have hhead : (batch cap delivered.length count log)[0]? = some x := by rw [hbatch]; rfl
      rw [batch_eq, List.getElem?_take_of_lt hcount, List.getElem?_drop] at hhead
      exact hhead
    obtain ⟨hlt₁, e₁⟩ := List.getElem?_eq_some_iff.mp hnext
    obtain ⟨hlt₂, e₂⟩ := List.getElem?_eq_some_iff.mp hread
    have hsame : log.length - cap + delivered.length = delivered.length :=
      hnodup.getElem_inj_iff.mp (e₂.trans e₁.symm)
    omega
  · intro h
    rcases Nat.lt_or_ge delivered.length log.length with hlt | hge
    · refine ⟨batch_continues hpre (h hlt), fun _ hnil => ?_⟩
      have hzero : log.length - cap = 0 := Nat.sub_eq_zero_of_le (h hlt)
      have hlen := congrArg List.length hnil
      rw [batch_eq, hzero, List.length_take, List.length_drop, List.length_nil] at hlen
      omega
    · have hnil : batch cap delivered.length count log = [] := by
        have hlen := length_batch_le cap delivered.length count log
        refine List.eq_nil_of_length_eq_zero ?_
        omega
      refine ⟨?_, fun hlt => ?_⟩
      · rw [hnil, List.append_nil]
        exact hpre
      · omega

end Basis
