/-
  File:      BharatTicker/TtlCache.lean
  Subject:   THE TTL CACHE BOUNDED BY MEMORY (`api/endpoints/superbrain.py`: `_TTLCache`).

  The dictionary is a list of entries in insertion order. `time.time()` is one reading for each
  call.

  * `get`, `put`, `clear` -- the operations;
  * `shrink`, `shrink_bounded` -- the loop of `put`, and that it has been run to its end;
  * `get_eq_some`, `entryAt_put` -- what a call finds, and what it leaves.
-/
import BharatTicker.Basis.Aggregate

namespace BharatTicker

open Basis

universe u v

/-- `(ts, value, bytes)`. -/
structure TtlEntry (α : Type v) where
  stamp : ℚ
  value : α
  size : ℕ

/-- `_store` and `_bytes`. -/
structure TtlCache (κ : Type u) (α : Type v) where
  store : List (κ × TtlEntry α) := []
  bytes : ℤ := 0

namespace TtlCache

variable {κ : Type u} {α : Type v} [DecidableEq κ]

/-- `_evict`. -/
def evict (key : κ) (c : TtlCache κ α) : TtlCache κ α :=
  match entryAt c.store key with
  | some e => ⟨c.store.filter fun x => x.1 ≠ key, c.bytes - e.size⟩
  | none => c

def get (ttl : ℚ) (key : κ) (now : ℚ) (c : TtlCache κ α) : Option α × TtlCache κ α :=
  match entryAt c.store key with
  | some e => if now - e.stamp < ttl then (some e.value, c) else (none, c.evict key)
  | none => (none, c)

/-- `min(self._store, key=lambda k: self._store[k][0])`. -/
def oldest (c : TtlCache κ α) : Option κ := (c.store.argmin fun x => x.2.stamp).map Prod.fst

/-- `while self._bytes > self._budget and len(self._store) > 1`, for at most `n` rounds. -/
def shrink (budget : ℤ) : ℕ → TtlCache κ α → TtlCache κ α
  | 0, c => c
  | n + 1, c =>
    if budget < c.bytes ∧ 1 < c.store.length then
      match c.oldest with
      | some key => shrink budget n (c.evict key)
      | none => c
    else c

def put (budget : ℤ) (sizeof : α → ℕ) (key : κ) (value : α) (now : ℚ) (c : TtlCache κ α) :
    TtlCache κ α :=
  let c := if key ∈ c.store.map Prod.fst then c.evict key else c
  let b := sizeof value
  let c : TtlCache κ α := ⟨assign c.store key ⟨now, value, b⟩, c.bytes + b⟩
  c.shrink budget c.store.length

def clear (_ : TtlCache κ α) : TtlCache κ α := {}

theorem evict_length_lt {c : TtlCache κ α} {key : κ} (h : key ∈ c.store.map Prod.fst) :
    (c.evict key).store.length < c.store.length := by
  unfold evict
  cases he : entryAt c.store key with
  | none => exact absurd h (entryAt_eq_none.1 he)
  | some e =>
    obtain ⟨x, hx, rfl⟩ := List.mem_map.mp h
    exact List.length_filter_lt_length_iff_exists.mpr ⟨x, hx, by simp⟩

/-- **The loop of `put` ends within its budget or with one entry**: each round removes one. -/
theorem shrink_bounded (budget : ℤ) (n : ℕ) (c : TtlCache κ α) (h : c.store.length ≤ n + 1) :
    (c.shrink budget n).bytes ≤ budget ∨ (c.shrink budget n).store.length ≤ 1 := by
  induction n generalizing c with
  | zero => exact .inr h
  | succ n ih =>
    unfold shrink
    by_cases hgo : budget < c.bytes ∧ 1 < c.store.length
    · rw [if_pos hgo]
      cases ho : c.oldest with
      | none =>
        have hnil : c.store = [] := List.argmin_eq_none.mp (Option.map_eq_none_iff.mp ho)
        rw [hnil] at hgo
        simp at hgo
      | some key =>
        obtain ⟨x, hx, rfl⟩ := Option.map_eq_some_iff.mp ho
        have hlt := evict_length_lt (List.mem_map_of_mem (List.argmin_mem hx) :
          x.1 ∈ c.store.map Prod.fst)
        exact ih _ (by omega)
    · rw [if_neg hgo]
      omega

/-! ### What is in the cache -/

section Entries

variable {c : TtlCache κ α} {key : κ}

/-- A hit is an entry that is younger than the TTL. -/
theorem get_eq_some {ttl now : ℚ} {v : α} : (c.get ttl key now).1 = some v ↔
    ∃ e, entryAt c.store key = some e ∧ now - e.stamp < ttl ∧ e.value = v := by
  unfold get
  cases entryAt c.store key with
  | none => simp
  | some e =>
    dsimp only
    split
    · simp_all
    · simp_all

/-- A removal adds nothing. -/
theorem entryAt_evict {k : κ} {e : TtlEntry α} (h : entryAt (c.evict key).store k = some e) :
    entryAt c.store k = some e := by
  unfold evict at h
  split at h
  · by_cases hk : k = key
    · subst hk
      rw [entryAt_eq_none.2 (by simp)] at h
      cases h
    · unfold entryAt at h ⊢
      rwa [List.find?_filter, List.find?_congr (fun x _ => ?_)] at h
      by_cases hx : x.1 = k
      · simp [hx, hk]
      · simp [hx]
  · exact h

theorem entryAt_get {ttl now : ℚ} {k : κ} {e : TtlEntry α}
    (h : entryAt (c.get ttl key now).2.store k = some e) : entryAt c.store k = some e := by
  unfold get at h
  split at h
  · split at h
    · exact h
    · exact entryAt_evict h
  · exact h

theorem entryAt_shrink {budget : ℤ} {n : ℕ} {k : κ} {e : TtlEntry α}
    (h : entryAt (c.shrink budget n).store k = some e) : entryAt c.store k = some e := by
  induction n generalizing c with
  | zero => exact h
  | succ n ih =>
    unfold shrink at h
    split at h
    · split at h
      · exact entryAt_evict (ih h)
      · exact h
    · exact h

/-- **After `put`, an entry is the new one, or one that was there under another key.** -/
theorem entryAt_put {budget : ℤ} {sizeof : α → ℕ} {value : α} {now : ℚ} {k : κ} {e : TtlEntry α}
    (h : entryAt (c.put budget sizeof key value now).store k = some e) :
    (k = key ∧ e = ⟨now, value, sizeof value⟩) ∨ (k ≠ key ∧ entryAt c.store k = some e) := by
  unfold put at h
  dsimp only at h
  have h := entryAt_shrink h
  rw [entryAt_assign] at h
  split at h
  · rename_i hk
    cases h
    exact .inl ⟨hk.symm, rfl⟩
  · rename_i hk
    refine .inr ⟨Ne.symm hk, ?_⟩
    split at h
    · exact entryAt_evict h
    · exact h

end Entries

end TtlCache

end BharatTicker
