/-
  File:      BharatTicker/Basis/Dict.lean
  Subject:   INSERTION-ORDERED DICTIONARIES. Library: no program fact.

  A dictionary is the list of its entries in insertion order. An assignment to a key that is there
  keeps the key's place, one to a new key goes to the end; `update` assigns entries one after
  another.

  * `get?`, `set`, `update`, `keys` -- the operations; `get?_set`, `get?_update` -- what is read
    after a write;
  * `ext_of_get?` -- a dictionary is its keys in order and what they map to;
  * `update_eq` -- an update with all the keys of a dictionary leaves nothing of it;
  * `get?_nil_update` -- what a new dictionary maps its keys to;
  * `total`, `total_set` -- the sum over the values, and what an assignment changes of it.
-/
import Mathlib

namespace Basis

universe u v

/-- Entries in insertion order. -/
abbrev Dict (α : Type u) (β : Type v) := List (α × β)

namespace Dict

variable {α : Type u} {β : Type v} [DecidableEq α]

/-! ## 1. Operations -/

def get? (d : Dict α β) (k : α) : Option β := List.lookup k d

def set : Dict α β → α → β → Dict α β
  | [], k, v => [(k, v)]
  | (k', v') :: d, k, v => if k' = k then (k, v) :: d else (k', v') :: set d k v

/-- `d.update(items)`. -/
def update (d items : Dict α β) : Dict α β := items.foldl (fun d e => set d e.1 e.2) d

def keys (d : Dict α β) : List α := d.map Prod.fst

@[simp] theorem get?_nil (k : α) : get? ([] : Dict α β) k = none := rfl

theorem get?_cons (k' : α) (v' : β) (d : Dict α β) (k : α) :
    get? ((k', v') :: d) k = if k' = k then some v' else get? d k := by
  unfold get?
  rw [List.lookup_cons]
  by_cases h : k' = k
  · subst h
    rw [if_pos rfl, beq_self_eq_true]
  · rw [if_neg h, beq_false_of_ne (Ne.symm h)]

@[simp] theorem update_nil (d : Dict α β) : update d [] = d := rfl

theorem update_cons (d : Dict α β) (e : α × β) (items : Dict α β) :
    update d (e :: items) = update (set d e.1 e.2) items := rfl

omit [DecidableEq α] in
@[simp] theorem keys_nil : keys ([] : Dict α β) = [] := rfl

omit [DecidableEq α] in
@[simp] theorem keys_cons (e : α × β) (d : Dict α β) : keys (e :: d) = e.1 :: keys d := rfl

/-! ## 2. Reading -/

theorem get?_set (d : Dict α β) (k : α) (v : β) (k' : α) :
    get? (set d k v) k' = if k = k' then some v else get? d k' := by
  induction d with
  | nil => exact get?_cons k v [] k'
  | cons e d ih =>
    obtain ⟨k₁, v₁⟩ := e
    unfold set
    split
    · rename_i h
      subst h
      rw [get?_cons, get?_cons]
      split <;> rfl
    · rename_i h
      rw [get?_cons, get?_cons, ih]
      split
      · rename_i h'
        subst h'
        rw [if_neg (Ne.symm h)]
      · rfl

@[simp] theorem get?_set_self (d : Dict α β) (k : α) (v : β) : get? (set d k v) k = some v := by
  rw [get?_set, if_pos rfl]

theorem get?_set_of_ne (d : Dict α β) {k k' : α} (v : β) (h : k' ≠ k) :
    get? (set d k v) k' = get? d k' := by
  rw [get?_set, if_neg (Ne.symm h)]

/-- The later of two assignments to a key. -/
theorem set_set (d : Dict α β) (k : α) (v v' : β) : set (set d k v) k v' = set d k v' := by
  induction d with
  | nil => simp [set]
  | cons e d ih =>
    obtain ⟨k', w⟩ := e
    by_cases h : k' = k
    · simp [set, h]
    · simp [set, h, ih]

theorem mem_of_get? {d : Dict α β} {k : α} {v : β} (h : get? d k = some v) : (k, v) ∈ d := by
  induction d with
  | nil => cases h
  | cons e d ih =>
    obtain ⟨k', v'⟩ := e
    rw [get?_cons] at h
    split at h
    · rename_i hk
      subst hk
      cases h
      exact List.mem_cons_self
    · exact List.mem_cons_of_mem _ (ih h)

/-- An assignment adds its own entry, and no other. -/
theorem mem_set {d : Dict α β} {k : α} {v : β} {e : α × β} (h : e ∈ set d k v) :
    e = (k, v) ∨ e ∈ d := by
  induction d with
  | nil => exact .inl (List.mem_singleton.mp h)
  | cons e' d ih =>
    unfold set at h
    split at h
    · rcases List.mem_cons.mp h with h | h
      · exact .inl h
      · exact .inr (List.mem_cons_of_mem _ h)
    · rcases List.mem_cons.mp h with rfl | h
      · exact .inr List.mem_cons_self
      · exact (ih h).imp_right (List.mem_cons_of_mem _)

/-- What holds after a loop held before it, or one of its turns made it hold. -/
theorem foldl_origin {γ δ : Type*} {f : δ → γ → δ} {Q : δ → Prop} {P : γ → Prop}
    (hf : ∀ d x, Q (f d x) → Q d ∨ P x) {l : List γ} {d : δ} (h : Q (l.foldl f d)) :
    Q d ∨ ∃ x ∈ l, P x := by
  induction l generalizing d with
  | nil => exact .inl h
  | cons x l ih =>
    rcases ih h with hd | ⟨y, hy, hP⟩
    · exact (hf d x hd).imp_right fun hP => ⟨x, List.mem_cons_self, hP⟩
    · exact .inr ⟨y, List.mem_cons_of_mem _ hy, hP⟩

theorem get?_eq_none_iff {d : Dict α β} {k : α} : get? d k = none ↔ k ∉ keys d := by
  induction d with
  | nil => simp
  | cons e d ih =>
    obtain ⟨k', v'⟩ := e
    rw [get?_cons, keys_cons, List.mem_cons]
    by_cases h : k' = k
    · simp [h]
    · rw [if_neg h, ih]
      simp [Ne.symm h]

theorem get?_isSome_iff {d : Dict α β} {k : α} : (∃ v, get? d k = some v) ↔ k ∈ keys d := by
  rw [← Option.ne_none_iff_exists', ne_eq, get?_eq_none_iff, not_not]

/-- A key that is not among the items keeps what it had. -/
theorem get?_update_of_notMem {d items : Dict α β} {k : α} (h : k ∉ keys items) :
    get? (update d items) k = get? d k := by
  induction items generalizing d with
  | nil => rfl
  | cons e items ih =>
    rw [keys_cons, List.mem_cons, not_or] at h
    rw [update_cons, ih h.2, get?_set_of_ne d e.2 h.1]

/-- **What is read after an update**: the item of the key, or else what was there. -/
theorem get?_update {items : Dict α β} (hnodup : (keys items).Nodup) (d : Dict α β) (k : α) :
    get? (update d items) k = (get? items k).or (get? d k) := by
  induction items generalizing d with
  | nil => rfl
  | cons e items ih =>
    obtain ⟨k₁, v₁⟩ := e
    rw [keys_cons, List.nodup_cons] at hnodup
    rw [update_cons, ih hnodup.2, get?_cons, get?_set]
    by_cases h : k₁ = k
    · subst h
      rw [if_pos rfl, if_pos rfl, get?_eq_none_iff.2 hnodup.1]
      rfl
    · rw [if_neg h, if_neg h]

/-- Items that all are entries of one function, repeated or not. -/
theorem get?_update_graph {f : α → β} {items : Dict α β} (hf : ∀ e ∈ items, e.2 = f e.1)
    (d : Dict α β) (k : α) :
    get? (update d items) k = if k ∈ keys items then some (f k) else get? d k := by
  induction items generalizing d with
  | nil => simp
  | cons e items ih =>
    have he : e.2 = f e.1 := hf e List.mem_cons_self
    rw [update_cons, ih (fun e' he' => hf e' (List.mem_cons_of_mem _ he')), get?_set, he, keys_cons]
    by_cases hk : k ∈ keys items
    · rw [if_pos hk, if_pos (List.mem_cons_of_mem _ hk)]
    · rw [if_neg hk]
      by_cases hek : e.1 = k
      · subst hek
        rw [if_pos rfl, if_pos List.mem_cons_self]
      · rw [if_neg hek, if_neg]
        rw [List.mem_cons, not_or]
        exact ⟨Ne.symm hek, hk⟩

theorem get?_append (d d' : Dict α β) (k : α) : get? (d ++ d') k = (get? d k).or (get? d' k) :=
  List.lookup_append

/-- **A table**: a row for each element, whose own entry is at the key that is asked for and in no
    other row. -/
theorem get?_rows {γ : Type v} {row : γ → Nat → Dict α β} {value : γ → β} {k : α} {i n : Nat}
    (hown : ∀ x, get? (row x i) k = some (value x))
    (hother : ∀ x j, j < n → j ≠ i → get? (row x j) k = none) {l : List γ} {start : Nat}
    (hn : start + l.length ≤ n) (hstart : start ≤ i) :
    get? ((l.zipIdx start).flatMap fun e => row e.1 e.2) k = l[i - start]?.map value := by
  induction l generalizing start with
  | nil => simp
  | cons x l ih =>
    rw [List.length_cons] at hn
    rw [List.zipIdx_cons, List.flatMap_cons, get?_append]
    rcases Nat.eq_or_lt_of_le hstart with rfl | hlt
    · simp [hown]
    · have hsucc : i - start = (i - (start + 1)) + 1 := by omega
      rw [hother x start (by omega) (by omega), Option.none_or, ih (by omega) hlt, hsucc,
        List.getElem?_cons_succ]

/-! ## 3. Keys in order -/

theorem keys_set_of_mem {d : Dict α β} {k : α} (h : k ∈ keys d) (v : β) :
    keys (set d k v) = keys d := by
  induction d with
  | nil => cases h
  | cons e d ih =>
    obtain ⟨k', v'⟩ := e
    unfold set
    split
    · rename_i he
      subst he
      rfl
    · rename_i he
      rw [keys_cons, List.mem_cons] at h
      rw [keys_cons, keys_cons, ih (h.resolve_left (Ne.symm he))]

theorem keys_set_of_notMem {d : Dict α β} {k : α} (h : k ∉ keys d) (v : β) :
    set d k v = d ++ [(k, v)] := by
  induction d with
  | nil => rfl
  | cons e d ih =>
    rw [keys_cons, List.mem_cons, not_or] at h
    rw [set, if_neg (Ne.symm h.1), ih h.2]
    rfl

theorem keys_update_of_subset {d items : Dict α β} (h : ∀ k ∈ keys items, k ∈ keys d) :
    keys (update d items) = keys d := by
  induction items generalizing d with
  | nil => rfl
  | cons e items ih =>
    have hset : keys (set d e.1 e.2) = keys d := keys_set_of_mem (h e.1 List.mem_cons_self) e.2
    rw [update_cons, ih fun k hk => ?_, hset]
    rw [hset]
    exact h k (List.mem_cons_of_mem _ hk)

/-- **A dictionary is its keys in order and what they map to.** -/
theorem ext_of_get? {d d' : Dict α β} (hkeys : keys d = keys d') (hnodup : (keys d).Nodup)
    (h : ∀ k ∈ keys d, get? d k = get? d' k) : d = d' := by
  induction d generalizing d' with
  | nil =>
    cases d' with
    | nil => rfl
    | cons e d' => cases hkeys
  | cons e d ih =>
    cases d' with
    | nil => cases hkeys
    | cons e' d' =>
      obtain ⟨k, v⟩ := e
      obtain ⟨k', v'⟩ := e'
      obtain ⟨hk, htail⟩ := List.cons.inj hkeys
      cases hk
      have hv := h k List.mem_cons_self
      rw [get?_cons, get?_cons, if_pos rfl, if_pos rfl] at hv
      cases hv
      rw [keys_cons, List.nodup_cons] at hnodup
      have hrest : d = d' := by
        refine ih htail hnodup.2 fun k₁ hk₁ => ?_
        have hne : k ≠ k₁ := fun e => hnodup.1 (e ▸ hk₁)
        have h₁ := h k₁ (List.mem_cons_of_mem _ hk₁)
        rwa [get?_cons, get?_cons, if_neg hne, if_neg hne] at h₁
      rw [hrest]

/-- An update of the empty dictionary with distinct keys is the items. -/
theorem nil_update {items : Dict α β} (hnodup : (keys items).Nodup) : update [] items = items := by
  have happend : ∀ (d items : Dict α β), (keys (d ++ items)).Nodup →
      update d items = d ++ items := by
    intro d items
    induction items generalizing d with
    | nil => simp
    | cons e items ih =>
      intro hn
      have hnot : e.1 ∉ keys d := by
        intro hmem
        have hn : (keys d ++ keys (e :: items)).Nodup := by simpa [keys] using hn
        exact List.disjoint_of_nodup_append hn hmem List.mem_cons_self
      rw [update_cons, keys_set_of_notMem hnot, ih]
      · simp
      · simpa [keys] using hn
  simpa using happend [] items (by simpa using hnodup)

/-- **An update with all the keys of a dictionary leaves nothing of it.** -/
theorem update_eq {d items : Dict α β} (hkeys : keys d = keys items)
    (hnodup : (keys items).Nodup) : update d items = items := by
  have hk : keys (update d items) = keys items := by
    rw [keys_update_of_subset (fun k hk => hkeys ▸ hk), hkeys]
  refine ext_of_get? hk (hk ▸ hnodup) fun k hmem => ?_
  rw [hk] at hmem
  obtain ⟨v, hv⟩ := get?_isSome_iff.2 hmem
  rw [get?_update hnodup, hv]
  rfl

/-! ## 4. Assignments to a new dictionary -/

theorem nodup_keys_set {d : Dict α β} (h : (keys d).Nodup) (k : α) (v : β) :
    (keys (set d k v)).Nodup := by
  by_cases hk : k ∈ keys d
  · rwa [keys_set_of_mem hk]
  · rw [keys_set_of_notMem hk]
    have hsingle : (keys (d ++ [(k, v)])) = keys d ++ [k] := by simp [keys]
    rw [hsingle]
    exact List.nodup_append.mpr ⟨h, List.nodup_singleton k, fun a ha b hb e => by
      rw [List.mem_singleton.mp hb] at e
      exact hk (e ▸ ha)⟩

theorem nodup_keys_update {d : Dict α β} (h : (keys d).Nodup) (items : Dict α β) :
    (keys (update d items)).Nodup := by
  induction items generalizing d with
  | nil => exact h
  | cons e items ih => exact ih (nodup_keys_set h e.1 e.2)

/-- **A dictionary of items that agree on their keys**, repeated or not, maps every key to its item. -/
theorem get?_nil_update {items : Dict α β}
    (hagree : ∀ e ∈ items, ∀ e' ∈ items, e.1 = e'.1 → e.2 = e'.2) {k : α} {v : β} :
    get? (update [] items) k = some v ↔ (k, v) ∈ items := by
  constructor
  · intro h
    have horigin : get? ([] : Dict α β) k = some v ∨ ∃ e ∈ items, e = (k, v) := by
      refine foldl_origin (Q := fun d => get? d k = some v) (fun d e hd => ?_) h
      rw [get?_set] at hd
      split at hd
      · rename_i hk
        exact .inr (Prod.ext hk (Option.some.inj hd))
      · exact .inl hd
    rcases horigin with hnil | ⟨e, he, rfl⟩
    · cases hnil
    · exact he
  · generalize ([] : Dict α β) = d
    induction items generalizing d with
    | nil => exact nofun
    | cons e items ih =>
      intro hmem
      rw [update_cons]
      by_cases hk : k ∈ keys items
      · -- a later item of the key, which has the same value
        obtain ⟨e', he', rfl⟩ := List.mem_map.mp hk
        have hv : e'.2 = v :=
          hagree e' (List.mem_cons_of_mem e he') (e'.1, v) hmem rfl
        refine ih (fun a ha b hb => hagree a (List.mem_cons_of_mem e ha) b
          (List.mem_cons_of_mem e hb)) _ ?_
        rw [← hv]
        exact he'
      · rw [get?_update_of_notMem hk]
        rcases List.mem_cons.mp hmem with rfl | hmem
        · exact get?_set_self d k v
        · exact absurd (List.mem_map_of_mem hmem) hk

/-- The keys of a new dictionary are those of the items. -/
theorem mem_keys_nil_update {items : Dict α β} {k : α} :
    k ∈ keys (update [] items) ↔ k ∈ keys items := by
  constructor
  · intro h
    by_contra hk
    rw [← get?_isSome_iff] at h
    obtain ⟨v, hv⟩ := h
    rw [get?_update_of_notMem hk] at hv
    cases hv
  · intro h
    generalize ([] : Dict α β) = d
    induction items generalizing d with
    | nil => cases h
    | cons e items ih =>
      rw [update_cons]
      by_cases hk : k ∈ keys items
      · exact ih hk _
      · rw [keys_cons, List.mem_cons] at h
        rw [← get?_isSome_iff, get?_update_of_notMem hk, h.resolve_right hk]
        exact ⟨e.2, get?_set_self d e.1 e.2⟩

/-! ## 5. Sums over the values -/

def total (w : β → ℕ) (d : Dict α β) : ℕ := (d.map fun e => w e.2).sum

/-- **An assignment exchanges one value.** -/
theorem total_set (w : β → ℕ) (d : Dict α β) (k : α) (v : β) :
    total w (set d k v) + ((get? d k).map w).getD 0 = total w d + w v := by
  induction d with
  | nil => simp [total, set]
  | cons e d ih =>
    obtain ⟨k', v'⟩ := e
    unfold set
    rw [get?_cons]
    by_cases h : k' = k
    · rw [if_pos h, if_pos h]
      simp only [total, List.map_cons, List.sum_cons, Option.map_some, Option.getD_some]
      omega
    · rw [if_neg h, if_neg h]
      have hrest : total w (set d k v) + ((get? d k).map w).getD 0 = total w d + w v := ih
      simp only [total, List.map_cons, List.sum_cons] at hrest ⊢
      omega

/-- Values that are read weigh as much. -/
theorem total_congr {w w' : β → ℕ} {d : Dict α β} (hnodup : (keys d).Nodup)
    (h : ∀ k v, get? d k = some v → w v = w' v) : total w d = total w' d := by
  induction d with
  | nil => rfl
  | cons e d ih =>
    obtain ⟨k, v⟩ := e
    rw [keys_cons, List.nodup_cons] at hnodup
    have hhead : w v = w' v := h k v (by rw [get?_cons, if_pos rfl])
    have htail : total w d = total w' d := by
      refine ih hnodup.2 fun k₁ v₁ h₁ => h k₁ v₁ ?_
      have hne : k ≠ k₁ := fun e => hnodup.1 (e ▸ get?_isSome_iff.1 ⟨v₁, h₁⟩)
      rw [get?_cons, if_neg hne, h₁]
    simp only [total, List.map_cons, List.sum_cons] at htail ⊢
    omega

end Dict

end Basis
