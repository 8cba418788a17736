/-
  File:      BharatTicker/Basis/Aggregate.lean
  Subject:   AGGREGATION OF A KEYED STREAM. Library: no program fact.

  A list of entries `(key, value)` with values in a semigroup is aggregated by multiplying each run
  of equal keys.

  * `aggregate`, `aggregate_concat` -- from the right and from the left (`push`);
  * `aggregate_comp` -- aggregating by a finer key first changes nothing;
  * `aggregate_map` -- a homomorphism may be applied before or after;
  * `aggregate_sorted`, `mem_keys_aggregate`, `aggregate_group`, `aggregate_eq_dedup` -- on ordered
    keys the runs are the groups of the keys;
  * `sum_aggregate` -- sums are kept;
  * `assign`, `assign_eq_push` -- the insertion-ordered dictionary that a loop fills;
  * `OpensLast`, `foldl_getLast?_keys` -- the key that came up last.
-/
import Mathlib

namespace Basis

universe u v w

variable {κ : Type u} {κ' : Type v} {α : Type w}

/-! ## 1. Runs of equal keys -/

section Aggregate

variable [DecidableEq κ] [DecidableEq κ'] [Semigroup α]

/-- One more entry in front. -/
def absorb (x : κ × α) : List (κ × α) → List (κ × α)
  | [] => [x]
  | y :: l => if x.1 = y.1 then (y.1, x.2 * y.2) :: l else x :: y :: l

/-- One more entry at the end. -/
def push : List (κ × α) → κ × α → List (κ × α)
  | [], x => [x]
  | [y], x => if y.1 = x.1 then [(y.1, y.2 * x.2)] else [y, x]
  | y :: z :: l, x => y :: push (z :: l) x

/-- Each run of equal keys as one entry. -/
def aggregate (l : List (κ × α)) : List (κ × α) := l.foldr absorb []

@[simp] theorem aggregate_nil : aggregate ([] : List (κ × α)) = [] := rfl

@[simp] theorem aggregate_cons (x : κ × α) (l : List (κ × α)) :
    aggregate (x :: l) = absorb x (aggregate l) := rfl

/-- The two ends do not interfere. -/
theorem absorb_push (y x : κ × α) (l : List (κ × α)) :
    absorb y (push l x) = push (absorb y l) x := by
  rcases l with _ | ⟨z, _ | ⟨w, l⟩⟩
  · by_cases h : y.1 = x.1 <;> simp [absorb, push, h]
  · by_cases hz : z.1 = x.1
    · by_cases hy : y.1 = z.1
      · simp [absorb, push, hy, hz, mul_assoc]
      · simp [absorb, push, hz, hz ▸ hy]
    · by_cases hy : y.1 = z.1 <;> simp [absorb, push, hy, hz]
  · by_cases hy : y.1 = z.1 <;> simp [absorb, push, hy]

theorem aggregate_concat (l : List (κ × α)) (x : κ × α) :
    aggregate (l ++ [x]) = push (aggregate l) x := by
  induction l with
  | nil => rfl
  | cons y l ih => rw [List.cons_append, aggregate_cons, ih, absorb_push, aggregate_cons]

/-- Two entries of one key in front are their product in front. -/
theorem absorb_absorb {x y : κ × α} (h : x.1 = y.1) (l : List (κ × α)) :
    absorb x (absorb y l) = absorb (y.1, x.2 * y.2) l := by
  rcases l with _ | ⟨z, l⟩
  · simp [absorb, h]
  · by_cases hz : y.1 = z.1 <;> simp [absorb, h, hz, mul_assoc]

theorem aggregate_map_absorb (g : κ → κ') (x : κ × α) (l : List (κ × α)) :
    aggregate ((absorb x l).map (Prod.map g id)) =
      absorb (Prod.map g id x) (aggregate (l.map (Prod.map g id))) := by
  rcases l with _ | ⟨y, l⟩
  · rfl
  · by_cases h : x.1 = y.1
    · have hg : (Prod.map g id x).1 = (Prod.map g id y).1 := congrArg g h
      simp only [absorb, if_pos h, List.map_cons, aggregate_cons]
      exact (absorb_absorb hg _).symm
    · simp only [absorb, if_neg h, List.map_cons, aggregate_cons]

/-- **Aggregation composes**: runs of a coarser key may be built from the runs of a finer one. -/
theorem aggregate_comp (g : κ → κ') (l : List (κ × α)) :
    aggregate ((aggregate l).map (Prod.map g id)) = aggregate (l.map (Prod.map g id)) := by
  induction l with
  | nil => rfl
  | cons x l ih => rw [aggregate_cons, aggregate_map_absorb, ih, List.map_cons, aggregate_cons]

/-- A homomorphism of the values commutes with aggregation. -/
theorem aggregate_map {β : Type*} [Semigroup β] {φ : α → β} (hφ : ∀ a b, φ (a * b) = φ a * φ b)
    (l : List (κ × α)) :
    aggregate (l.map (Prod.map id φ)) = (aggregate l).map (Prod.map id φ) := by
  induction l with
  | nil => rfl
  | cons x l ih =>
    rw [List.map_cons, aggregate_cons, aggregate_cons, ih]
    rcases aggregate l with _ | ⟨y, l⟩
    · rfl
    · by_cases h : x.1 = y.1 <;> simp [absorb, h, hφ]

end Aggregate

/-! ## 2. Ordered keys -/

section Ordered

variable [LinearOrder κ] [Semigroup α]

omit [Semigroup α] in
/-- A sort by a key. -/
theorem insertionSort_key {β : Type v} (key : β → κ) (l : List β) :
    (l.insertionSort fun a b => key a ≤ key b).Pairwise fun a b => key a ≤ key b := by
  have : Std.Total (fun a b : β => key a ≤ key b) := ⟨fun a b => le_total _ _⟩
  have : IsTrans β (fun a b => key a ≤ key b) := ⟨fun a b c => le_trans⟩
  exact List.pairwise_insertionSort _ _

theorem mem_keys_absorb {x : κ × α} {l : List (κ × α)} {k : κ} :
    k ∈ (absorb x l).map Prod.fst ↔ k = x.1 ∨ k ∈ l.map Prod.fst := by
  rcases l with _ | ⟨y, l⟩
  · simp [absorb]
  · by_cases h : x.1 = y.1
    · simp [absorb, h]
    · simp [absorb, h]

theorem mem_keys_aggregate {l : List (κ × α)} {k : κ} :
    k ∈ (aggregate l).map Prod.fst ↔ k ∈ l.map Prod.fst := by
  induction l with
  | nil => rfl
  | cons x l ih => rw [aggregate_cons, mem_keys_absorb, ih, List.map_cons, List.mem_cons]

omit [Semigroup α] in
/-- What lies before the first of ascending keys lies before all of them. -/
theorem lt_keys_cons {z : κ × α} {A : List (κ × α)} {y : κ}
    (hs : ((z :: A).map Prod.fst).Pairwise (· < ·)) (hlt : y < z.1) :
    ∀ k ∈ (z :: A).map Prod.fst, y < k := by
  intro k hk
  rcases List.mem_cons.mp hk with rfl | hk
  · exact hlt
  · exact hlt.trans ((List.pairwise_cons.mp hs).1 k hk)

/-- On ordered keys each key has one run. -/
theorem aggregate_sorted {l : List (κ × α)} (h : (l.map Prod.fst).Pairwise (· ≤ ·)) :
    ((aggregate l).map Prod.fst).Pairwise (· < ·) := by
  induction l with
  | nil => exact List.Pairwise.nil
  | cons x l ih =>
    obtain ⟨hx, hl⟩ := List.pairwise_cons.mp h
    have hkeys : ∀ k ∈ (aggregate l).map Prod.fst, x.1 ≤ k := fun k hk =>
      hx k (mem_keys_aggregate.1 hk)
    have ih := ih hl
    rw [aggregate_cons]
    generalize aggregate l = A at hkeys ih
    rcases A with _ | ⟨y, A⟩
    · simp [absorb]
    · by_cases e : x.1 = y.1
      · simpa [absorb, e] using ih
      · have hlt : x.1 < y.1 := lt_of_le_of_ne (hkeys y.1 (by simp)) e
        rw [absorb, if_neg e, List.map_cons, List.pairwise_cons]
        exact ⟨lt_keys_cons ih hlt, ih⟩

/-- The values under one key, in order. -/
def groupOf (l : List (κ × α)) (k : κ) : List α := (l.filter fun x => x.1 = k).map Prod.snd

omit [Semigroup α] in
theorem groupOf_cons_self (x : κ × α) (l : List (κ × α)) :
    groupOf (x :: l) x.1 = x.2 :: groupOf l x.1 := by
  simp [groupOf]

omit [Semigroup α] in
theorem groupOf_cons_of_ne {x : κ × α} {k : κ} (h : x.1 ≠ k) (l : List (κ × α)) :
    groupOf (x :: l) k = groupOf l k := by
  simp [groupOf, h]

omit [Semigroup α] in
theorem groupOf_eq_nil {l : List (κ × α)} {k : κ} (h : k ∉ l.map Prod.fst) :
    groupOf l k = [] := by
  unfold groupOf
  rw [List.map_eq_nil_iff, List.filter_eq_nil_iff]
  intro x hx e
  exact h (of_decide_eq_true e ▸ List.mem_map_of_mem hx)

/-- An entry behind `y` comes from `y`, from `y` joined with the first run, or from a later key. -/
theorem mem_absorb {y : κ × α} {A : List (κ × α)} (hs : (A.map Prod.fst).Pairwise (· < ·))
    (hkeys : ∀ k ∈ A.map Prod.fst, y.1 ≤ k) {k : κ} {a : α} (ha : (k, a) ∈ absorb y A) :
    (y = (k, a) ∧ k ∉ A.map Prod.fst) ∨ (y.1 = k ∧ ∃ b, (k, b) ∈ A ∧ a = y.2 * b) ∨
      (y.1 < k ∧ (k, a) ∈ A) := by
  rcases A with _ | ⟨z, A⟩
  · rw [absorb, List.mem_singleton] at ha
    exact .inl ⟨ha.symm, List.not_mem_nil⟩
  · by_cases e : y.1 = z.1
    · rw [absorb, if_pos e] at ha
      rcases List.mem_cons.mp ha with hka | hka
      · cases hka
        exact .inr (.inl ⟨e, z.2, List.mem_cons_self, rfl⟩)
      · have hlt : y.1 < k :=
          e.trans_lt ((List.pairwise_cons.mp hs).1 k (List.mem_map_of_mem hka))
        exact .inr (.inr ⟨hlt, List.mem_cons_of_mem z hka⟩)
    · have hlt : y.1 < z.1 := lt_of_le_of_ne (hkeys z.1 (by simp)) e
      have hout : ∀ k ∈ (z :: A).map Prod.fst, y.1 < k := lt_keys_cons hs hlt
      rw [absorb, if_neg e] at ha
      rcases List.mem_cons.mp ha with hka | hka
      · exact .inl ⟨hka.symm, fun hk => (hout k hk).ne (congrArg Prod.fst hka.symm)⟩
      · exact .inr (.inr ⟨hout k (List.mem_map_of_mem hka), hka⟩)

/-- **On ordered keys an entry of the aggregate is the product of the group of its key.** -/
theorem aggregate_group {l : List (κ × α)} (h : (l.map Prod.fst).Pairwise (· ≤ ·)) {k : κ} {a : α}
    (ha : (k, a) ∈ aggregate l) :
    ∃ x xs, groupOf l k = x :: xs ∧ a = xs.foldl (· * ·) x := by
  induction l generalizing k a with
  | nil => cases ha
  | cons y l ih =>
    obtain ⟨hy, hl⟩ := List.pairwise_cons.mp h
    have hkeys : ∀ k ∈ (aggregate l).map Prod.fst, y.1 ≤ k := fun k hk =>
      hy k (mem_keys_aggregate.1 hk)
    rw [aggregate_cons] at ha
    rcases mem_absorb (aggregate_sorted hl) hkeys ha with ⟨rfl, hout⟩ | ⟨rfl, b, hb, rfl⟩ | ⟨hlt, ha⟩
    · refine ⟨a, [], ?_, rfl⟩
      rw [groupOf_cons_self (k, a), groupOf_eq_nil fun hk => hout (mem_keys_aggregate.2 hk)]
    · -- the run of `y` joined with the first run behind it
      obtain ⟨x, xs, hg, rfl⟩ := ih hl hb
      refine ⟨y.2, x :: xs, ?_, ?_⟩
      · rw [groupOf_cons_self, hg]
      · have hassoc : xs.foldl (· * ·) (y.2 * x) = y.2 * xs.foldl (· * ·) x := List.foldl_assoc
        rw [List.foldl_cons, hassoc]
    · rw [groupOf_cons_of_ne hlt.ne]
      exact ih hl ha

/-- **On ordered keys the aggregate has each key once, with the product of its group.** -/
theorem aggregate_eq_dedup {l : List (κ × α)} (h : (l.map Prod.fst).Pairwise (· ≤ ·))
    {f : List α → α} (hf : ∀ x xs, f (x :: xs) = xs.foldl (· * ·) x) :
    aggregate l = (l.map Prod.fst).dedup.map fun k => (k, f (groupOf l k)) := by
  have hlt := aggregate_sorted h
  have hkeys : (aggregate l).map Prod.fst = (l.map Prod.fst).dedup := by
    refine List.Perm.eq_of_pairwise (fun a b _ _ => le_antisymm) (hlt.imp fun h => le_of_lt h)
      (h.sublist (List.dedup_sublist _)) ?_
    refine (List.perm_ext_iff_of_nodup (hlt.imp fun h => ne_of_lt h) (List.nodup_dedup _)).mpr ?_
    intro k
    rw [mem_keys_aggregate, List.mem_dedup]
  rw [← hkeys, List.map_map]
  refine ((List.map_congr_left fun e he => ?_).trans (List.map_id _)).symm
  obtain ⟨x, xs, hgroup, hprod⟩ := aggregate_group h (show (e.1, e.2) ∈ aggregate l from he)
  refine Prod.ext rfl ?_
  rw [id_eq, hprod, ← hf x xs, ← hgroup]
  rfl

end Ordered

/-- What holds of all values and of products holds of the aggregate. -/
theorem aggregate_forall [DecidableEq κ] [Semigroup α] {P : α → Prop}
    (hmul : ∀ a b, P a → P b → P (a * b)) {l : List (κ × α)} (h : ∀ x ∈ l, P x.2) :
    ∀ x ∈ aggregate l, P x.2 := by
  induction l with
  | nil => exact h
  | cons x l ih =>
    have hx : P x.2 := h x List.mem_cons_self
    have ih := ih fun y hy => h y (List.mem_cons_of_mem x hy)
    rw [aggregate_cons]
    generalize aggregate l = A at ih
    rcases A with _ | ⟨y, A⟩
    · exact fun z hz => List.mem_singleton.mp hz ▸ hx
    · by_cases e : x.1 = y.1
      · rw [absorb, if_pos e]
        have hy : P y.2 := ih y List.mem_cons_self
        exact List.forall_mem_cons.mpr
          ⟨hmul _ _ hx hy, fun z hz => ih z (List.mem_cons_of_mem y hz)⟩
      · rw [absorb, if_neg e]
        exact List.forall_mem_cons.mpr ⟨hx, ih⟩

/-- What adds up under multiplication has one sum before and after, over any of the keys. -/
theorem sum_aggregate [DecidableEq κ] [Semigroup α] {β : Type*} [AddCommMonoid β] {φ : α → β}
    (hφ : ∀ a b, φ (a * b) = φ a + φ b) (p : κ → Bool) (l : List (κ × α)) :
    (((aggregate l).filter fun x => p x.1).map fun x => φ x.2).sum =
      ((l.filter fun x => p x.1).map fun x => φ x.2).sum := by
  have hcons : ∀ (x : κ × α) (l : List (κ × α)), (((x :: l).filter fun x => p x.1).map
      fun x => φ x.2).sum = (if p x.1 then φ x.2 else 0) +
        ((l.filter fun x => p x.1).map fun x => φ x.2).sum := by
    intro x l
    cases hp : p x.1 <;> simp [hp]
  induction l with
  | nil => rfl
  | cons x l ih =>
    rw [hcons, ← ih, aggregate_cons]
    rcases aggregate l with _ | ⟨y, l⟩
    · exact hcons x []
    · by_cases h : x.1 = y.1
      · rw [absorb, if_pos h, hcons, hcons, h, ← add_assoc]
        cases p y.1 <;> simp [hφ]
      · rw [absorb, if_neg h, hcons]

/-! ## 3. The dictionary of a loop -/

section Assign

variable [DecidableEq κ]

/-- Assignment to an insertion-ordered dictionary. -/
def assign : List (κ × α) → κ → α → List (κ × α)
  | [], k, a => [(k, a)]
  | y :: l, k, a => if y.1 = k then (k, a) :: l else y :: assign l k a

theorem assign_nil (k : κ) (a : α) : assign [] k a = [(k, a)] := rfl

theorem assign_cons (y : κ × α) (l : List (κ × α)) (k : κ) (a : α) :
    assign (y :: l) k a = if y.1 = k then (k, a) :: l else y :: assign l k a := rfl

/-- The entry under a key. -/
def entryAt (l : List (κ × α)) (k : κ) : Option α := (l.find? fun x => x.1 = k).map Prod.snd

theorem entryAt_cons (y : κ × α) (l : List (κ × α)) (k : κ) :
    entryAt (y :: l) k = if y.1 = k then some y.2 else entryAt l k := by
  by_cases h : y.1 = k <;> simp [entryAt, h]

theorem entryAt_eq_none {l : List (κ × α)} {k : κ} :
    entryAt l k = none ↔ k ∉ l.map Prod.fst := by
  rw [entryAt, Option.map_eq_none_iff, List.find?_eq_none]
  constructor
  · intro h hk
    obtain ⟨x, hx, e⟩ := List.mem_map.mp hk
    exact h x hx (decide_eq_true e)
  · intro h x hx e
    exact h (List.mem_map.mpr ⟨x, hx, of_decide_eq_true e⟩)

theorem mem_of_entryAt {l : List (κ × α)} {k : κ} {a : α} (h : entryAt l k = some a) :
    (k, a) ∈ l := by
  obtain ⟨x, hx, rfl⟩ := Option.map_eq_some_iff.mp h
  have hk : decide (x.1 = k) = true := List.find?_some (p := fun x : κ × α => decide (x.1 = k)) hx
  rw [← of_decide_eq_true hk]
  exact List.mem_of_find?_eq_some hx

theorem entryAt_assign (l : List (κ × α)) (k : κ) (a : α) (k' : κ) :
    entryAt (assign l k a) k' = if k = k' then some a else entryAt l k' := by
  induction l with
  | nil => exact entryAt_cons (k, a) [] k'
  | cons y l ih =>
    by_cases h : y.1 = k
    · rw [assign_cons, if_pos h, entryAt_cons, entryAt_cons, h]
      by_cases hk : k = k' <;> simp [hk]
    · rw [assign_cons, if_neg h, entryAt_cons, entryAt_cons, ih]
      by_cases hk : y.1 = k'
      · have hne : k ≠ k' := fun e => h (hk.trans e.symm)
        simp [hk, hne]
      · simp [hk]

theorem mem_keys_assign {l : List (κ × α)} {k k' : κ} {a : α} :
    k' ∈ (assign l k a).map Prod.fst ↔ k' = k ∨ k' ∈ l.map Prod.fst := by
  induction l with
  | nil => simp [assign_nil]
  | cons y l ih =>
    by_cases h : y.1 = k
    · simp [assign_cons, h]
    · rw [assign_cons, if_neg h, List.map_cons, List.mem_cons, ih, List.map_cons, List.mem_cons]
      tauto

theorem keys_assign (l : List (κ × α)) (k : κ) (a : α) :
    (assign l k a).map Prod.fst =
      if k ∈ l.map Prod.fst then l.map Prod.fst else l.map Prod.fst ++ [k] := by
  induction l with
  | nil => simp [assign_nil]
  | cons y l ih =>
    by_cases h : y.1 = k
    · simp [assign_cons, h]
    · have hmem : k ∈ (y :: l).map Prod.fst ↔ k ∈ l.map Prod.fst := by
        rw [List.map_cons, List.mem_cons]
        exact or_iff_right fun e => h e.symm
      rw [assign_cons, if_neg h, List.map_cons, ih]
      by_cases hk : k ∈ l.map Prod.fst
      · rw [if_pos hk, if_pos (hmem.mpr hk), List.map_cons]
      · rw [if_neg hk, if_neg (hmem.not.mpr hk), List.map_cons, List.cons_append]

/-- Under a new key. -/
theorem assign_of_notMem {l : List (κ × α)} {k : κ} (h : k ∉ l.map Prod.fst) (a : α) :
    assign l k a = l ++ [(k, a)] := by
  induction l with
  | nil => rfl
  | cons y l ih =>
    rw [List.map_cons, List.mem_cons, not_or] at h
    rw [assign_cons, if_neg (Ne.symm h.1), ih h.2, List.cons_append]

theorem entryAt_map {β : Type*} (f : α → β) (l : List (κ × α)) (k : κ) :
    entryAt (l.map (Prod.map id f)) k = (entryAt l k).map f := by
  induction l with
  | nil => rfl
  | cons y l ih =>
    rw [List.map_cons, entryAt_cons, entryAt_cons, ih]
    by_cases h : y.1 = k <;> simp [h]

theorem assign_map {β : Type*} (f : α → β) (l : List (κ × α)) (k : κ) (a : α) :
    assign (l.map (Prod.map id f)) k (f a) = (assign l k a).map (Prod.map id f) := by
  induction l with
  | nil => rfl
  | cons y l ih => by_cases h : y.1 = k <;> simp [assign_cons, h, ih]

/-- Entries are kept by their keys: an assignment to a key that is kept. -/
theorem filter_assign_of_pos {p : κ → Bool} {k : κ} (hk : p k = true) (l : List (κ × α)) (a : α) :
    (assign l k a).filter (fun x => p x.1) = assign (l.filter fun x => p x.1) k a := by
  induction l with
  | nil => simp [assign_nil, hk]
  | cons y l ih =>
    by_cases e : y.1 = k
    · simp [assign_cons, e, hk]
    · cases hy : p y.1 <;> simp [assign_cons, e, hy, ih]

/-- One to a key that is not. -/
theorem filter_assign_of_neg {p : κ → Bool} {k : κ} (hk : p k = false) (l : List (κ × α)) (a : α) :
    (assign l k a).filter (fun x => p x.1) = l.filter fun x => p x.1 := by
  induction l with
  | nil => simp [assign_nil, hk]
  | cons y l ih =>
    by_cases e : y.1 = k
    · simp [assign_cons, e, hk]
    · cases hy : p y.1 <;> simp [assign_cons, e, hy, ih]

/-- Assignment keeps the keys distinct. -/
theorem nodup_keys_assign {l : List (κ × α)} (h : (l.map Prod.fst).Nodup) (k : κ) (a : α) :
    ((assign l k a).map Prod.fst).Nodup := by
  induction l with
  | nil => simp [assign_nil]
  | cons y l ih =>
    obtain ⟨hy, hl⟩ := List.nodup_cons.mp h
    by_cases e : y.1 = k
    · rw [assign_cons, if_pos e, List.map_cons, ← e]
      exact h
    · rw [assign_cons, if_neg e, List.map_cons]
      refine List.nodup_cons.mpr ⟨fun hmem => ?_, ih hl⟩
      rcases mem_keys_assign.1 hmem with h' | h'
      · exact e h'
      · exact hy h'

/-- Assigning a list of entries with distinct keys. -/
theorem entryAt_foldl_assign (rows l : List (κ × α)) (h : (rows.map Prod.fst).Nodup) (k : κ) :
    entryAt (rows.foldl (fun l r => assign l r.1 r.2) l) k = (entryAt rows k).or (entryAt l k) := by
  induction rows generalizing l with
  | nil => rfl
  | cons r rows ih =>
    obtain ⟨hr, hrows⟩ := List.nodup_cons.mp h
    rw [List.foldl_cons, ih _ hrows, entryAt_assign, entryAt_cons]
    by_cases e : r.1 = k
    · have hn : entryAt rows k = none := entryAt_eq_none.2 (e ▸ hr)
      simp [e, hn]
    · simp [e]

theorem entryAt_push_of_ne [Semigroup α] {x : κ × α} {k : κ} (h : k ≠ x.1) (l : List (κ × α)) :
    entryAt (push l x) k = entryAt l k := by
  induction l with
  | nil => simp [push, entryAt, h.symm]
  | cons y l ih =>
    rcases l with _ | ⟨z, l⟩
    · by_cases e : y.1 = x.1
      · have hy : y.1 ≠ k := fun h' => h (h'.symm.trans e)
        simp only [push, if_pos e, entryAt_cons, if_neg hy]
      · simp only [push, if_neg e, entryAt_cons, if_neg h.symm]
    · rw [push, entryAt_cons, entryAt_cons, ih]

end Assign

/-- Where the keys are ordered and `k` is not below them, combining `a` into the entry under `k` is
    `push`. -/
theorem assign_eq_push [LinearOrder κ] [Semigroup α] {l : List (κ × α)}
    (hs : (l.map Prod.fst).Pairwise (· < ·)) {k : κ} (hk : ∀ k' ∈ l.map Prod.fst, k' ≤ k) (a : α) :
    assign l k (match entryAt l k with | some b => b * a | none => a) = push l (k, a) := by
  induction l with
  | nil => rfl
  | cons y l ih =>
    obtain ⟨hy, hs⟩ := List.pairwise_cons.mp hs
    have hk' : ∀ k' ∈ l.map Prod.fst, k' ≤ k := fun k' h => hk k' (List.mem_cons_of_mem _ h)
    rcases l with _ | ⟨z, l⟩
    · by_cases e : y.1 = k <;> simp [assign_nil, assign_cons, push, entryAt, e]
    · have hlt : y.1 < k := lt_of_lt_of_le (hy z.1 (by simp)) (hk z.1 (by simp))
      rw [push, ← ih hs hk', entryAt_cons, if_neg hlt.ne]
      simp only [assign_cons, if_neg hlt.ne]

/-! ## 4. The key that came up last -/

section OpensLast

variable {β : Type v}

/-- `a` is the last of `l` whose key had not come up before. -/
def OpensLast (key : β → κ) (l : List β) (a : β) : Prop :=
  ∃ pre post, l = pre ++ a :: post ∧ key a ∉ pre.map key ∧
    ∀ b ∈ post, key b ∈ (pre ++ [a]).map key

variable {key : β → κ} {l : List β} {a b : β}

theorem opensLast_concat_of_mem (h : key b ∈ l.map key) :
    OpensLast key (l ++ [b]) a ↔ OpensLast key l a := by
  constructor
  · intro hex
    obtain ⟨pre, post, e, ha, hpost⟩ := hex
    rcases List.eq_nil_or_concat' post with rfl | ⟨post, c, rfl⟩
    · obtain ⟨rfl, hb⟩ := List.append_inj' e rfl
      cases hb
      exact absurd h ha
    · have e' : l ++ [b] = (pre ++ a :: post) ++ [c] := by simpa using e
      obtain ⟨rfl, -⟩ := List.append_inj' e' rfl
      exact ⟨pre, post, rfl, ha, fun d hd => hpost d (List.mem_append_left _ hd)⟩
  · intro hex
    obtain ⟨pre, post, rfl, ha, hpost⟩ := hex
    refine ⟨pre, post ++ [b], by simp, ha, fun d hd => ?_⟩
    rcases List.mem_append.mp hd with hd | hd
    · exact hpost d hd
    · cases List.mem_singleton.mp hd
      -- a key of `post` is one of `pre ++ [a]`
      obtain ⟨c, hc, e⟩ := List.mem_map.mp h
      rw [← e]
      rcases List.mem_append.mp hc with hc | hc
      · exact List.mem_map_of_mem (List.mem_append_left _ hc)
      · rcases List.mem_cons.mp hc with rfl | hc
        · exact List.mem_map_of_mem (List.mem_append_right _ (List.mem_singleton.mpr rfl))
        · exact hpost c hc

theorem opensLast_concat_of_notMem (h : key b ∉ l.map key) :
    OpensLast key (l ++ [b]) a ↔ a = b := by
  constructor
  · intro hex
    obtain ⟨pre, post, e, ha, hpost⟩ := hex
    rcases List.eq_nil_or_concat' post with rfl | ⟨post, c, rfl⟩
    · obtain ⟨-, hb⟩ := List.append_inj' e rfl
      cases hb
      rfl
    · have e' : l ++ [b] = (pre ++ a :: post) ++ [c] := by simpa using e
      obtain ⟨rfl, hc⟩ := List.append_inj' e' rfl
      cases hc
      obtain ⟨d, hd, e⟩ := List.mem_map.mp
        (hpost b (List.mem_append_right _ (List.mem_singleton.mpr rfl)))
      refine absurd (List.mem_map.mpr ⟨d, ?_, e⟩) h
      rcases List.mem_append.mp hd with hd | hd
      · exact List.mem_append_left _ hd
      · cases List.mem_singleton.mp hd
        exact List.mem_append_right _ List.mem_cons_self
  · intro e
    subst e
    exact ⟨l, [], rfl, h, fun c hc => by cases hc⟩

section Loop

variable {σ : Type*} [DecidableEq κ] (keys : σ → List κ) {f : σ → β → σ} {s₀ : σ}

/-- The keys of a dictionary that a loop fills are those that came up. -/
theorem mem_foldl_keys
    (hf : ∀ s b, keys (f s b) = if key b ∈ keys s then keys s else keys s ++ [key b])
    (h₀ : keys s₀ = []) (l : List β) (k : κ) : k ∈ keys (l.foldl f s₀) ↔ k ∈ l.map key := by
  induction l using List.reverseRecOn with
  | nil => simp [h₀]
  | append_singleton l b ih =>
    rw [List.foldl_append, List.foldl_cons, List.foldl_nil, hf, List.map_append, List.mem_append,
      ← ih]
    split_ifs with hb
    · refine ⟨Or.inl, fun h => ?_⟩
      rcases h with h | h
      · exact h
      · rw [List.map_singleton, List.mem_singleton] at h
        exact h ▸ hb
    · exact List.mem_append

/-- **The last key of a dictionary that a loop fills** is the key that came up last, whatever else
    the loop computes. -/
theorem foldl_getLast?_keys
    (hf : ∀ s b, keys (f s b) = if key b ∈ keys s then keys s else keys s ++ [key b])
    (h₀ : keys s₀ = []) (l : List β) (k : κ) :
    (keys (l.foldl f s₀)).getLast? = some k ↔ ∃ a, OpensLast key l a ∧ key a = k := by
  induction l using List.reverseRecOn with
  | nil =>
    constructor
    · intro h
      simp [h₀] at h
    · intro h
      obtain ⟨a, ⟨pre, post, e, -⟩, -⟩ := h
      simp at e
  | append_singleton l b ih =>
    have hmem := mem_foldl_keys keys hf h₀ l (key b)
    rw [List.foldl_append, List.foldl_cons, List.foldl_nil, hf]
    by_cases hb : key b ∈ l.map key
    · rw [if_pos (hmem.mpr hb)]
      simp only [opensLast_concat_of_mem hb]
      exact ih
    · rw [if_neg fun h => hb (hmem.mp h)]
      simp only [opensLast_concat_of_notMem hb, List.getLast?_append, List.getLast?_singleton,
        Option.some_or, Option.some.injEq, exists_eq_left]

end Loop

/-- Where the keys ascend, the dictionary is sorted. -/
theorem foldl_keys_sorted {σ : Type*} [LinearOrder κ] (keys : σ → List κ) {f : σ → β → σ}
    {s₀ : σ}
    (hf : ∀ s b, keys (f s b) = if key b ∈ keys s then keys s else keys s ++ [key b])
    (h₀ : keys s₀ = []) {l : List β} (ho : (l.map key).Pairwise (· ≤ ·)) :
    (keys (l.foldl f s₀)).Pairwise (· < ·) := by
  induction l using List.reverseRecOn with
  | nil => simp [h₀]
  | append_singleton l b ih =>
    rw [List.map_append] at ho
    obtain ⟨ho, -, hb⟩ := List.pairwise_append.mp ho
    rw [List.foldl_append, List.foldl_cons, List.foldl_nil, hf]
    split_ifs with hmem
    · exact ih ho
    · refine List.pairwise_append.mpr ⟨ih ho, List.pairwise_singleton .., fun k hk k' hk' => ?_⟩
      rw [List.mem_singleton] at hk'
      subst hk'
      have hk := (mem_foldl_keys keys hf h₀ l k).mp hk
      refine lt_of_le_of_ne (hb k hk _ (by simp)) fun e => hmem ?_
      rw [← e]
      exact (mem_foldl_keys keys hf h₀ l k).mpr hk

end OpensLast

/-- Where the keys ascend, the key that came up last is the key of the last element. -/
theorem opensLast_of_ordered {β : Type v} [LinearOrder κ] {key : β → κ} {l : List β}
    (ho : (l.map key).Pairwise (· ≤ ·)) (k : κ) :
    (∃ a, OpensLast key l a ∧ key a = k) ↔ ∃ a, l.getLast? = some a ∧ key a = k := by
  induction l using List.reverseRecOn with
  | nil =>
    refine iff_of_false ?_ (by simp)
    intro h
    obtain ⟨a, ⟨pre, post, e, -⟩, -⟩ := h
    simp at e
  | append_singleton l b ih =>
    rw [List.map_append, List.map_singleton] at ho
    obtain ⟨ho, -, hb⟩ := List.pairwise_append.mp ho
    have hle : ∀ c ∈ l, key c ≤ key b := fun c hc =>
      hb _ (List.mem_map_of_mem hc) _ (List.mem_singleton.mpr rfl)
    by_cases hmem : key b ∈ l.map key
    · simp only [opensLast_concat_of_mem hmem, ih ho, List.getLast?_append,
        List.getLast?_singleton, Option.some_or, Option.some.injEq, exists_eq_left']
      -- the last key so far lies between a key that is `key b` and `key b`
      obtain ⟨c, hc, e⟩ := List.mem_map.mp hmem
      obtain ⟨l', d, rfl⟩ := List.eq_nil_or_concat' l |>.resolve_left (List.ne_nil_of_mem hc)
      have hdb : key d = key b := by
        refine le_antisymm (hle d (by simp)) ?_
        rw [← e]
        rcases List.mem_append.mp hc with hc | hc
        · rw [List.map_append] at ho
          exact (List.pairwise_append.mp ho).2.2 _ (List.mem_map_of_mem hc) _ (by simp)
        · rw [List.mem_singleton.mp hc]
      simp [hdb]
    · simp only [opensLast_concat_of_notMem hmem, List.getLast?_append, List.getLast?_singleton,
        Option.some_or, Option.some.injEq, exists_eq_left, exists_eq_left']

end Basis
