/-
  File:      BharatTicker/Basis/Counter.lean
  Subject:   INCREASES OF A CUMULATIVE COUNTER. Library: no program fact.

  A counter is read now and then; what has been counted between two readings is their difference,
  and a reading below the one before it starts anew.

  * `withPrevious`, `filter_withPrevious_key` -- each element with the one before it, and those of one
    key among ordered keys;
  * `rise`, `rises` -- the increase of a reading over the one before it;
  * `sum_rises_ascending` -- the increases of a part that ascends;
  * `sum_rises_gaps_iff` -- readings some of which are missing and stand as zeros: the increases add
    up to last minus first of the others exactly when these all come first.

  Over any ordered additive group.
-/
import Mathlib

namespace Basis

/-! ## Elements with the one before them -/

section Previous

variable {α : Type*} {prev : Option α} {l pre post : List α}

/-- Each element with the one before it; `prev` is the one before the first. -/
def withPrevious : Option α → List α → List (Option α × α)
  | _, [] => []
  | prev, x :: xs => (prev, x) :: withPrevious (some x) xs

theorem withPrevious_snd (prev : Option α) (l : List α) :
    (withPrevious prev l).map Prod.snd = l := by
  induction l generalizing prev with
  | nil => rfl
  | cons x xs ih => rw [withPrevious, List.map_cons, ih]

/-- The one before an element is another one of the list, or the one before the first. -/
theorem withPrevious_fst {e : Option α × α} (he : e ∈ withPrevious prev l) :
    e.1 = prev ∨ ∃ y ∈ l, e.1 = some y := by
  induction l generalizing prev with
  | nil => cases he
  | cons x xs ih =>
    rcases List.mem_cons.mp he with rfl | he
    · exact .inl rfl
    · rcases ih he with h | ⟨y, hy, h⟩
      · exact .inr ⟨x, List.mem_cons_self, h⟩
      · exact .inr ⟨y, List.mem_cons_of_mem x hy, h⟩

/-- The last element so far, of a list behind another one. -/
theorem getLast?_cons_or (x : α) (l : List α) (prev : Option α) :
    (x :: l).getLast?.or prev = l.getLast?.or (some x) := by
  rw [List.getLast?_cons]
  cases l.getLast? <;> rfl

theorem withPrevious_append (prev : Option α) (l m : List α) :
    withPrevious prev (l ++ m) = withPrevious prev l ++ withPrevious (l.getLast?.or prev) m := by
  induction l generalizing prev with
  | nil => rfl
  | cons x xs ih =>
    rw [List.cons_append, withPrevious, ih, getLast?_cons_or, withPrevious, List.cons_append]

/-- What is chosen by the elements alone is chosen whatever comes before them. -/
theorem filter_withPrevious_eq_nil {p : α → Bool} (h : ∀ x ∈ l, p x = false) :
    ((withPrevious prev l).filter fun x => p x.2) = [] := by
  refine List.filter_eq_nil_iff.mpr fun x hx => ?_
  have hmem : x.2 ∈ l := by
    rw [← withPrevious_snd prev l]
    exact List.mem_map_of_mem hx
  simp [h x.2 hmem]

/-- **The middle of a list** sees its own elements and the one before its first. -/
theorem filter_withPrevious_middle {p : α → Bool} (hpre : ∀ x ∈ pre, p x = false) (own : List α)
    (hpost : ∀ x ∈ post, p x = false) :
    ((withPrevious none (pre ++ own ++ post)).filter fun x => p x.2) =
      (withPrevious pre.getLast? own).filter fun x => p x.2 := by
  rw [withPrevious_append, withPrevious_append, List.filter_append, List.filter_append,
    filter_withPrevious_eq_nil hpre, filter_withPrevious_eq_nil hpost, List.nil_append,
    List.append_nil, Option.or_none]

section Key

variable {κ : Type*} [LinearOrder κ] {key : α → κ}

/-- A list in the order of its keys: what is before a key, the key, and what is after it. -/
theorem filter_keys (h : l.Pairwise fun x y => key x ≤ key y) (k : κ) :
    l = (l.filter fun x => key x < k) ++ (l.filter fun x => key x = k) ++
      l.filter fun x => k < key x := by
  induction l with
  | nil => rfl
  | cons x l ih =>
    have hle : ∀ y ∈ l, key x ≤ key y := fun y hy => List.rel_of_pairwise_cons h hy
    have ih := ih h.of_cons
    rcases lt_trichotomy (key x) k with hlt | heq | hgt
    · rw [List.filter_cons_of_pos (by simpa using hlt), List.filter_cons_of_neg (by simpa using hlt.ne),
        List.filter_cons_of_neg (by simpa using hlt.le), List.cons_append, List.cons_append, ← ih]
    · -- nothing is before the key any more
      have hnil : (l.filter fun x => key x < k) = [] :=
        List.filter_eq_nil_iff.mpr fun y hy => by simpa using heq ▸ hle y hy
      rw [hnil, List.nil_append] at ih
      rw [List.filter_cons_of_neg (by simpa using heq.ge), List.filter_cons_of_pos (by simpa using heq),
        List.filter_cons_of_neg (by simpa using heq.le), hnil, List.nil_append, List.cons_append, ← ih]
    · have hafter : ∀ y ∈ l, k < key y := fun y hy => hgt.trans_le (hle y hy)
      have hbefore : (l.filter fun x => key x < k) = [] :=
        List.filter_eq_nil_iff.mpr fun y hy => by simpa using (hafter y hy).le
      have hown : (l.filter fun x => key x = k) = [] :=
        List.filter_eq_nil_iff.mpr fun y hy => by simpa using (hafter y hy).ne'
      rw [hbefore, hown, List.append_nil, List.nil_append] at ih
      rw [List.filter_cons_of_neg (by simpa using hgt.le),
        List.filter_cons_of_neg (by simpa using hgt.ne'),
        List.filter_cons_of_pos (by simpa using hgt), hbefore, hown, List.append_nil,
        List.nil_append, ← ih]

/-- **The elements of one key** see each other and the last one before them. -/
theorem filter_withPrevious_key (h : l.Pairwise fun x y => key x ≤ key y) (k : κ) :
    ((withPrevious none l).filter fun x => key x.2 = k) =
      withPrevious (l.filter fun x => key x < k).getLast? (l.filter fun x => key x = k) := by
  have hpre : ∀ x ∈ l.filter fun x => key x < k, decide (key x = k) = false := fun x hx =>
    decide_eq_false (of_decide_eq_true (List.mem_filter.mp hx).2).ne
  have hpost : ∀ x ∈ l.filter fun x => k < key x, decide (key x = k) = false := fun x hx =>
    decide_eq_false (of_decide_eq_true (List.mem_filter.mp hx).2).ne'
  have hmiddle := filter_withPrevious_middle hpre (l.filter fun x => key x = k) hpost
  rw [← filter_keys h k] at hmiddle
  refine hmiddle.trans (List.filter_eq_self.mpr fun x hx => ?_)
  have hmem : x.2 ∈ l.filter fun x => key x = k := by
    rw [← withPrevious_snd (l.filter fun x => key x < k).getLast? (l.filter fun x => key x = k)]
    exact List.mem_map_of_mem hx
  exact (List.mem_filter.mp hmem).2

end Key

end Previous

/-! ## Increases -/

variable {K : Type*} [AddCommGroup K] [LinearOrder K]

/-- The increase over the reading before, if there is one and it is not larger. -/
def rise (prev : Option K) (x : K) : K :=
  match prev with
  | some c => if c ≤ x then x - c else 0
  | none => 0

/-- The increase of each reading; `prev` is the one before the first. -/
def rises : Option K → List K → List K
  | _, [] => []
  | prev, x :: xs => rise prev x :: rises (some x) xs

theorem rise_of_le {c x : K} (h : c ≤ x) : rise (some c) x = x - c := if_pos h

theorem rise_of_lt {c x : K} (h : x < c) : rise (some c) x = 0 := if_neg (not_le.mpr h)

theorem rises_eq_map {α : Type*} (f : α → K) (prev : Option α) (l : List α) :
    rises (prev.map f) (l.map f) = (withPrevious prev l).map fun x => rise (x.1.map f) (f x.2) := by
  induction l generalizing prev with
  | nil => rfl
  | cons x l ih =>
    rw [List.map_cons, rises, withPrevious, List.map_cons, ← ih (some x)]
    rfl

/-- The last reading minus the first; of no readings nothing. -/
def lastMinusFirst (l : List K) : K := l.getLast?.getD 0 - l.head?.getD 0

omit [LinearOrder K] in
theorem lastMinusFirst_cons_cons (x y : K) (l : List K) :
    lastMinusFirst (x :: y :: l) = y - x + lastMinusFirst (y :: l) := by
  unfold lastMinusFirst
  rw [List.getLast?_cons_cons]
  simp

section Ascending

variable [IsOrderedAddMonoid K]

/-- From a lower first reading on, more has been counted. -/
theorem lastMinusFirst_le {c : K} (h : 0 ≤ c) (l : List K) :
    lastMinusFirst (c :: l) ≤ lastMinusFirst (0 :: l) := by
  rcases l with _ | ⟨x, l⟩
  · simp [lastMinusFirst]
  · rw [lastMinusFirst_cons_cons, lastMinusFirst_cons_cons]
    gcongr

theorem rise_nonneg (prev : Option K) (x : K) : 0 ≤ rise prev x := by
  cases prev with
  | none => exact le_refl 0
  | some c =>
    unfold rise
    dsimp only
    split
    · exact sub_nonneg.mpr ‹_›
    · exact le_refl 0

omit [IsOrderedAddMonoid K] in
/-- Nothing is counted exactly where no reading before is lower. -/
theorem rise_eq_zero_iff {prev : Option K} {x : K} : rise prev x = 0 ↔ ∀ c ∈ prev, x ≤ c := by
  cases prev with
  | none => exact iff_of_true rfl fun c hc => by cases hc
  | some c =>
    have hmem : (∀ d ∈ some c, x ≤ d) ↔ x ≤ c := by simp
    rw [hmem]
    rcases le_or_gt c x with h | h
    · rw [rise_of_le h, sub_eq_zero]
      exact ⟨fun e => e.le, fun hle => le_antisymm hle h⟩
    · rw [rise_of_lt h]
      exact iff_of_true rfl h.le

/-- Of readings that count from zero, no more than the reading itself is counted. -/
theorem rise_le_self {prev : Option K} (hprev : ∀ c ∈ prev, 0 ≤ c) {x : K} (hx : 0 ≤ x) :
    rise prev x ≤ x := by
  cases prev with
  | none => exact hx
  | some c =>
    rcases le_or_gt c x with h | h
    · rw [rise_of_le h]
      exact sub_le_self x (hprev c rfl)
    · rw [rise_of_lt h]
      exact hx

omit [IsOrderedAddMonoid K] in
/-- All of the reading is counted exactly where it, or the one before it, is zero. -/
theorem rise_eq_self_iff {prev : Option K} (hprev : ∀ c ∈ prev, 0 ≤ c) {x : K} (hx : 0 ≤ x) :
    rise prev x = x ↔ x = 0 ∨ ∃ c ∈ prev, c = 0 := by
  cases prev with
  | none => simp [rise, eq_comm]
  | some c =>
    have hmem : (∃ d ∈ some c, d = 0) ↔ c = 0 := by simp
    rw [hmem]
    rcases le_or_gt c x with h | h
    · rw [rise_of_le h, sub_eq_self]
      refine ⟨Or.inr, fun hzero => ?_⟩
      rcases hzero with rfl | hc
      · exact le_antisymm h (hprev c rfl)
      · exact hc
    · rw [rise_of_lt h, eq_comm]
      exact (or_iff_left (hx.trans_lt h).ne').symm

omit [IsOrderedAddMonoid K] in
/-- **A part that ascends** adds up to its last reading minus its first, and what the first one adds. -/
theorem sum_rises_ascending (prev : Option K) {x : K} {xs : List K}
    (h : (x :: xs).Pairwise (· ≤ ·)) :
    (rises prev (x :: xs)).sum = rise prev x + lastMinusFirst (x :: xs) := by
  induction xs generalizing prev x with
  | nil => simp [rises, lastMinusFirst]
  | cons y ys ih =>
    have hxy : x ≤ y := List.rel_of_pairwise_cons h List.mem_cons_self
    rw [rises, List.sum_cons, ih (some x) h.of_cons, rise_of_le hxy, lastMinusFirst_cons_cons]

end Ascending

/-! ## Missing readings -/

section Gaps

variable [IsOrderedAddMonoid K] {p : K} {l : List K}

/-- The readings that are there; a missing one stands as zero. -/
def carrying (l : List K) : List K := l.filter fun x => x ≠ 0

omit [IsOrderedAddMonoid K] in
theorem carrying_cons_of_ne {x : K} (h : x ≠ 0) (l : List K) :
    carrying (x :: l) = x :: carrying l := List.filter_cons_of_pos (by simpa using h)

omit [IsOrderedAddMonoid K] in
theorem carrying_cons_zero (l : List K) : carrying (0 :: l) = carrying l :=
  List.filter_cons_of_neg (by simp)

omit [IsOrderedAddMonoid K] in
theorem carrying_eq_nil_iff : carrying l = [] ↔ ∀ x ∈ l, x = 0 := by
  simp [carrying, List.filter_eq_nil_iff]

omit [IsOrderedAddMonoid K] in
theorem rises_zeros (h : ∀ x ∈ l, x = 0) (hp : 0 ≤ p) : (rises (some p) l).sum = 0 := by
  induction l generalizing p with
  | nil => rfl
  | cons x l ih =>
    have hx : x = 0 := h x List.mem_cons_self
    subst hx
    have hrise : rise (some p) (0 : K) = 0 := by
      rcases hp.eq_or_lt with e | hlt
      · rw [← e, rise_of_le le_rfl, sub_self]
      · exact rise_of_lt hlt
    rw [rises, List.sum_cons, hrise, zero_add]
    exact ih (fun y hy => h y (List.mem_cons_of_mem _ hy)) le_rfl

/-- Counting over gaps finds all that has been counted, and maybe more. -/
theorem lastMinusFirst_le_sum_rises (hl : ∀ x ∈ l, 0 ≤ x) (hp : 0 ≤ p)
    (h : (p :: carrying l).Pairwise (· ≤ ·)) :
    lastMinusFirst (p :: carrying l) ≤ (rises (some p) l).sum := by
  induction l generalizing p with
  | nil => simp [rises, carrying, lastMinusFirst]
  | cons x l ih =>
    have hrest : ∀ y ∈ l, 0 ≤ y := fun y hy => hl y (List.mem_cons_of_mem _ hy)
    rw [rises, List.sum_cons]
    by_cases hx : x = 0
    · subst hx
      rw [carrying_cons_zero] at h ⊢
      have hzero : ((0 : K) :: carrying l).Pairwise (· ≤ ·) :=
        List.pairwise_cons.mpr
          ⟨fun y hy => hrest y (List.mem_of_mem_filter hy), h.of_cons⟩
      refine le_trans ?_ ((ih hrest le_rfl hzero).trans (le_add_of_nonneg_left (rise_nonneg _ _)))
      exact lastMinusFirst_le hp _
    · rw [carrying_cons_of_ne hx] at h ⊢
      have hpx : p ≤ x := List.rel_of_pairwise_cons h List.mem_cons_self
      rw [lastMinusFirst_cons_cons, rise_of_le hpx]
      exact add_le_add_right (ih hrest (hl x List.mem_cons_self) h.of_cons) _

/-- Behind a missing reading everything is counted once more, so that less comes out only of nothing. -/
theorem sum_rises_zero_eq_iff {t : K} (hl : ∀ x ∈ l, 0 ≤ x) (h : (carrying l).Pairwise (· ≤ ·))
    (hnil : carrying l = [] → t = 0) (hlt : carrying l ≠ [] → t < lastMinusFirst (0 :: carrying l)) :
    (rises (some 0) l).sum = t ↔ ∀ x ∈ l, x = 0 := by
  rw [← carrying_eq_nil_iff]
  constructor
  · intro e
    by_contra hne
    have hzero : ((0 : K) :: carrying l).Pairwise (· ≤ ·) :=
      List.pairwise_cons.mpr ⟨fun y hy => hl y (List.mem_of_mem_filter hy), h⟩
    have hle := lastMinusFirst_le_sum_rises hl le_rfl hzero
    rw [e] at hle
    exact not_lt.mpr hle (hlt hne)
  · intro hc
    rw [hnil hc, rises_zeros (carrying_eq_nil_iff.1 hc) le_rfl]

omit [IsOrderedAddMonoid K] in
/-- The first reading that is there is positive. -/
theorem carrying_pos (hl : ∀ x ∈ l, 0 ≤ x) {c : K} (hc : c ∈ carrying l) : 0 < c := by
  obtain ⟨hcl, hne⟩ := List.mem_filter.mp hc
  exact lt_of_le_of_ne (hl c hcl) (Ne.symm (by simpa using hne))

omit [AddCommGroup K] [LinearOrder K] [IsOrderedAddMonoid K] in
/-- No other reading follows the missing ones behind a missing one. -/
theorem pairwise_cons_missing [Zero K] :
    ((0 : K) :: l).Pairwise (fun x y => x = 0 → y = 0) ↔ ∀ x ∈ l, x = 0 := by
  rw [List.pairwise_cons]
  refine ⟨fun h x hx => h.1 x hx rfl, fun h => ⟨fun x hx _ => h x hx, ?_⟩⟩
  exact List.pairwise_of_forall_mem_list fun _ _ y hy _ => h y hy

/-- After a reading: the increases are right exactly when no other reading follows a missing one. -/
theorem sum_rises_some_gaps_iff (hl : ∀ x ∈ l, 0 ≤ x) (hp : 0 < p)
    (h : (p :: carrying l).Pairwise (· ≤ ·)) :
    (rises (some p) l).sum = lastMinusFirst (p :: carrying l) ↔
      l.Pairwise fun x y => x = 0 → y = 0 := by
  induction l generalizing p with
  | nil => simp [rises, carrying, lastMinusFirst]
  | cons x l ih =>
    have hrest : ∀ y ∈ l, 0 ≤ y := fun y hy => hl y (List.mem_cons_of_mem _ hy)
    rw [rises, List.sum_cons]
    by_cases hx : x = 0
    · subst hx
      rw [carrying_cons_zero] at h ⊢
      rw [rise_of_lt hp, zero_add, pairwise_cons_missing]
      refine sum_rises_zero_eq_iff hrest h.of_cons (fun hc => by rw [hc]; simp [lastMinusFirst]) ?_
      intro hc
      obtain ⟨c, cs, hc⟩ := List.exists_cons_of_ne_nil hc
      rw [hc, lastMinusFirst_cons_cons, lastMinusFirst_cons_cons]
      gcongr
    · rw [carrying_cons_of_ne hx] at h ⊢
      have hpx : p ≤ x := List.rel_of_pairwise_cons h List.mem_cons_self
      rw [lastMinusFirst_cons_cons, rise_of_le hpx, add_right_inj,
        ih hrest (hp.trans_le hpx) h.of_cons, List.pairwise_cons]
      exact ⟨fun hl => ⟨fun y _ e => absurd e hx, hl⟩, fun hall => hall.2⟩

/-- **Counting over gaps**: the increases add up to the last reading minus the first exactly when
    the missing ones come after all the others. -/
theorem sum_rises_gaps_iff (hl : ∀ x ∈ l, 0 ≤ x) (h : (carrying l).Pairwise (· ≤ ·)) :
    (rises none l).sum = lastMinusFirst (carrying l) ↔ l.Pairwise fun x y => x = 0 → y = 0 := by
  cases l with
  | nil => simp [rises, carrying, lastMinusFirst]
  | cons x l =>
    have hrest : ∀ y ∈ l, 0 ≤ y := fun y hy => hl y (List.mem_cons_of_mem _ hy)
    have hfirst : (rises none (x :: l)).sum = (rises (some x) l).sum := zero_add _
    rw [hfirst]
    by_cases hx : x = 0
    · subst hx
      rw [carrying_cons_zero] at h ⊢
      rw [pairwise_cons_missing]
      refine sum_rises_zero_eq_iff hrest h (fun hc => by rw [hc]; simp [lastMinusFirst]) ?_
      intro hc
      obtain ⟨c, cs, hc⟩ := List.exists_cons_of_ne_nil hc
      have hpos : 0 < c := carrying_pos hrest (hc ▸ List.mem_cons_self)
      rw [hc, lastMinusFirst_cons_cons, sub_zero]
      exact lt_add_of_pos_left _ hpos
    · have hpos : 0 < x := lt_of_le_of_ne (hl x List.mem_cons_self) (Ne.symm hx)
      rw [carrying_cons_of_ne hx] at h ⊢
      rw [sum_rises_some_gaps_iff hrest hpos h, List.pairwise_cons]
      exact ⟨fun hl => ⟨fun y _ e => absurd e hx, hl⟩, fun hall => hall.2⟩

end Gaps

end Basis
