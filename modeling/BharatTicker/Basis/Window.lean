/-
  File:      BharatTicker/Basis/Window.lean
  Subject:   WINDOWS OF AN ASCENDING LIST. Library: no program fact.

  A window is what is left of the list between a lower and an upper bound. A lower bound is a monotone
  predicate, an upper bound an antitone one.

  * `between`, `mem_between` -- the elements between two bounds;
  * `between_isPrefix` -- an upper bound cuts off an end;
  * `rtake_filter_rtake` -- the last `n` of what meets a lower bound, cut in between;
  * `take_mem_iff_rtake` -- when the first `n` of a window and the last `n` of another are the same
    elements.
-/
import Mathlib.Data.List.DropRight
import Mathlib.Data.List.Sort
import Mathlib.Order.Basic

namespace Basis

universe u

variable {α : Type u} {l : List α}

/-- The elements between two bounds. -/
def between (lo hi : α → Bool) (l : List α) : List α := l.filter fun x => lo x && hi x

theorem mem_between {lo hi : α → Bool} {x : α} : x ∈ between lo hi l ↔ x ∈ l ∧ lo x ∧ hi x := by
  unfold between
  rw [List.mem_filter, Bool.and_eq_true]

/-- Two prefixes of one length are one. -/
theorem isPrefix_eq {l₁ l₂ : List α} (h₁ : l₁ <+: l) (h₂ : l₂ <+: l)
    (h : l₁.length = l₂.length) : l₁ = l₂ :=
  (List.prefix_of_prefix_length_le h₁ h₂ h.le).eq_of_length h

theorem rtake_of_length_le {n : ℕ} (h : l.length ≤ n) : l.rtake n = l := by
  unfold List.rtake
  rw [Nat.sub_eq_zero_of_le h, List.drop_zero]

theorem rtake_append_of_le {l' : List α} {n : ℕ} (h : n ≤ l'.length) :
    (l ++ l').rtake n = l'.rtake n := by
  unfold List.rtake
  have hstart : l.length ≤ l.length + l'.length - n := by omega
  rw [List.length_append, List.drop_append, List.drop_of_length_le hstart, List.nil_append]
  congr 1
  omega

/-- **The last `n` of what meets a condition**, where all behind an element that meets it meet it too, are
    found among the last `k`, if `n` is at most `k`. -/
theorem rtake_filter_rtake {p : α → Bool} {n k : ℕ} (hp : l.Pairwise fun a b => p a = true → p b = true)
    (hnk : n ≤ k) : ((l.rtake k).filter p).rtake n = (l.filter p).rtake n := by
  have hsplit : l.filter p = (l.rdrop k).filter p ++ (l.rtake k).filter p := by
    rw [← List.filter_append, List.rdrop, List.rtake, List.take_append_drop]
  rw [hsplit]
  by_cases hnone : (l.rdrop k).filter p = []
  · rw [hnone, List.nil_append]
  · -- one before the last `k` meets it, hence so do these, and they are `k`
    obtain ⟨a, ha⟩ := List.exists_mem_of_ne_nil _ hnone
    obtain ⟨ha, hpa⟩ := List.mem_filter.mp ha
    have hcross : ∀ b ∈ l.rtake k, p a = true → p b = true := by
      have happend : l.rdrop k ++ l.rtake k = l := List.take_append_drop _ l
      rw [← happend] at hp
      exact fun b hb => (List.pairwise_append.mp hp).2.2 a ha b hb
    have hall : (l.rtake k).filter p = l.rtake k :=
      List.filter_eq_self.mpr fun b hb => hcross b hb hpa
    have hlen : (l.rtake k).length = k := by
      have hlong : (l.rdrop k).length ≠ 0 := List.length_pos_of_mem ha |>.ne'
      rw [List.rdrop, List.length_take] at hlong
      rw [List.rtake, List.length_drop]
      omega
    rw [hall, rtake_append_of_le (hnk.trans hlen.ge)]

section Ascending

variable [LinearOrder α] {lo lo' hi hi' : α → Bool} (hl : l.Pairwise (· < ·))

include hl

theorem between_ascending : (between lo hi l).Pairwise (· < ·) := hl.filter _

/-- What is below an upper bound comes first. -/
theorem filter_isPrefix (hhi : Antitone hi) : l.filter hi <+: l := by
  induction l with
  | nil => exact List.prefix_rfl
  | cons x l ih =>
    cases h : hi x with
    | true =>
      rw [List.filter_cons_of_pos h]
      exact List.cons_prefix_cons.mpr ⟨rfl, ih hl.of_cons⟩
    | false =>
      have hnil : (x :: l).filter hi = [] := by
        refine List.filter_eq_nil_iff.mpr fun y hy hhy => ?_
        have hle : x ≤ y := by
          rcases List.mem_cons.mp hy with rfl | hy
          · exact le_refl y
          · exact (List.rel_of_pairwise_cons hl hy).le
        have hhx : hi x = true := Bool.le_iff_imp.mp (hhi hle) hhy
        rw [h] at hhx
        cases hhx
      rw [hnil]
      exact List.nil_prefix

/-- A window is the beginning of what is above its lower bound. -/
theorem between_isPrefix (hhi : Antitone hi) : between lo hi l <+: l.filter lo := by
  have hsame : between lo hi l = (l.filter lo).filter hi := by
    unfold between
    rw [List.filter_filter]
    exact List.filter_congr fun x _ => Bool.and_comm _ _
  rw [hsame]
  exact filter_isPrefix (hl.filter _) hhi

omit hl in
/-- What is before an element of a window and above its lower bound is of the window. -/
theorem mem_between_of_lt (hhi : Antitone hi) {x y : α} (hx : x ∈ l) (hlo : lo x)
    (hy : y ∈ between lo hi l) (hlt : x < y) : x ∈ between lo hi l :=
  mem_between.2 ⟨hx, hlo, Bool.le_iff_imp.mp (hhi hlt.le) (mem_between.1 hy).2.2⟩

/-- Where not all are among the last `n`, there is one below these. -/
theorem exists_lt_of_rtake {n : ℕ} (h : n < l.length) :
    ∃ x ∈ l, ∀ y ∈ l.rtake n, x < y := by
  refine ⟨l[0], List.getElem_mem _, fun y hy => ?_⟩
  unfold List.rtake at hy
  obtain ⟨i, hi, rfl⟩ := List.getElem_of_mem hy
  rw [List.getElem_drop]
  exact List.pairwise_iff_getElem.mp hl _ _ _ _ (by omega)

/-- Where the first of a window is among the last `n` of one with a tighter lower bound, the other has
    at most `n` elements: one more would be of the window too, and before its first. -/
theorem length_le_of_mem_rtake (hhi : Antitone hi) (hsub : ∀ x, lo' x → lo x) {n : ℕ} {d : α}
    {D : List α} (hd : between lo hi l = d :: D) (hlast : d ∈ (between lo' hi' l).rtake n) :
    (between lo' hi' l).length ≤ n := by
  by_contra hlong
  obtain ⟨x, hx, hbelow⟩ := exists_lt_of_rtake (between_ascending hl) (not_le.mp hlong)
  obtain ⟨hxl, hxlo, -⟩ := mem_between.1 hx
  have hxd : x < d := hbelow d hlast
  have hdw : d ∈ between lo hi l := by
    rw [hd]
    exact List.mem_cons_self
  have hxw : x ∈ between lo hi l := mem_between_of_lt hhi hxl (hsub x hxlo) hdw hxd
  have hasc : (d :: D).Pairwise (· < ·) := hd ▸ between_ascending hl
  rw [hd] at hxw
  rcases List.mem_cons.mp hxw with rfl | hxD
  · exact lt_irrefl x hxd
  · exact lt_asymm hxd (List.rel_of_pairwise_cons hasc hxD)

/-- **The first `n` of a window and the last `n` of one with a tighter lower bound** are the same
    elements exactly when the tighter bound leaves none of the window out, the other has at most `n`
    elements, and both are equally many. -/
theorem take_mem_iff_rtake (hlo' : Monotone lo') (hhi : Antitone hi) (hhi' : Antitone hi')
    (hsub : ∀ x, lo' x → lo x) {n : ℕ} (hn : 0 < n) (hne : between lo hi l ≠ []) :
    (∀ x, x ∈ (between lo hi l).take n ↔ x ∈ (between lo' hi' l).rtake n) ↔
      (∀ x ∈ between lo hi l, lo' x) ∧ (between lo' hi' l).length ≤ n ∧
        (between lo' hi' l).length = min n (between lo hi l).length := by
  constructor
  · intro h
    obtain ⟨d, D, hd⟩ := List.exists_cons_of_ne_nil hne
    -- the first of the window is among both
    have hfirst : d ∈ (between lo hi l).take n := by
      obtain ⟨m, rfl⟩ := Nat.exists_eq_add_of_lt hn
      rw [hd, Nat.add_assoc, Nat.zero_add, List.take_succ_cons]
      exact List.mem_cons_self
    have hlast : d ∈ (between lo' hi' l).rtake n := (h d).mp hfirst
    have hlod : lo' d := (mem_between.1 (List.mem_of_mem_drop hlast)).2.1
    have hasc : (d :: D).Pairwise (· < ·) := hd ▸ between_ascending hl
    have hlen : (between lo' hi' l).length ≤ n := length_le_of_mem_rtake hl hhi hsub hd hlast
    rw [rtake_of_length_le hlen] at h
    have hsame : (between lo hi l).take n = between lo' hi' l :=
      ((between_ascending hl).sublist (List.take_sublist n _)).eq_of_mem_iff (between_ascending hl) h
    refine ⟨fun x hx => ?_, hlen, by rw [← hsame, List.length_take]⟩
    rw [hd] at hx
    rcases List.mem_cons.mp hx with rfl | hx
    · exact hlod
    · exact Bool.le_iff_imp.mp (hlo' (List.rel_of_pairwise_cons hasc hx).le) hlod
  · intro h
    obtain ⟨hbound, hlen, heq⟩ := h
    have hwindow : between lo hi l = between lo' hi l := by
      refine (between_ascending hl).eq_of_mem_iff (between_ascending hl) fun x => ?_
      rw [mem_between, mem_between]
      exact ⟨fun hx => ⟨hx.1, hbound x (mem_between.2 hx), hx.2.2⟩,
        fun hx => ⟨hx.1, hsub x hx.2.1, hx.2.2⟩⟩
    have hprefix : (between lo hi l).take n <+: l.filter lo' :=
      (List.take_prefix n _).trans (hwindow ▸ between_isPrefix hl hhi)
    rw [rtake_of_length_le hlen,
      isPrefix_eq hprefix (between_isPrefix hl hhi') (by rw [List.length_take, heq])]
    exact fun x => Iff.rfl

end Ascending

end Basis
