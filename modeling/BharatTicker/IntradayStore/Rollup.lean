/-
  File:      BharatTicker/IntradayStore/Rollup.lean
  Subject:   THE LIVE PATH AND THE DURABLE PATH AGREE. Rolling the stored 1-second rows of a day up
             to `k` seconds gives the candles that `build` computes from the samples.

  * `intBars`, `candles_int` -- with integer cumulative volumes the candles of a ring are rounded
    bars over the integers;
  * `groupBar_eq` -- the grouping query is an aggregate of the rows in the order of time;
  * `rollup_intBars` -- buckets of buckets: `aggregate_comp` over nested floors;
  * `read_eq_build` -- the two paths.
-/
import BharatTicker.IntradayStore

namespace BharatTicker

open Basis

-- the concrete runs below compute with rationals
unseal Rat.add Rat.mul Rat.sub Rat.inv

/-! ## 1. Integer volumes -/

/-- The cumulative volumes are integers. -/
def IntegerVolumes (samples : List Sample) : Prop := ∀ x ∈ samples, ∃ n : ℤ, x.cum = n

/-- The one-sample bars with integer volumes. -/
def intTicks (samples : List Sample) : List (ℚ × RowBar) :=
  (tickBars none samples).map (Prod.map id (Bar.map id truncInt))

def intBars (seconds : ℚ) (samples : List Sample) : List (ℤ × RowBar) :=
  aggregate ((intTicks samples).map (Prod.map (fun t => ⌊t / seconds⌋) id))

@[simp] theorem truncInt_intCast (n : ℤ) : truncInt n = n := by
  simp [truncInt]

theorem volumeDelta_int {prev : Option Sample} {x : Sample}
    (hp : ∀ y ∈ prev, ∃ n : ℤ, y.cum = n) (hx : ∃ n : ℤ, x.cum = n) :
    ∃ n : ℤ, volumeDelta (prev.map (·.cum)) (prev.bind (·.source)) x = n := by
  cases prev with
  | none => exact ⟨0, by simp [volumeDelta]⟩
  | some y =>
    obtain ⟨m, hm⟩ := hp y rfl
    obtain ⟨n, hn⟩ := hx
    by_cases h : x.source = y.source ∧ y.cum ≤ x.cum
    · refine ⟨n - m, ?_⟩
      have e : volumeDelta ((some y).map (·.cum)) ((some y).bind (·.source)) x = x.cum - y.cum :=
        if_pos h
      rw [e, hm, hn]
      push_cast
      rfl
    · exact ⟨0, by simpa [volumeDelta] using fun h1 h2 => absurd ⟨h1, h2⟩ h⟩

theorem tickBars_int {prev : Option Sample} {samples : List Sample}
    (hp : ∀ y ∈ prev, ∃ n : ℤ, y.cum = n) (h : IntegerVolumes samples) :
    ∀ e ∈ tickBars prev samples, ∃ n : ℤ, e.2.volume = n := by
  induction samples generalizing prev with
  | nil => exact fun e he => absurd he List.not_mem_nil
  | cons x xs ih =>
    intro e he
    rcases List.mem_cons.mp he with rfl | he
    · exact volumeDelta_int hp (h x List.mem_cons_self)
    · refine ih ?_ (fun y hy => h y (List.mem_cons_of_mem x hy)) e he
      intro y hno
      cases hno
      exact h x List.mem_cons_self

/-- The bars of a ring are its integer bars. -/
theorem bars_int {samples : List Sample} (h : IntegerVolumes samples) (seconds : ℚ) :
    bars seconds samples =
      (intBars seconds samples).map (Prod.map id (Bar.map id fun n : ℤ => (n : ℚ))) := by
  have ht : tickBars none samples =
      (intTicks samples).map (Prod.map id (Bar.map id fun n : ℤ => (n : ℚ))) := by
    unfold intTicks
    rw [List.map_map]
    refine (List.map_congr_left (fun e he => ?_) |>.trans (List.map_id _)).symm
    have hnone : ∀ y ∈ (none : Option Sample), ∃ n : ℤ, y.cum = n := by simp
    obtain ⟨n, hn⟩ := tickBars_int hnone h e he
    refine Prod.ext rfl (Bar.ext rfl rfl rfl rfl ?_)
    show ((truncInt e.2.volume : ℤ) : ℚ) = e.2.volume
    rw [hn, truncInt_intCast]
  unfold bars intBars
  rw [ht, ← aggregate_map (Bar.map_mul monotone_id fun v w => by push_cast; rfl), List.map_map,
    List.map_map]
  rfl

/-! ## 2. The candles of a ring -/

/-- The candle of an integer bar. -/
def intCandle (k : ℕ) (e : ℤ × RowBar) : Candle where
  toBar := e.2.map (roundTo 2) id
  timestamp := e.1 * k

theorem candles_int {samples : List Sample} (ho : TimeOrdered samples)
    (hv : IntegerVolumes samples) {k : ℕ} (hk : 1 ≤ k) :
    candles samples k = (intBars k samples).map (intCandle k) := by
  have hk1 : (1 : ℚ) ≤ k := by exact_mod_cast hk
  have hk0 : (0 : ℚ) < k := lt_of_lt_of_le one_pos hk1
  rw [candles_eq hk0 ho, bars_int hv, List.map_map]
  refine List.map_congr_left fun e _ => ?_
  have hsub : decide ((k : ℚ) < 1) = false := decide_eq_false (not_lt.mpr hk1)
  have ht : isoInstant false ((e.1 : ℚ) * k) = e.1 * k := by
    have h := isoInstant_int (e.1 * k)
    push_cast at h
    exact h
  simp only [Function.comp_apply, candleOf, intCandle, Prod.map_fst, Prod.map_snd, id_eq, hsub, ht,
    Bar.map, truncInt_intCast]

theorem intBars_keys {k : ℚ} {samples : List Sample} {j : ℤ} :
    j ∈ (intBars k samples).map Prod.fst ↔ ∃ x ∈ samples, ⌊x.ts / k⌋ = j := by
  have h : (intTicks samples).map Prod.fst = samples.map (·.ts) := by
    rw [← tickBars_fst none, intTicks, List.map_map]
    rfl
  have e : ((intTicks samples).map (Prod.map (fun t => ⌊t / k⌋) id)).map Prod.fst =
      (samples.map (·.ts)).map fun t => ⌊t / k⌋ := by
    rw [← h, List.map_map, List.map_map]
    rfl
  unfold intBars
  rw [mem_keys_aggregate, e, List.map_map, List.mem_map]
  rfl

theorem intBars_sorted {k : ℚ} (hk : 0 < k) {samples : List Sample} (ho : TimeOrdered samples)
    (hv : IntegerVolumes samples) : ((intBars k samples).map Prod.fst).Pairwise (· < ·) := by
  have h := bars_sorted hk ho
  rwa [bars_int hv, List.map_map] at h

/-- **Buckets of buckets**: the buckets of width `k` are those of the 1-second bars. -/
theorem rollup_intBars (samples : List Sample) (k : ℕ) :
    aggregate ((intBars 1 samples).map (Prod.map (fun s : ℤ => ⌊(s : ℚ) / k⌋) id)) =
      intBars k samples := by
  unfold intBars
  rw [aggregate_comp, List.map_map]
  congr 1
  refine List.map_congr_left fun e _ => ?_
  have h : ⌊((⌊e.1⌋ : ℤ) : ℚ) / k⌋ = ⌊e.1 / (k : ℚ)⌋ := by
    rw [Int.floor_div_natCast, Int.floor_div_natCast, Int.floor_intCast]
  simp [Prod.map, h]

/-! ## 3. The grouping query -/

/-- The rows stand in the order of their times. -/
def RowsOrdered (rows : List (IntradayKey × RowBar)) : Prop :=
  rows.Pairwise fun r s => r.1.time < s.1.time

theorem max?_perm {l l' : List ℚ} (h : l.Perm l') : l.max? = l'.max? := by
  cases hl : l.max? with
  | none =>
    rw [List.max?_eq_none_iff] at hl
    subst hl
    rw [List.nil_perm.mp h]
    rfl
  | some a =>
    obtain ⟨ha, hmax⟩ := List.max?_eq_some_iff.mp hl
    exact (List.max?_eq_some_iff.mpr ⟨h.mem_iff.mp ha, fun b hb => hmax b (h.mem_iff.mpr hb)⟩).symm

theorem min?_perm {l l' : List ℚ} (h : l.Perm l') : l.min? = l'.min? := by
  cases hl : l.min? with
  | none =>
    rw [List.min?_eq_none_iff] at hl
    subst hl
    rw [List.nil_perm.mp h]
    rfl
  | some a =>
    obtain ⟨ha, hmin⟩ := List.min?_eq_some_iff.mp hl
    exact (List.min?_eq_some_iff.mpr ⟨h.mem_iff.mp ha, fun b hb => hmin b (h.mem_iff.mpr hb)⟩).symm

section Group

variable {g S : List (IntradayKey × RowBar)}

theorem RowsOrdered.eq_of_time_le (hS : RowsOrdered S) {r s : IntradayKey × RowBar} (hr : r ∈ S)
    (hs : s ∈ S) (h : r.1.time ≤ s.1.time) (h' : s.1.time ≤ r.1.time) : r = s := by
  have hnd : (S.map fun r => r.1.time).Nodup :=
    List.pairwise_map.mpr (hS.imp fun h => ne_of_lt h)
  exact List.inj_on_of_nodup_map hnd hr hs (le_antisymm h h')

theorem RowsOrdered.nodup (hS : RowsOrdered S) : S.Nodup := by
  refine List.Pairwise.imp ?_ hS
  intro r s h heq
  obtain rfl := heq
  exact lt_irrefl _ h

/-- Sorting a group by time, either way, gives the ordered rows. -/
theorem sorted_group (hg : g.Perm S) (hS : RowsOrdered S) :
    (g.insertionSort fun r s => r.1.time ≤ s.1.time) = S ∧
      (g.insertionSort fun r s => s.1.time ≤ r.1.time) = S.reverse := by
  have : Std.Total fun r s : IntradayKey × RowBar => r.1.time ≤ s.1.time :=
    ⟨fun _ _ => le_total _ _⟩
  have : IsTrans (IntradayKey × RowBar) fun r s => r.1.time ≤ s.1.time :=
    ⟨fun _ _ _ => le_trans⟩
  have : Std.Total fun r s : IntradayKey × RowBar => s.1.time ≤ r.1.time :=
    ⟨fun _ _ => le_total _ _⟩
  have : IsTrans (IntradayKey × RowBar) fun r s => s.1.time ≤ r.1.time :=
    ⟨fun _ _ _ h h' => le_trans h' h⟩
  have hasc := List.perm_insertionSort (fun r s : IntradayKey × RowBar => r.1.time ≤ s.1.time) g
  have hdesc := List.perm_insertionSort (fun r s : IntradayKey × RowBar => s.1.time ≤ r.1.time) g
  constructor
  · refine List.Perm.eq_of_pairwise ?_ (List.pairwise_insertionSort _ g)
      (hS.imp fun h => le_of_lt h) (hasc.trans hg)
    exact fun a b ha hb => hS.eq_of_time_le ((hasc.trans hg).mem_iff.mp ha) hb
  · refine List.Perm.eq_of_pairwise ?_ (List.pairwise_insertionSort _ g)
      (List.pairwise_reverse.mpr (hS.imp fun h => le_of_lt h))
      ((hdesc.trans hg).trans (List.reverse_perm S).symm)
    exact fun a b ha hb h h' =>
      hS.eq_of_time_le ((hdesc.trans hg).mem_iff.mp ha) (List.mem_reverse.mp hb) h' h

/-- **The aggregates of a group are the product of its bars in the order of time.** -/
theorem groupBar_eq (hg : g.Perm S) (hS : RowsOrdered S) {x : RowBar} {xs : List RowBar}
    (hx : S.map Prod.snd = x :: xs) : groupBar g = xs.foldl (· * ·) x := by
  obtain ⟨hasc, hdesc⟩ := sorted_group hg hS
  have hsummary : groupBar g = Bar.summary (S.map Prod.snd) := by
    unfold groupBar
    simp only [hasc, hdesc]
    refine Bar.ext ?_ ?_ ?_ ?_ ?_
    · show ((S.head?.map fun r => r.2.opening).getD 0) = (((S.map Prod.snd).head?).map _).getD 0
      rw [List.head?_map, Option.map_map]
      rfl
    · show ((g.map fun r => r.2.high).max?.getD 0) = (((S.map Prod.snd).map _).max?).getD 0
      rw [max?_perm (hg.map _), List.map_map]
      rfl
    · show ((g.map fun r => r.2.low).min?.getD 0) = (((S.map Prod.snd).map _).min?).getD 0
      rw [min?_perm (hg.map _), List.map_map]
      rfl
    · show ((S.reverse.head?.map fun r => r.2.close).getD 0) = (((S.map Prod.snd).getLast?).map _).getD 0
      rw [List.head?_reverse, List.getLast?_map, Option.map_map]
      rfl
    · show ((g.map fun r => r.2.volume).sum) = ((S.map Prod.snd).map _).sum
      rw [(hg.map _).sum_eq, List.map_map]
      rfl
  rw [hsummary, hx, Bar.summary_cons]

end Group

/-- The rows under the buckets they fall into. -/
def keyed (bucketS : ℚ) (rows : List (IntradayKey × RowBar)) : List (ℤ × RowBar) :=
  rows.map fun r => (⌊r.1.time / bucketS⌋, r.2)

theorem groupOf_keyed (bucketS : ℚ) (rows : List (IntradayKey × RowBar)) (j : ℤ) :
    groupOf (keyed bucketS rows) j =
      (rows.filter fun r => ⌊r.1.time / bucketS⌋ = j).map Prod.snd := by
  simp [groupOf, keyed, List.filter_map, List.map_map, Function.comp_def]

section Buckets

variable {sel S : List (IntradayKey × RowBar)} {bucketS : ℚ}

theorem keyed_sorted (hS : RowsOrdered S) (hb : 0 < bucketS) :
    ((keyed bucketS S).map Prod.fst).Pairwise (· ≤ ·) := by
  unfold keyed
  rw [List.map_map]
  refine List.pairwise_map.mpr (hS.imp fun {r s} h => ?_)
  exact Int.floor_le_floor (div_le_div_of_nonneg_right h.le hb.le)

theorem mem_keys_keyed (hsel : sel.Perm S) {j : ℤ} :
    j ∈ (aggregate (keyed bucketS S)).map Prod.fst ↔ ∃ r ∈ sel, ⌊r.1.time / bucketS⌋ = j := by
  rw [mem_keys_aggregate, keyed, List.map_map, List.mem_map]
  exact exists_congr fun r => and_congr_left fun _ => hsel.mem_iff.symm

/-- The distinct buckets, in order, are the keys of the aggregate. -/
theorem buckets_eq (hsel : sel.Perm S) (hS : RowsOrdered S) (hb : 0 < bucketS) :
    ((sel.map (bucketOf bucketS)).dedup).insertionSort (· ≤ ·) =
      (aggregate (keyed bucketS S)).map fun e => (e.1 : ℚ) * bucketS := by
  have hperm := List.perm_insertionSort (· ≤ ·) (sel.map (bucketOf bucketS)).dedup
  have hlt : ((aggregate (keyed bucketS S)).map fun e => (e.1 : ℚ) * bucketS).Pairwise (· < ·) := by
    refine List.pairwise_map.mpr
      ((List.pairwise_map.mp (aggregate_sorted (keyed_sorted hS hb))).imp ?_)
    intro a b h
    exact mul_lt_mul_of_pos_right (by exact_mod_cast h) hb
  refine List.Perm.eq_of_pairwise (fun a b _ _ => le_antisymm) (List.pairwise_insertionSort _ _)
    (hlt.imp fun h => le_of_lt h) ?_
  refine (List.perm_ext_iff_of_nodup (hperm.nodup_iff.mpr (List.nodup_dedup _))
    (hlt.imp fun h => ne_of_lt h)).mpr fun b => ?_
  rw [hperm.mem_iff, List.mem_dedup, List.mem_map, List.mem_map]
  constructor
  · intro hex
    obtain ⟨r, hr, rfl⟩ := hex
    obtain ⟨e, he, hek⟩ := List.mem_map.mp ((mem_keys_keyed hsel).mpr ⟨r, hr, rfl⟩)
    exact ⟨e, he, by rw [hek]; rfl⟩
  · intro hex
    obtain ⟨e, he, rfl⟩ := hex
    obtain ⟨r, hr, hrk⟩ := (mem_keys_keyed hsel).mp (List.mem_map_of_mem he)
    exact ⟨r, hr, by rw [← hrk]; rfl⟩

/-- **The grouping query is the aggregate of the ordered rows.** -/
theorem groups_eq (hsel : sel.Perm S) (hS : RowsOrdered S) (hb : 0 < bucketS) :
    ((((sel.map (bucketOf bucketS)).dedup).insertionSort (· ≤ ·)).map fun b =>
      (b, groupBar (sel.filter fun r => bucketOf bucketS r = b))) =
    (aggregate (keyed bucketS S)).map fun e => ((e.1 : ℚ) * bucketS, e.2) := by
  rw [buckets_eq hsel hS hb, List.map_map]
  refine List.map_congr_left fun e he => ?_
  obtain ⟨x, xs, hgroup, hprod⟩ := aggregate_group (keyed_sorted hS hb) (show (e.1, e.2) ∈ _ from he)
  rw [groupOf_keyed] at hgroup
  have hfilter : (fun r => decide (bucketOf bucketS r = (e.1 : ℚ) * bucketS)) =
      fun r => decide (⌊r.1.time / bucketS⌋ = e.1) := by
    funext r
    refine decide_eq_decide.mpr ?_
    unfold bucketOf
    rw [mul_left_inj' hb.ne']
    exact Int.cast_inj
  simp only [Function.comp_apply]
  rw [hfilter, groupBar_eq (hsel.filter _) (hS.filter _) hgroup, hprod]

end Buckets

/-! ## 4. One day -/

/-- All samples lie in the IST day. -/
def WithinDay (day : ℤ) (samples : List Sample) : Prop :=
  ∀ x ∈ samples, (dayWindow day).1 ≤ x.ts ∧ x.ts < (dayWindow day).2

/-- A day has at most 86401 buckets of a width of at least a second. -/
theorem intBars_length_le {samples : List Sample} (ho : TimeOrdered samples)
    (hv : IntegerVolumes samples) {day : ℤ} (hday : WithinDay day samples) {k : ℕ} (hk : 1 ≤ k) :
    (intBars k samples).length ≤ 86401 := by
  have hk1 : (1 : ℚ) ≤ k := by exact_mod_cast hk
  have hk0 : (0 : ℚ) < k := lt_of_lt_of_le one_pos hk1
  let first : ℤ := ⌊(dayWindow day).1 / k⌋
  have hnd : ((intBars k samples).map Prod.fst).Nodup :=
    (intBars_sorted hk0 ho hv).imp fun h => ne_of_lt h
  have hsub : ((intBars k samples).map Prod.fst).toFinset ⊆ Finset.Icc first (first + 86400) := by
    intro j hj
    obtain ⟨x, hx, rfl⟩ := intBars_keys.1 (List.mem_toFinset.mp hj)
    obtain ⟨h1, h2⟩ := hday x hx
    rw [Finset.mem_Icc]
    constructor
    · exact Int.floor_le_floor (div_le_div_of_nonneg_right h1 hk0.le)
    · have hend : (dayWindow day).2 = (dayWindow day).1 + 86400 := by
        simp only [dayWindow]
        ring
      have hle : x.ts / k ≤ (dayWindow day).1 / k + 86400 := by
        rw [div_le_iff₀ hk0, add_mul, div_mul_cancel₀ _ hk0.ne']
        nlinarith
      have hfl := Int.floor_le_floor hle
      rwa [show (86400 : ℚ) = ((86400 : ℤ) : ℚ) by norm_num, Int.floor_add_intCast] at hfl
  have hcard := Finset.card_le_card hsub
  rw [List.toFinset_card_of_nodup hnd, List.length_map, Int.card_Icc] at hcard
  omega

theorem lastSlice_of_length_le {α : Type*} {l : List α} {limit : ℤ} (h : l.length ≤ limit.toNat) :
    lastSlice limit l = l := by
  unfold lastSlice
  split
  · rw [← List.rtake_eq_reverse_take_reverse, List.rtake, Nat.sub_eq_zero_of_le h, List.drop_zero]
  · rename_i hl
    have h0 : l.length = 0 := by omega
    rw [List.eq_nil_of_length_eq_zero h0, List.drop_nil]

/-- The stored row of an integer bar. -/
def intRow (symbol exchange : String) (e : ℤ × RowBar) : IntradayKey × RowBar :=
  (⟨upper symbol, upper exchange, e.1⟩, e.2.map (roundTo 2) id)

theorem flushRows_candles {samples : List Sample} (ho : TimeOrdered samples)
    (hv : IntegerVolumes samples) (symbol exchange : String) :
    flushRows symbol exchange none (candles samples 1) =
      (intBars 1 samples).map (intRow symbol exchange) := by
  have h := candles_int ho hv (le_refl 1)
  rw [Nat.cast_one] at h
  rw [flushRows, h]
  simp only [Option.all_none, List.filter_true, List.map_map]
  refine List.map_congr_left fun e _ => ?_
  simp [rowOf, intCandle, intRow]

theorem intRows_ordered {samples : List Sample} (ho : TimeOrdered samples)
    (hv : IntegerVolumes samples) (symbol exchange : String) :
    RowsOrdered ((intBars 1 samples).map (intRow symbol exchange)) := by
  refine List.pairwise_map.mpr
    ((List.pairwise_map.mp (intBars_sorted one_pos ho hv)).imp fun {a b} h => ?_)
  exact (Int.cast_lt (R := ℚ)).mpr h

/-- The rows of a day, rolled up. -/
theorem keyed_intRows (samples : List Sample) (symbol exchange : String) (k : ℕ) :
    aggregate (keyed k ((intBars 1 samples).map (intRow symbol exchange))) =
      (intBars k samples).map (Prod.map id (Bar.map (roundTo 2) id)) := by
  rw [← rollup_intBars samples k,
    ← aggregate_map (Bar.map_mul (roundTo_mono 2) fun v w => rfl), List.map_map, keyed,
    List.map_map]
  rfl

section Day

variable {symbol exchange : String} {samples : List Sample} {t : IntradayTable} {day : ℤ}

/-- The window of the day selects the rows of the samples. -/
theorem selectWindow_perm (ho : TimeOrdered samples) (hv : IntegerVolumes samples)
    (hday : WithinDay day samples)
    (hstore : ∀ r, (r ∈ t.rows ∧ r.1.symbol = upper symbol ∧ r.1.exchange = upper exchange) ↔
      r ∈ (intBars 1 samples).map (intRow symbol exchange)) :
    (selectWindow t (upper symbol) (upper exchange) (dayWindow day).1 (dayWindow day).2).Perm
      ((intBars 1 samples).map (intRow symbol exchange)) := by
  have hrows : t.rows.Nodup := t.primaryKey.of_map
  have hS := intRows_ordered ho hv symbol exchange
  refine (List.perm_ext_iff_of_nodup (hrows.filter _) hS.nodup).mpr fun r => ?_
  rw [← hstore r, List.mem_filter]
  simp only [Bool.and_eq_true, decide_eq_true_eq]
  constructor
  · intro hex
    obtain ⟨hr, ⟨⟨h1, h2⟩, -⟩, -⟩ := hex
    exact ⟨hr, h1, h2⟩
  · intro hex
    obtain ⟨hr, h1, h2⟩ := hex
    obtain ⟨e, he, rfl⟩ := List.mem_map.mp ((hstore r).mp ⟨hr, h1, h2⟩)
    obtain ⟨x, hx, hxe⟩ := intBars_keys.1 (List.mem_map_of_mem (f := Prod.fst) he)
    rw [div_one] at hxe
    obtain ⟨hlo, hhi⟩ := hday x hx
    have hstart : (dayWindow day).1 = ((day * 86400 - 19800 : ℤ) : ℚ) := by
      simp [dayWindow]
    refine ⟨hr, ⟨⟨h1, h2⟩, ?_⟩, ?_⟩
    · show (dayWindow day).1 ≤ (e.1 : ℚ)
      rw [hstart] at hlo ⊢
      rw [← hxe]
      exact_mod_cast Int.le_floor.mpr hlo
    · show (e.1 : ℚ) < (dayWindow day).2
      rw [← hxe]
      exact lt_of_le_of_lt (Int.floor_le x.ts) hhi

/-- **The durable path and the live path agree.** For a non-empty ordered ring inside one IST day,
    with integer cumulative volumes: when the store holds for its key exactly the rows flushed from
    the 1-second candles, reading the day back at any whole width returns the candles that `build`
    computes at that width. (A smaller limit of `build` keeps the last of them.) -/
theorem read_eq_build (eng : LiveCandleEngine) (symbol exchange : String) (t : IntradayTable)
    (day : ℤ) (k : ℕ) (hk : 1 ≤ k) (hne : eng.samples (engineKey symbol exchange) ≠ [])
    (ho : TimeOrdered (eng.samples (engineKey symbol exchange)))
    (hv : IntegerVolumes (eng.samples (engineKey symbol exchange)))
    (hday : WithinDay day (eng.samples (engineKey symbol exchange)))
    (hstore : ∀ r, (r ∈ t.rows ∧ r.1.symbol = upper symbol ∧ r.1.exchange = upper exchange) ↔
      r ∈ flushRows symbol exchange none (eng.build symbol exchange 1 100000)) :
    readPastIntraday true t symbol exchange k day =
        some (true, eng.build symbol exchange k 100000) ∧
      ∀ limit, eng.build symbol exchange k limit =
        lastSlice limit (eng.build symbol exchange k 100000) := by
  unfold LiveCandleEngine.build at hstore ⊢
  generalize eng.samples (engineKey symbol exchange) = samples at *
  have hfull : ∀ j : ℕ, 1 ≤ j → lastSlice 100000 (candles samples j) = candles samples j := by
    intro j hj
    refine lastSlice_of_length_le ?_
    rw [candles_int ho hv hj, List.length_map]
    exact (intBars_length_le ho hv hday hj).trans (by norm_num)
  have hfull1 := hfull 1 (le_refl 1)
  rw [Nat.cast_one] at hfull1
  rw [hfull1, flushRows_candles ho hv] at hstore
  rw [hfull k hk]
  refine ⟨?_, fun limit => rfl⟩
  have hsel := selectWindow_perm ho hv hday hstore
  have hpos : (0 : ℚ) < k := by exact_mod_cast hk
  have hround : roundHalfEven (k : ℚ) = (k : ℤ) := by
    have h := roundHalfEven_intCast (K := ℚ) (k : ℤ)
    rwa [Int.cast_natCast] at h
  have hk1 : (1 : ℚ) ≤ k := by exact_mod_cast hk
  have hbucket : max 1 ((roundHalfEven (k : ℚ) : ℤ) : ℚ) = k := by
    rw [hround, Int.cast_natCast]
    exact max_eq_right hk1
  have hcount : countIntraday t (upper symbol) (upper exchange) (dayWindow day).1
      (dayWindow day).2 ≠ 0 := by
    obtain ⟨x, hx⟩ := List.exists_mem_of_ne_nil samples hne
    have hmem : ⌊x.ts / 1⌋ ∈ (intBars 1 samples).map Prod.fst := intBars_keys.2 ⟨x, hx, rfl⟩
    rw [countIntraday, hsel.length_eq, List.length_map, ← List.length_map (f := Prod.fst)]
    exact (List.length_pos_of_mem hmem).ne'
  unfold readPastIntraday
  simp only [Bool.not_true, Bool.false_eq_true, if_false, if_neg hcount, hbucket]
  unfold getIntradayCandles
  simp only [groups_eq hsel (intRows_ordered ho hv symbol exchange) hpos, keyed_intRows,
    candles_int ho hv hk, List.map_map]
  refine congrArg (fun l => some (true, l)) (List.map_congr_left fun e _ => ?_)
  simp [candleOfRow, intCandle, Bar.map]

/-- Four samples from 09:15 on, in two seconds of one bucket and one of the next. -/
def openingRing : LiveCandleEngine where
  samples := Function.update (fun _ => []) "NSE:RELIANCE"
    [⟨1728013500, 2450, 1000, some "groww"⟩, ⟨1728013500 + 1 / 2, 2451, 1010, some "groww"⟩,
      ⟨1728013503, 4899 / 2, 1015, some "groww"⟩, ⟨1728013511, 2452, 1040, some "groww"⟩]

def openingStore : IntradayTable :=
  IntradayTable.upsertAll {}
    (flushRows "reliance" "nse" none (openingRing.build "reliance" "nse" 1 100000))

theorem read_eq_build_opening :
    readPastIntraday true openingStore "reliance" "nse" (10 : ℕ) 20000 =
        some (true, openingRing.build "reliance" "nse" (10 : ℕ) 100000) ∧
      ∀ limit, openingRing.build "reliance" "nse" (10 : ℕ) limit =
        lastSlice limit (openingRing.build "reliance" "nse" (10 : ℕ) 100000) := by
  have hrows : openingStore.rows =
      flushRows "reliance" "nse" none (openingRing.build "reliance" "nse" 1 100000) := by
    decide
  have hkey : ∀ r ∈ openingStore.rows,
      r.1.symbol = upper "reliance" ∧ r.1.exchange = upper "nse" := by decide
  have hring : openingRing.samples (engineKey "reliance" "nse") =
      openingRing.samples "NSE:RELIANCE" := by decide
  refine read_eq_build openingRing "reliance" "nse" openingStore 20000 10 (by decide) ?_ ?_ ?_ ?_ ?_
  · decide
  · unfold TimeOrdered
    decide
  · rw [hring]
    intro x hx
    exact ⟨⌊x.cum⌋, by revert x; decide⟩
  · unfold WithinDay
    decide
  · intro r
    rw [← hrows]
    exact ⟨fun h => h.1, fun h => ⟨h, hkey r h⟩⟩

end Day

end BharatTicker
