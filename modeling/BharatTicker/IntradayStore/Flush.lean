/-
  File:      BharatTicker/IntradayStore/Flush.lean
  Subject:   CONCURRENT FLUSHES OF ONE KEY (`flush_live_to_store`, called by the on-demand recorder
             and by the watchlist recorder), over the ring and the table.

  A flush builds its rows in one step and awaits the database; it then fails or commits its upsert,
  and after the commit it moves the high-water mark. Any number of flushes overlap.

  * `FlushSystem`, `FlushSystem.step` -- the machine; `evicted` records that the ring has dropped
    a sample;
  * `barAt`, `rowAt`, `DurableBelowMark` -- bars, rows, and what the mark promises;
  * `FlushSafe` -- when a flush may start without spoiling the promise;
  * `FlushInv` -- the invariant: a second whose row is not its bar lies at or after the mark and is
    covered by every flush that could move the mark past it; a flush with a half-formed last bar
    is not older than any other;
  * `flush_durable` -- what holds in every run whose flushes start safely;
  * `stale_flush_overwrites` -- the run in which one does not.
-/
import BharatTicker.Basis.Run
import BharatTicker.IntradayStore

namespace BharatTicker

open Basis

-- the concrete runs below compute with rationals
unseal Rat.add Rat.mul Rat.sub Rat.inv

/-! ## 1. The machine -/

/-- The local variables of a flush that awaits the database. -/
structure Flight where
  since : Option ℚ
  rows : List (IntradayKey × RowBar)
  last : ℚ
  committed : Bool := false
  deriving DecidableEq, Repr

structure FlushSystem where
  engine : LiveCandleEngine := {}
  table : IntradayTable := {}
  lastFlushTs : String → Option ℚ := fun _ => none
  flights : List Flight := []
  evicted : Bool := false

/-- What happens next. Flushes are named by their place among those in flight. -/
inductive FlushAction where
  | record (c : RecordCall)
  | start
  | fail (i : Nat)
  | commit (i : Nat)
  | finish (i : Nat)
  deriving DecidableEq, Repr

namespace FlushSystem

section Machine

variable (cfg : LiveSettings) (symbol exchange : String)

def ring (s : FlushSystem) : List Sample := s.engine.samples (engineKey symbol exchange)

def mark (s : FlushSystem) : Option ℚ := s.lastFlushTs (engineKey symbol exchange)

/-- `flush_live_to_store` up to its first `await`; `none`: it returns 0. -/
def startFlush (s : FlushSystem) : Option Flight :=
  let candles := s.engine.build symbol exchange 1 100000
  match candles.getLast? with
  | none => none
  | some c =>
    let since := s.mark symbol exchange
    let rows := flushRows symbol exchange since candles
    if rows = [] then none else some ⟨since, rows, c.timestamp, false⟩

/-- One step; `none`: the action is not possible. -/
def step (s : FlushSystem) : FlushAction → Option FlushSystem
  | .record c =>
    if c.key = engineKey symbol exchange then
      let engine := s.engine.record cfg c
      let kept := (s.ring symbol exchange).isPrefixOf (engine.samples (engineKey symbol exchange))
      some { s with engine, evicted := s.evicted || !kept }
    else none
  | .start =>
    match s.startFlush symbol exchange with
    | none => some s
    | some f => some { s with flights := s.flights ++ [f] }
  | .fail i =>
    match s.flights[i]? with
    | some f => if f.committed then none else some { s with flights := s.flights.eraseIdx i }
    | none => none
  | .commit i =>
    match s.flights[i]? with
    | some f =>
      if f.committed then none
      else some { s with
        table := s.table.upsertAll f.rows
        flights := s.flights.set i { f with committed := true } }
    | none => none
  | .finish i =>
    match s.flights[i]? with
    | some f =>
      if f.committed then some { s with
        lastFlushTs := Function.update s.lastFlushTs (engineKey symbol exchange) (some f.last)
        flights := s.flights.eraseIdx i }
      else none
    | none => none

variable {cfg symbol exchange}

/-- A step of a flush that is named by its place. -/
theorem exists_flight {s s' : FlushSystem} {i : Nat} {next : Flight → Option FlushSystem}
    (hs : (match s.flights[i]? with
      | some f => next f
      | none => none) = some s') : ∃ f, s.flights[i]? = some f ∧ next f = some s' := by
  cases hf : s.flights[i]? with
  | none =>
    rw [hf] at hs
    cases hs
  | some f =>
    rw [hf] at hs
    exact ⟨f, rfl, hs⟩

/-- **What a step does.** -/
theorem step_cases {s s' : FlushSystem} {a : FlushAction}
    (hs : s.step cfg symbol exchange a = some s') :
    (∃ c, a = .record c ∧ c.key = engineKey symbol exchange ∧
      s' = { s with
        engine := s.engine.record cfg c
        evicted := s.evicted || !(s.ring symbol exchange).isPrefixOf
          ((s.engine.record cfg c).samples (engineKey symbol exchange)) }) ∨
    (a = .start ∧
      s' = { s with flights := s.flights ++ (s.startFlush symbol exchange).toList }) ∨
    (∃ i f, a = .fail i ∧ s.flights[i]? = some f ∧ f.committed = false ∧
      s' = { s with flights := s.flights.eraseIdx i }) ∨
    (∃ i f, a = .commit i ∧ s.flights[i]? = some f ∧ f.committed = false ∧
      s' = { s with
        table := s.table.upsertAll f.rows
        flights := s.flights.set i { f with committed := true } }) ∨
    (∃ i f, a = .finish i ∧ s.flights[i]? = some f ∧ f.committed = true ∧
      s' = { s with
        lastFlushTs := Function.update s.lastFlushTs (engineKey symbol exchange) (some f.last)
        flights := s.flights.eraseIdx i }) := by
  cases a with
  | record c =>
    obtain ⟨hkey, hs⟩ := Option.ite_none_right_eq_some.mp hs
    cases hs
    exact .inl ⟨c, rfl, hkey, rfl⟩
  | start =>
    refine .inr (.inl ⟨rfl, ?_⟩)
    unfold step at hs
    cases hstart : s.startFlush symbol exchange with
    | none =>
      rw [hstart] at hs
      cases hs
      rw [Option.toList_none, List.append_nil]
    | some f =>
      rw [hstart] at hs
      cases hs
      rfl
  | fail i =>
    obtain ⟨f, hf, hs⟩ := exists_flight hs
    obtain ⟨hc, hs⟩ := Option.ite_none_left_eq_some.mp hs
    cases hs
    exact .inr (.inr (.inl ⟨i, f, rfl, hf, Bool.eq_false_of_not_eq_true hc, rfl⟩))
  | commit i =>
    obtain ⟨f, hf, hs⟩ := exists_flight hs
    obtain ⟨hc, hs⟩ := Option.ite_none_left_eq_some.mp hs
    cases hs
    exact .inr (.inr (.inr (.inl ⟨i, f, rfl, hf, Bool.eq_false_of_not_eq_true hc, rfl⟩)))
  | finish i =>
    obtain ⟨f, hf, hs⟩ := exists_flight hs
    obtain ⟨hc, hs⟩ := Option.ite_none_right_eq_some.mp hs
    cases hs
    exact .inr (.inr (.inr (.inr ⟨i, f, rfl, hf, hc, rfl⟩)))

end Machine

end FlushSystem

/-! ## 2. Bars, rows and the promise of the mark -/

/-- The bar that `build(seconds=1)` has for the second at `t`. -/
def barAt (ring : List Sample) (t : ℚ) : Option RowBar :=
  ((candles ring 1).find? fun c => c.timestamp = t).map (·.toBar)

/-- The key of the row for the second at `t`. -/
def rowKey (symbol exchange : String) (t : ℚ) : IntradayKey := ⟨upper symbol, upper exchange, t⟩

def rowAt (symbol exchange : String) (table : IntradayTable) (t : ℚ) : Option RowBar :=
  table.row? (rowKey symbol exchange t)

/-- For every second before the mark there is a stored row exactly when there is a bar, and it is
    that bar. -/
def DurableBelowMark (symbol exchange : String) (s : FlushSystem) : Prop :=
  ∀ m, s.mark symbol exchange = some m → ∀ second : ℤ, (second : ℚ) < m →
    rowAt symbol exchange s.table second = barAt (s.ring symbol exchange) second

/-- The last row of the flush is the bar of its second as it is now. -/
def Flight.upToDate (symbol exchange : String) (f : Flight) (ring : List Sample) : Prop :=
  entryAt f.rows (rowKey symbol exchange f.last) = barAt ring f.last

/-- No sample lies in a later second than the last of the flush. -/
def Flight.newest (f : Flight) (ring : List Sample) : Prop := ∀ x ∈ ring, (⌊x.ts⌋ : ℚ) ≤ f.last

/-- A flush starts safely: whatever is not yet committed either ends in the newest second or holds
    the bar of its last second as it is now; and what is to be flushed fits the limit of the
    build. -/
def FlushSafe (symbol exchange : String) (s : FlushSystem) (a : FlushAction) : Prop :=
  a = .start →
    (∀ f ∈ s.flights, f.committed = false →
      f.upToDate symbol exchange (s.ring symbol exchange) ∨ f.newest (s.ring symbol exchange)) ∧
    (flushRows symbol exchange (s.mark symbol exchange)
      (candles (s.ring symbol exchange) 1)).length ≤ 100000

instance (symbol exchange : String) (s : FlushSystem) (a : FlushAction) :
    Decidable (FlushSafe symbol exchange s a) :=
  have (f : Flight) (ring : List Sample) : Decidable (f.upToDate symbol exchange ring) :=
    inferInstanceAs (Decidable (_ = _))
  have (f : Flight) (ring : List Sample) : Decidable (f.newest ring) :=
    inferInstanceAs (Decidable (∀ x ∈ ring, _))
  inferInstanceAs (Decidable (a = .start → _ ∧ _))

/-! ## 3. The bars of a growing ring -/

section Bars

variable {ring : List Sample} {t : ℚ}

theorem candles_one (ho : TimeOrdered ring) :
    candles ring 1 = (bars 1 ring).map (candleOf 1) := candles_eq one_pos ho

@[simp] theorem candleOf_one_timestamp (e : ℤ × Cell) : (candleOf 1 e).timestamp = e.1 := by
  have h : decide ((1 : ℚ) < 1) = false := decide_eq_false (lt_irrefl 1)
  show isoInstant (decide ((1 : ℚ) < 1)) ((e.1 : ℚ) * 1) = e.1
  rw [h, mul_one, isoInstant_int]

theorem candles_one_ordered (ho : TimeOrdered ring) :
    (candles ring 1).Pairwise fun c d => c.timestamp < d.timestamp := by
  rw [candles_one ho]
  refine List.pairwise_map.mpr ((List.pairwise_map.mp (bars_sorted one_pos ho)).imp fun {a b} h => ?_)
  simpa using h

/-- The candles stand at the seconds of the samples. -/
theorem mem_candles_one (ho : TimeOrdered ring) :
    (∃ c ∈ candles ring 1, c.timestamp = t) ↔ ∃ x ∈ ring, (⌊x.ts⌋ : ℚ) = t := by
  rw [candles_one ho]
  constructor
  · intro hex
    obtain ⟨c, hc, rfl⟩ := hex
    obtain ⟨e, he, rfl⟩ := List.mem_map.mp hc
    obtain ⟨x, hx, hxe⟩ := bars_keys.1 (List.mem_map_of_mem (f := Prod.fst) he)
    rw [div_one] at hxe
    exact ⟨x, hx, by rw [candleOf_one_timestamp, hxe]⟩
  · intro hex
    obtain ⟨x, hx, rfl⟩ := hex
    have hk : ⌊x.ts⌋ ∈ (bars 1 ring).map Prod.fst := bars_keys.2 ⟨x, hx, by rw [div_one]⟩
    obtain ⟨e, he, hek⟩ := List.mem_map.mp hk
    exact ⟨candleOf 1 e, List.mem_map_of_mem he, by rw [candleOf_one_timestamp, hek]⟩

theorem barAt_ne_none (ho : TimeOrdered ring) :
    barAt ring t ≠ none ↔ ∃ x ∈ ring, (⌊x.ts⌋ : ℚ) = t := by
  rw [← mem_candles_one ho]
  unfold barAt
  rw [Ne, Option.map_eq_none_iff, List.find?_eq_none]
  push Not
  simp

theorem barAt_int (ho : TimeOrdered ring) (j : ℤ) :
    barAt ring j = (entryAt (bars 1 ring) j).map (Bar.map (roundTo 2) truncInt) := by
  have hp : ((fun c : Candle => decide (c.timestamp = (j : ℚ))) ∘ candleOf 1) =
      fun e => decide (e.1 = j) := by
    funext e
    simp
  unfold barAt entryAt
  rw [candles_one ho, List.find?_map, hp, Option.map_map, Option.map_map]
  rfl

/-- **A new sample changes the bar of its own second only.** -/
theorem barAt_append {x : Sample} (ho : TimeOrdered (ring ++ [x])) (ht : t ≠ ⌊x.ts⌋) :
    barAt (ring ++ [x]) t = barAt ring t := by
  have ho' : TimeOrdered ring := (List.pairwise_append.mp ho).1
  by_cases hj : ∃ j : ℤ, (j : ℚ) = t
  · obtain ⟨j, rfl⟩ := hj
    have hne : j ≠ ⌊x.ts / 1⌋ := by
      rw [div_one]
      exact_mod_cast ht
    rw [barAt_int ho, barAt_int ho', bars_concat, entryAt_push_of_ne hne]
  · have hnone : ∀ r : List Sample, TimeOrdered r → barAt r t = none := by
      intro r hr
      by_contra h
      obtain ⟨y, -, hy⟩ := (barAt_ne_none hr).mp h
      exact hj ⟨_, hy⟩
    rw [hnone _ ho, hnone _ ho']

end Bars

/-! ## 4. The rows of a flush -/

section Rows

variable {symbol exchange : String} {since : Option ℚ} {cs : List Candle}

/-- `t` does not lie before `since`. -/
def notBefore (since : Option ℚ) (t : ℚ) : Bool := since.all fun m => !decide (t < m)

theorem notBefore_iff {t : ℚ} : notBefore since t = true ↔ ∀ m, since = some m → m ≤ t := by
  cases since <;> simp [notBefore]

/-- What a flush writes under a key. -/
theorem entryAt_flushRows (t : ℚ) :
    entryAt (flushRows symbol exchange since cs) (rowKey symbol exchange t) =
      if notBefore since t then (cs.find? fun c => c.timestamp = t).map (·.toBar) else none := by
  have hkey : ∀ c : Candle, ((rowOf symbol exchange c).1 = rowKey symbol exchange t) ↔
      c.timestamp = t := by
    intro c
    simp [rowOf, rowKey]
  unfold flushRows entryAt
  rw [List.find?_map, List.find?_filter, Option.map_map]
  by_cases h : notBefore since t = true
  · have hsnd : (Prod.snd ∘ rowOf symbol exchange) = fun c : Candle => c.toBar := rfl
    rw [if_pos h, hsnd]
    refine congrArg (Option.map _) (congrArg (fun q => cs.find? q) (funext fun c => ?_))
    by_cases hc : c.timestamp = t
    · have h' : (since.all fun s => !decide (t < s)) = true := h
      simp [hkey, hc, h']
    · simp [hkey, hc]
  · rw [if_neg h, Option.map_eq_none_iff, List.find?_eq_none]
    intro c hc hp
    simp only [Function.comp_apply, decide_eq_true_eq, hkey] at hp
    exact h (hp.2 ▸ hp.1)

theorem flushRows_nodup (hs : cs.Pairwise fun c d => c.timestamp < d.timestamp) :
    ((flushRows symbol exchange since cs).map Prod.fst).Nodup := by
  unfold flushRows
  rw [List.map_map]
  refine List.pairwise_map.mpr ((hs.filter _).imp fun {c d} h e => ?_)
  exact h.ne (congrArg IntradayKey.time e)

theorem lastSlice_limit (cs : List Candle) :
    lastSlice 100000 cs = cs.drop (cs.length - 100000) := by
  have hnat : Int.toNat 100000 = 100000 := Int.toNat_natCast 100000
  unfold lastSlice
  rw [if_pos (by norm_num), ← List.rtake_eq_reverse_take_reverse, hnat]
  rfl

/-- What is to be flushed and fits the limit is not cut by it. -/
theorem flushRows_lastSlice (hs : cs.Pairwise fun c d => c.timestamp < d.timestamp)
    (hlen : (flushRows symbol exchange since cs).length ≤ 100000) :
    flushRows symbol exchange since (lastSlice 100000 cs) = flushRows symbol exchange since cs := by
  let p : Candle → Bool := fun c => since.all fun s => !decide (c.timestamp < s)
  have hcut : (cs.take (cs.length - 100000)).filter p = [] := by
    rw [List.filter_eq_nil_iff]
    intro c hc hp
    obtain ⟨hlt, hdrop⟩ : cs.length - 100000 ≠ 0 ∧ ∀ d ∈ cs.drop (cs.length - 100000), p d := by
      refine ⟨fun h => ?_, fun d hd => ?_⟩
      · rw [h, List.take_zero] at hc
        exact List.not_mem_nil hc
      have hcd : c.timestamp < d.timestamp := hs.rel_of_mem_take_of_mem_drop hc hd
      exact notBefore_iff.2 fun m hm => (notBefore_iff.1 hp m hm).trans hcd.le
    have hall : (cs.drop (cs.length - 100000)).filter p = cs.drop (cs.length - 100000) :=
      List.filter_eq_self.mpr hdrop
    have hone : 1 ≤ ((cs.take (cs.length - 100000)).filter p).length :=
      List.length_pos_of_mem (List.mem_filter.mpr ⟨hc, hp⟩)
    have hsum : (cs.filter p).length ≤ 100000 := by
      rw [← List.length_map (f := rowOf symbol exchange)]
      exact hlen
    rw [← List.take_append_drop (cs.length - 100000) cs, List.filter_append, List.length_append,
      hall, List.length_drop] at hsum
    omega
  rw [lastSlice_limit]
  unfold flushRows
  rw [show cs.filter p = (cs.take (cs.length - 100000) ++ cs.drop (cs.length - 100000)).filter p by
    rw [List.take_append_drop], List.filter_append, hcut, List.nil_append]

end Rows

/-! ## 5. The invariant -/

/-- The ring has a sample in the second at `t` or later. -/
def Seen (ring : List Sample) (t : ℚ) : Prop := ∃ x ∈ ring, t ≤ ⌊x.ts⌋

/-- What holds at time `now` as long as nothing has been evicted. A second is dirty when its row is
    not its bar; a flush is stale when its last row is not the bar of its second any more. -/
structure FlushInv (symbol exchange : String) (ring : List Sample) (mark : Option ℚ)
    (table : IntradayTable) (flights : List Flight) (now : ℚ) : Prop where
  ordered : TimeOrdered ring
  clock : ∀ x ∈ ring, x.ts ≤ now
  markSeen : ∀ m, mark = some m → Seen ring m
  lastSeen : ∀ f ∈ flights, Seen ring f.last
  rowsNodup : ∀ f ∈ flights, (f.rows.map Prod.fst).Nodup
  rowsFinal : ∀ f ∈ flights, ∀ t < f.last, entryAt f.rows (rowKey symbol exchange t) =
    if notBefore f.since t then barAt ring t else none
  rowsWithin : ∀ f ∈ flights, ∀ t, entryAt f.rows (rowKey symbol exchange t) ≠ none →
    t ≤ f.last ∧ barAt ring t ≠ none
  stored : ∀ t, rowAt symbol exchange table t ≠ none → barAt ring t ≠ none
  dirty : ∀ t, rowAt symbol exchange table t ≠ barAt ring t →
    (∀ m, mark = some m → m ≤ t) ∧
      ∀ f ∈ flights, t < f.last → f.committed = false ∧ notBefore f.since t = true
  stale : ∀ f ∈ flights, f.committed = false → ¬ f.upToDate symbol exchange ring →
    (∀ m, mark = some m → m ≤ f.last) ∧ ∀ g ∈ flights, g.last ≤ f.last

section Steps

variable {symbol exchange : String} {ring : List Sample} {mark : Option ℚ} {table : IntradayTable}
  {flights : List Flight} {now : ℚ}

/-- What holds of each flush under way by itself. -/
structure Flight.Fits (symbol exchange : String) (ring : List Sample) (f : Flight) : Prop where
  seen : Seen ring f.last
  nodup : (f.rows.map Prod.fst).Nodup
  final : ∀ t < f.last, entryAt f.rows (rowKey symbol exchange t) =
    if notBefore f.since t then barAt ring t else none
  within : ∀ t, entryAt f.rows (rowKey symbol exchange t) ≠ none → t ≤ f.last ∧ barAt ring t ≠ none

theorem FlushInv.fits (h : FlushInv symbol exchange ring mark table flights now) {f : Flight}
    (hf : f ∈ flights) : f.Fits symbol exchange ring :=
  ⟨h.lastSeen f hf, h.rowsNodup f hf, h.rowsFinal f hf, h.rowsWithin f hf⟩

theorem flushInv_of_fits (ordered : TimeOrdered ring) (clock : ∀ x ∈ ring, x.ts ≤ now)
    (markSeen : ∀ m, mark = some m → Seen ring m)
    (fits : ∀ f ∈ flights, f.Fits symbol exchange ring)
    (stored : ∀ t, rowAt symbol exchange table t ≠ none → barAt ring t ≠ none)
    (dirty : ∀ t, rowAt symbol exchange table t ≠ barAt ring t →
      (∀ m, mark = some m → m ≤ t) ∧
        ∀ f ∈ flights, t < f.last → f.committed = false ∧ notBefore f.since t = true)
    (stale : ∀ f ∈ flights, f.committed = false → ¬ f.upToDate symbol exchange ring →
      (∀ m, mark = some m → m ≤ f.last) ∧ ∀ g ∈ flights, g.last ≤ f.last) :
    FlushInv symbol exchange ring mark table flights now :=
  ⟨ordered, clock, markSeen, fun f hf => (fits f hf).seen, fun f hf => (fits f hf).nodup,
    fun f hf => (fits f hf).final, fun f hf => (fits f hf).within, stored, dirty, stale⟩

theorem flushInv_init (symbol exchange : String) (now : ℚ) :
    FlushInv symbol exchange [] none {} [] now where
  ordered := List.Pairwise.nil
  clock _ hx := absurd hx List.not_mem_nil
  markSeen _ h := by cases h
  lastSeen _ hf := absurd hf List.not_mem_nil
  rowsNodup _ hf := absurd hf List.not_mem_nil
  rowsFinal _ hf := absurd hf List.not_mem_nil
  rowsWithin _ hf := absurd hf List.not_mem_nil
  stored _ h := absurd rfl h
  dirty _ h := absurd rfl h
  stale _ hf := absurd hf List.not_mem_nil

theorem FlushInv.later {now' : ℚ} (h : FlushInv symbol exchange ring mark table flights now)
    (hle : now ≤ now') : FlushInv symbol exchange ring mark table flights now' :=
  { h with clock := fun x hx => (h.clock x hx).trans hle }

theorem Seen.append {t : ℚ} (h : Seen ring t) (x : Sample) : Seen (ring ++ [x]) t := by
  obtain ⟨y, hy, hty⟩ := h
  exact ⟨y, List.mem_append_left _ hy, hty⟩

/-- **Recording.** A new sample in order makes the newest second dirty at most. -/
theorem flushInv_append {x : Sample} (h : FlushInv symbol exchange ring mark table flights now)
    (hx : now ≤ x.ts) : FlushInv symbol exchange (ring ++ [x]) mark table flights x.ts := by
  have ho : TimeOrdered (ring ++ [x]) := by
    refine List.pairwise_append.mpr ⟨h.ordered, List.pairwise_singleton _ _, fun y hy z hz => ?_⟩
    rw [List.mem_singleton.mp hz]
    exact (h.clock y hy).trans hx
  have hle : ∀ {t}, Seen ring t → t ≤ ⌊x.ts⌋ := by
    intro t hex
    obtain ⟨y, hy, hty⟩ := hex
    have hf : (⌊y.ts⌋ : ℚ) ≤ ⌊x.ts⌋ := by exact_mod_cast Int.floor_le_floor ((h.clock y hy).trans hx)
    exact hty.trans hf
  have hbar : ∀ {t : ℚ}, t ≠ ⌊x.ts⌋ → barAt (ring ++ [x]) t = barAt ring t := fun ht =>
    barAt_append ho ht
  have hsome : ∀ {t}, barAt ring t ≠ none → barAt (ring ++ [x]) t ≠ none := by
    intro t ht
    obtain ⟨y, hy, hty⟩ := (barAt_ne_none h.ordered).mp ht
    exact (barAt_ne_none ho).mpr ⟨y, List.mem_append_left _ hy, hty⟩
  apply flushInv_of_fits
  case ordered => exact ho
  case clock =>
    intro y hy
    rcases List.mem_append.mp hy with hy | hy
    · exact (h.clock y hy).trans hx
    · rw [List.mem_singleton.mp hy]
  case markSeen => exact fun m hm => (h.markSeen m hm).append x
  case fits =>
    intro f hf
    have hfits := h.fits hf
    refine ⟨hfits.seen.append x, hfits.nodup, fun t ht => ?_, fun t ht => ?_⟩
    · rw [hbar (lt_of_lt_of_le ht (hle hfits.seen)).ne]
      exact hfits.final t ht
    · obtain ⟨h1, h2⟩ := hfits.within t ht
      exact ⟨h1, hsome h2⟩
  case stored => exact fun t ht => hsome (h.stored t ht)
  case dirty =>
    intro t ht
    by_cases e : t = ⌊x.ts⌋
    · -- the second of the new sample: neither the mark nor a flush is past it
      refine ⟨fun m hm => e ▸ hle (h.markSeen m hm), fun f hf hlt => ?_⟩
      exact absurd (e ▸ hle (h.lastSeen f hf)) (not_le.mpr hlt)
    · rw [hbar e] at ht
      exact h.dirty t ht
  case stale =>
    intro f hf hc hst
    by_cases e : f.last = ⌊x.ts⌋
    · exact ⟨fun m hm => e ▸ hle (h.markSeen m hm), fun g hg => e ▸ hle (h.lastSeen g hg)⟩
    · unfold Flight.upToDate at hst
      rw [hbar e] at hst
      exact h.stale f hf hc hst

/-- Fewer flushes. -/
theorem FlushInv.sublist {flights' : List Flight} (hsub : flights'.Sublist flights)
    (h : FlushInv symbol exchange ring mark table flights now) :
    FlushInv symbol exchange ring mark table flights' now where
  ordered := h.ordered
  clock := h.clock
  markSeen := h.markSeen
  lastSeen f hf := h.lastSeen f (hsub.subset hf)
  rowsNodup f hf := h.rowsNodup f (hsub.subset hf)
  rowsFinal f hf := h.rowsFinal f (hsub.subset hf)
  rowsWithin f hf := h.rowsWithin f (hsub.subset hf)
  stored := h.stored
  dirty t ht := ⟨(h.dirty t ht).1, fun f hf => (h.dirty t ht).2 f (hsub.subset hf)⟩
  stale f hf hc hst := ⟨(h.stale f (hsub.subset hf) hc hst).1, fun g hg =>
    (h.stale f (hsub.subset hf) hc hst).2 g (hsub.subset hg)⟩

/-- **Starting.** A flush that holds the bars from the mark on, up to the newest second. -/
theorem flushInv_start {f₀ : Flight} (h : FlushInv symbol exchange ring mark table flights now)
    (hsafe : ∀ f ∈ flights, f.committed = false →
      f.upToDate symbol exchange ring ∨ f.newest ring)
    (hsince : f₀.since = mark) (hcommitted : f₀.committed = false)
    (hlast : ∃ x ∈ ring, f₀.last = ⌊x.ts⌋) (hnewest : f₀.newest ring)
    (hnodup : (f₀.rows.map Prod.fst).Nodup)
    (hrows : ∀ t, entryAt f₀.rows (rowKey symbol exchange t) =
      if notBefore mark t then barAt ring t else none) :
    FlushInv symbol exchange ring mark table (flights ++ [f₀]) now := by
  have hseen : Seen ring f₀.last := by
    obtain ⟨x, hx, e⟩ := hlast
    exact ⟨x, hx, e.le⟩
  have hle : ∀ {t}, Seen ring t → t ≤ f₀.last := by
    intro t hex
    obtain ⟨x, hx, hxt⟩ := hex
    exact hxt.trans (hnewest x hx)
  have hmem : ∀ {f}, f ∈ flights ++ [f₀] → f ∈ flights ∨ f = f₀ := fun hf => by
    simpa using hf
  -- the new flush is up to date, since the mark is not past its last second
  have hfresh : f₀.upToDate symbol exchange ring := by
    unfold Flight.upToDate
    rw [hrows, if_pos (notBefore_iff.2 fun m hm => hle (h.markSeen m hm))]
  have hfits : f₀.Fits symbol exchange ring := by
    refine ⟨hseen, hnodup, fun t _ => by rw [hrows, hsince], fun t ht => ?_⟩
    rw [hrows] at ht
    have hb : barAt ring t ≠ none := fun e => ht (by rw [e, ite_self])
    obtain ⟨x, hx, hxt⟩ := (barAt_ne_none h.ordered).mp hb
    exact ⟨hxt ▸ hnewest x hx, hb⟩
  apply flushInv_of_fits
  case ordered => exact h.ordered
  case clock => exact h.clock
  case markSeen => exact h.markSeen
  case fits =>
    intro f hf
    rcases hmem hf with hf | rfl
    · exact h.fits hf
    · exact hfits
  case stored => exact h.stored
  case dirty =>
    intro t ht
    obtain ⟨h1, h2⟩ := h.dirty t ht
    refine ⟨h1, fun f hf hlt => ?_⟩
    rcases hmem hf with hf | rfl
    · exact h2 f hf hlt
    · exact ⟨hcommitted, by rw [hsince]; exact notBefore_iff.2 h1⟩
  case stale =>
    intro f hf hc hst
    rcases hmem hf with hold | rfl
    · obtain ⟨h1, h2⟩ := h.stale f hold hc hst
      refine ⟨h1, fun g hg => ?_⟩
      rcases hmem hg with hg | rfl
      · exact h2 g hg
      · obtain ⟨x, hx, e⟩ := hlast
        exact e ▸ (hsafe f hold hc).resolve_left hst x hx
    · exact absurd hfresh hst

/-- A row of a flush that is not the bar of its second is the last one. -/
theorem FlushInv.row_last {f : Flight} (h : FlushInv symbol exchange ring mark table flights now)
    (hf : f ∈ flights) {t : ℚ} {b : RowBar}
    (hb : entryAt f.rows (rowKey symbol exchange t) = some b) (hne : some b ≠ barAt ring t) :
    t = f.last := by
  refine le_antisymm (h.rowsWithin f hf t (by simp [hb])).1 (not_lt.mp fun hlt => hne ?_)
  have hfinal := h.rowsFinal f hf t hlt
  by_cases hmark : notBefore f.since t = true
  · rw [← hb, hfinal, if_pos hmark]
  · rw [hfinal, if_neg hmark] at hb
    cases hb

/-- A second that a flush covers without a row for it has neither a row nor a bar, or is clean. -/
theorem FlushInv.covered_clean {f : Flight}
    (h : FlushInv symbol exchange ring mark table flights now) (hf : f ∈ flights) {t : ℚ}
    (hnone : entryAt f.rows (rowKey symbol exchange t) = none) (hlt : t < f.last) :
    rowAt symbol exchange table t = barAt ring t := by
  by_contra ht
  have hfinal := h.rowsFinal f hf t hlt
  rw [hnone, if_pos ((h.dirty t ht).2 f hf hlt).2] at hfinal
  have hrow : rowAt symbol exchange table t = none := by
    by_contra hs
    exact h.stored t hs hfinal.symm
  exact ht (hrow.trans hfinal)

/-- **Committing.** A final row becomes clean; a half-formed last row makes a second dirty that
    lies at or after the mark and after which no flush ends. -/
theorem flushInv_commit {f₀ : Flight} {flights' : List Flight}
    (h : FlushInv symbol exchange ring mark table flights now) (hf₀ : f₀ ∈ flights)
    (hcommitted : f₀.committed = false)
    (hmem : ∀ f ∈ flights', f = { f₀ with committed := true } ∨ f ∈ flights) :
    FlushInv symbol exchange ring mark (table.upsertAll f₀.rows) flights' now := by
  have hrow : ∀ t, rowAt symbol exchange (table.upsertAll f₀.rows) t =
      (entryAt f₀.rows (rowKey symbol exchange t)).or (rowAt symbol exchange table t) := fun t =>
    IntradayTable.row?_upsertAll table (h.fits hf₀).nodup _
  have hfits₀ := h.fits hf₀
  apply flushInv_of_fits
  case ordered => exact h.ordered
  case clock => exact h.clock
  case markSeen => exact h.markSeen
  case fits =>
    intro f hf
    rcases hmem f hf with rfl | hf
    · exact ⟨hfits₀.seen, hfits₀.nodup, hfits₀.final, hfits₀.within⟩
    · exact h.fits hf
  case stored =>
    intro t ht
    rw [hrow] at ht
    cases he : entryAt f₀.rows (rowKey symbol exchange t) with
    | some b => exact (h.rowsWithin f₀ hf₀ t (by simp [he])).2
    | none =>
      rw [he, Option.none_or] at ht
      exact h.stored t ht
  case dirty =>
    intro t ht
    rw [hrow] at ht
    cases he : entryAt f₀.rows (rowKey symbol exchange t) with
    | some b =>
      rw [he, Option.some_or, ← he] at ht
      have hend : t = f₀.last := h.row_last hf₀ he (by rwa [he] at ht)
      subst hend
      obtain ⟨h1, h2⟩ := h.stale f₀ hf₀ hcommitted ht
      refine ⟨h1, fun f hf hlt => absurd hlt (not_lt.mpr ?_)⟩
      rcases hmem f hf with rfl | hf
      · exact le_refl _
      · exact h2 f hf
    | none =>
      rw [he, Option.none_or] at ht
      obtain ⟨h1, h2⟩ := h.dirty t ht
      refine ⟨h1, fun f hf hlt => ?_⟩
      rcases hmem f hf with rfl | hf
      · exact absurd (h.covered_clean hf₀ he hlt) ht
      · exact h2 f hf hlt
  case stale =>
    intro f hf hc hst
    rcases hmem f hf with rfl | hf
    · cases hc
    · obtain ⟨h1, h2⟩ := h.stale f hf hc hst
      refine ⟨h1, fun g hg => ?_⟩
      rcases hmem g hg with rfl | hg
      · exact h2 f₀ hf₀
      · exact h2 g hg

/-- **Moving the mark.** A committed flush covers every dirty second before its last. -/
theorem flushInv_finish {f₀ : Flight} {flights' : List Flight}
    (h : FlushInv symbol exchange ring mark table flights now) (hf₀ : f₀ ∈ flights)
    (hcommitted : f₀.committed = true) (hsub : flights'.Sublist flights) :
    FlushInv symbol exchange ring (some f₀.last) table flights' now := by
  have h' := h.sublist hsub
  apply flushInv_of_fits
  case ordered => exact h.ordered
  case clock => exact h.clock
  case markSeen =>
    intro m hno
    cases hno
    exact h.lastSeen f₀ hf₀
  case fits => exact fun f hf => h'.fits hf
  case stored => exact h.stored
  case dirty =>
    intro t ht
    refine ⟨?_, (h'.dirty t ht).2⟩
    intro m hno
    cases hno
    by_contra hlt
    rw [((h.dirty t ht).2 f₀ hf₀ (not_le.mp hlt)).1] at hcommitted
    cases hcommitted
  case stale =>
    intro f hf hc hst
    refine ⟨?_, (h'.stale f hf hc hst).2⟩
    intro m hno
    cases hno
    exact (h.stale f (hsub.subset hf) hc hst).2 f₀ hf₀

/-! ## 6. Steps and runs of the machine -/

variable {cfg : LiveSettings} {s s' : FlushSystem}

/-- The invariant of a state. -/
def FlushInvOf (symbol exchange : String) (s : FlushSystem) (now : ℚ) : Prop :=
  FlushInv symbol exchange (s.ring symbol exchange) (s.mark symbol exchange) s.table s.flights now

/-- The promise of the mark is part of the invariant. -/
theorem FlushInvOf.durable (h : FlushInvOf symbol exchange s now) :
    DurableBelowMark symbol exchange s := by
  intro m hm second hlt
  by_contra hd
  exact absurd hlt (not_lt.mpr ((h.dirty second hd).1 m hm))

theorem build_one (symbol exchange : String) (s : FlushSystem) :
    s.engine.build symbol exchange 1 100000 =
      lastSlice 100000 (candles (s.ring symbol exchange) 1) := by
  unfold LiveCandleEngine.build FlushSystem.ring
  rfl

/-- The last candle stands at the newest second. -/
theorem getLast?_candles {c : Candle} (ho : TimeOrdered ring)
    (hc : (lastSlice 100000 (candles ring 1)).getLast? = some c) :
    (∃ x ∈ ring, c.timestamp = ⌊x.ts⌋) ∧ ∀ x ∈ ring, (⌊x.ts⌋ : ℚ) ≤ c.timestamp := by
  rw [lastSlice_limit, List.getLast?_drop] at hc
  split at hc
  · cases hc
  have hmem : c ∈ candles ring 1 := List.mem_of_getLast? hc
  constructor
  · obtain ⟨x, hx, e⟩ := (mem_candles_one ho).mp ⟨c, hmem, rfl⟩
    exact ⟨x, hx, e.symm⟩
  · intro x hx
    obtain ⟨d, hd, e⟩ := (mem_candles_one ho).mpr ⟨x, hx, rfl⟩
    obtain ⟨pre, hpre⟩ := List.getLast?_eq_some_iff.mp hc
    have hord := candles_one_ordered ho
    rw [hpre] at hd hord
    rw [← e]
    rcases List.mem_append.mp hd with hd | hd
    · exact ((List.pairwise_append.mp hord).2.2 d hd c (List.mem_singleton.mpr rfl)).le
    · rw [List.mem_singleton.mp hd]

/-- What `flush_live_to_store` has built when it awaits the database. -/
theorem startFlush_spec {f : Flight} (ho : TimeOrdered (s.ring symbol exchange))
    (hlen : (flushRows symbol exchange (s.mark symbol exchange)
      (candles (s.ring symbol exchange) 1)).length ≤ 100000)
    (hf : s.startFlush symbol exchange = some f) :
    f.since = s.mark symbol exchange ∧ f.committed = false ∧
      f.rows = flushRows symbol exchange (s.mark symbol exchange)
        (candles (s.ring symbol exchange) 1) ∧
      (∃ x ∈ s.ring symbol exchange, f.last = ⌊x.ts⌋) ∧ f.newest (s.ring symbol exchange) := by
  have hrows := flushRows_lastSlice (candles_one_ordered ho) hlen
  have hlast : ∀ c, _ → _ := fun c => getLast?_candles (c := c) ho
  unfold FlushSystem.startFlush at hf
  rw [build_one] at hf
  generalize lastSlice 100000 (candles (s.ring symbol exchange) 1) = cs at hf hrows hlast
  dsimp only at hf
  cases hc : cs.getLast? with
  | none =>
    rw [hc] at hf
    cases hf
  | some c =>
    obtain ⟨hsec, hnew⟩ := hlast c hc
    rw [hc] at hf
    dsimp only at hf
    rw [hrows] at hf
    by_cases hnil : flushRows symbol exchange (s.mark symbol exchange)
        (candles (s.ring symbol exchange) 1) = []
    · rw [if_pos hnil] at hf
      cases hf
    · rw [if_neg hnil] at hf
      obtain rfl := Option.some.inj hf
      exact ⟨rfl, rfl, rfl, hsec, hnew⟩

/-- A ring that keeps all its samples stays or grows by the new one. -/
theorem ringAppend_kept {n : Nat} {x : Sample} (h : ring <+: ringAppend n ring x) :
    ringAppend n ring x = ring ∨ ringAppend n ring x = ring ++ [x] := by
  unfold ringAppend List.rtake at h ⊢
  cases hk : (ring ++ [x]).length - n with
  | zero => exact .inr (by rw [List.drop_zero])
  | succ k =>
    rw [hk] at h
    have hle : ((ring ++ [x]).drop (k + 1)).length ≤ ring.length := by
      rw [List.length_drop, List.length_append, List.length_singleton]
      omega
    exact .inl (h.eq_of_length_le hle).symm

/-- A recorded call that evicts nothing leaves the ring or adds its sample. -/
theorem record_ring {c : RecordCall} (hk : c.key = engineKey symbol exchange)
    (hkept : (s.evicted || !(s.ring symbol exchange).isPrefixOf
      ((s.engine.record cfg c).samples (engineKey symbol exchange))) = false) :
    (s.engine.record cfg c).samples (engineKey symbol exchange) = s.ring symbol exchange ∨
    ∃ x : Sample, x.ts = c.stamp ∧
      (s.engine.record cfg c).samples (engineKey symbol exchange) = s.ring symbol exchange ++ [x] := by
  rcases LiveCandleEngine.record_cases cfg c s.engine with e | ⟨x, hts, -, -, -, -, e⟩
  · exact .inl (by rw [e]; rfl)
  · have hring : (s.engine.record cfg c).samples (engineKey symbol exchange) =
        ringAppend cfg.sampleMaxlen (s.ring symbol exchange) x := by
      rw [e, ← hk]
      simp [LiveCandleEngine.append, LiveCandleEngine.own_samples, FlushSystem.ring, hk]
    simp only [Bool.or_eq_false_iff, Bool.not_eq_false', List.isPrefixOf_iff_prefix, hring] at hkept
    rw [hring]
    exact (ringAppend_kept hkept.2).imp_right fun h => ⟨x, hts, h⟩

/-- A recorded call, while nothing is evicted. -/
theorem flushInv_record {c : RecordCall} (h : FlushInvOf symbol exchange s now)
    (hk : c.key = engineKey symbol exchange) (hnow : now ≤ c.stamp)
    (hkept : (s.evicted || !(s.ring symbol exchange).isPrefixOf
      ((s.engine.record cfg c).samples (engineKey symbol exchange))) = false) :
    FlushInv symbol exchange ((s.engine.record cfg c).samples (engineKey symbol exchange))
      (s.mark symbol exchange) s.table s.flights c.stamp := by
  rcases record_ring hk hkept with e | ⟨x, hx, e⟩
  · rw [e]
    exact FlushInv.later h hnow
  · rw [e, ← hx]
    exact flushInv_append h (hx ▸ hnow)

/-- What `flush_live_to_store` awaits the database with, beside the flushes under way. -/
theorem flushInv_startFlush {f : Flight} (h : FlushInvOf symbol exchange s now)
    (hold : ∀ f ∈ s.flights, f.committed = false →
      f.upToDate symbol exchange (s.ring symbol exchange) ∨ f.newest (s.ring symbol exchange))
    (hlen : (flushRows symbol exchange (s.mark symbol exchange)
      (candles (s.ring symbol exchange) 1)).length ≤ 100000)
    (hf : s.startFlush symbol exchange = some f) :
    FlushInv symbol exchange (s.ring symbol exchange) (s.mark symbol exchange) s.table
      (s.flights ++ [f]) now := by
  obtain ⟨hsince, hcommitted, hrows, hlast, hnewest⟩ := startFlush_spec h.ordered hlen hf
  refine flushInv_start h hold hsince hcommitted hlast hnewest ?_ fun t => ?_
  · rw [hrows]
    exact flushRows_nodup (candles_one_ordered h.ordered)
  · rw [hrows, entryAt_flushRows]
    rfl

/-- **One step**, while nothing is evicted. -/
theorem flushInv_step {a : FlushAction} {now' : ℚ} (h : FlushInvOf symbol exchange s now)
    (hsafe : FlushSafe symbol exchange s a)
    (htime : ∀ c, a = .record c → now ≤ c.stamp ∧ now' = c.stamp) (hle : now ≤ now')
    (hs : s.step cfg symbol exchange a = some s') (hkept : s'.evicted = false) :
    FlushInvOf symbol exchange s' now' := by
  rcases FlushSystem.step_cases hs with ⟨c, rfl, hkey, rfl⟩ | ⟨rfl, rfl⟩ | ⟨i, f, rfl, hf, hc, rfl⟩ |
    ⟨i, f, rfl, hf, hc, rfl⟩ | ⟨i, f, rfl, hf, hc, rfl⟩
  · obtain ⟨hnow, rfl⟩ := htime c rfl
    exact flushInv_record h hkey hnow hkept
  · obtain ⟨hold, hlen⟩ := hsafe rfl
    have hstart : ∀ f, s.startFlush symbol exchange = some f → _ :=
      fun f => flushInv_startFlush h hold hlen
    unfold FlushInvOf FlushSystem.ring FlushSystem.mark
    cases hf : s.startFlush symbol exchange with
    | none =>
      rw [Option.toList_none, List.append_nil]
      exact h.later hle
    | some f => exact (hstart f hf).later hle
  · exact (FlushInv.sublist (List.eraseIdx_sublist ..) h).later hle
  · refine (flushInv_commit h (List.mem_of_getElem? hf) hc fun g hg => ?_).later hle
    exact (List.mem_or_eq_of_mem_set hg).symm
  · have hm : ({ s with
        lastFlushTs := Function.update s.lastFlushTs (engineKey symbol exchange) (some f.last)
        flights := s.flights.eraseIdx i } : FlushSystem).mark symbol exchange = some f.last :=
      Function.update_self ..
    unfold FlushInvOf
    rw [hm]
    exact (flushInv_finish h (List.mem_of_getElem? hf) hc (List.eraseIdx_sublist ..)).later hle

/-- An evicted sample stays evicted. -/
theorem evicted_step {a : FlushAction} (hs : s.step cfg symbol exchange a = some s')
    (hkept : s'.evicted = false) : s.evicted = false := by
  rcases FlushSystem.step_cases hs with ⟨c, rfl, hkey, rfl⟩ | ⟨rfl, rfl⟩ | ⟨i, f, rfl, hf, hc, rfl⟩ |
    ⟨i, f, rfl, hf, hc, rfl⟩ | ⟨i, f, rfl, hf, hc, rfl⟩
  · exact (Bool.or_eq_false_iff.mp hkept).1
  · exact hkept
  · exact hkept
  · exact hkept
  · exact hkept

end Steps

/-- The time of a step, where it has one. -/
def FlushAction.time : FlushAction → Option ℚ
  | .record c => some c.stamp
  | _ => none

/-- **The store below the mark is durable, if flushes start safely.** In every run from an empty
    engine and an empty store, of samples in the order of their times and any number of
    overlapping flushes of the key: if every flush starts safely, then in every state before the
    first eviction each second before the mark has a row exactly when it has a bar, and the row is
    that bar. -/
theorem flush_durable (cfg : LiveSettings) (symbol exchange : String) (acts : List FlushAction)
    (s : FlushSystem) (hmono : (acts.filterMap FlushAction.time).Pairwise (· ≤ ·))
    (hr : run (FlushSystem.step cfg symbol exchange) {} acts = some s)
    (hsafe : StepsMeet (FlushSystem.step cfg symbol exchange) (FlushSafe symbol exchange) {} acts)
    (hkept : s.evicted = false) : DurableBelowMark symbol exchange s := by
  obtain ⟨t₀, h₀⟩ := exists_clock hmono
  obtain ⟨now, hclocked⟩ := run_clocked FlushAction.time t₀ hmono h₀ hr
  let I (p : FlushSystem × ℚ) : Prop := p.1.evicted = false → FlushInvOf symbol exchange p.1 p.2
  have hinit : I ({}, t₀) := fun _ => flushInv_init symbol exchange t₀
  have hstep : ∀ p a p', I p → FlushSafe symbol exchange p.1 a →
      clocked (FlushSystem.step cfg symbol exchange) FlushAction.time p a = some p' → I p' := by
    intro p a p' hI hC hs hk
    obtain ⟨hstep, hle, htime⟩ := clocked_cases hs
    refine flushInv_step (hI (evicted_step hstep hk)) hC ?_ hle hstep hk
    intro c heq
    obtain rfl := heq
    have e := htime c.stamp rfl
    exact ⟨e ▸ hle, e⟩
  have hinv : I (s, now) := run_invariant_meet hstep hinit (stepsMeet_clocked hsafe) hclocked
  exact (hinv hkept).durable

/-- A sample of RELIANCE on NSE, `ds` tenths of a second after 09:15:10 IST. -/
def tickAt (ds : ℕ) (price cum : ℚ) : FlushAction :=
  .record ⟨"RELIANCE", "NSE", some price, some cum, some (1728013510 + ds / 10), some "groww", 0⟩

/-- Two flushes, one after the other; the first one is short of a sample of its last second. -/
def successiveFlushes : List FlushAction :=
  [tickAt 0 2450 1000, .start, tickAt 5 2455 1040, .commit 0, .finish 0, tickAt 100 2452 1060,
    .start, .commit 0, .finish 0]

theorem flush_durable_successive :
    ∃ s, run (FlushSystem.step {} "RELIANCE" "NSE") {} successiveFlushes = some s ∧
      s.mark "RELIANCE" "NSE" = some 1728013520 ∧ DurableBelowMark "RELIANCE" "NSE" s := by
  have heval : (run (FlushSystem.step {} "RELIANCE" "NSE") {} successiveFlushes).map
      (fun s => (s.evicted, s.mark "RELIANCE" "NSE")) = some (false, some 1728013520) := by
    decide
  obtain ⟨s, hr, hs⟩ := Option.map_eq_some_iff.mp heval
  obtain ⟨hkept, hmark⟩ := Prod.mk.inj hs
  exact ⟨s, hr, hmark, flush_durable {} "RELIANCE" "NSE" successiveFlushes s (by decide) hr
    (by decide) hkept⟩

/-- Two overlapping flushes: the one that started on the half-formed bar commits last and moves the
    mark first. -/
def overlappingFlushes : List FlushAction :=
  [tickAt 0 2450 1000, .start, tickAt 5 2455 1040, tickAt 100 2452 1060, .start, .commit 1,
    .commit 0, .finish 0, .finish 0]

/-- **A stale flush overwrites a final row for good.** No flush is left, nothing has been evicted
    and the mark is past 09:15:10, whose row is the half-formed bar. -/
theorem stale_flush_overwrites :
    (overlappingFlushes.filterMap FlushAction.time).Pairwise (· ≤ ·) ∧
    ∃ s, run (FlushSystem.step {} "RELIANCE" "NSE") {} overlappingFlushes = some s ∧
      s.flights = [] ∧ s.evicted = false ∧ s.mark "RELIANCE" "NSE" = some 1728013520 ∧
      rowAt "RELIANCE" "NSE" s.table (1728013510 : ℤ) = some ⟨2450, 2450, 2450, 2450, 0⟩ ∧
      barAt (s.ring "RELIANCE" "NSE") (1728013510 : ℤ) = some ⟨2450, 2455, 2450, 2455, 40⟩ ∧
      ¬ DurableBelowMark "RELIANCE" "NSE" s := by
  have hend : (run (FlushSystem.step {} "RELIANCE" "NSE") {} overlappingFlushes).map
      (fun s => (s.flights, s.evicted, s.mark "RELIANCE" "NSE")) =
      some ([], false, some 1728013520) := by
    decide
  have hsecond : (run (FlushSystem.step {} "RELIANCE" "NSE") {} overlappingFlushes).map
      (fun s => (rowAt "RELIANCE" "NSE" s.table (1728013510 : ℤ),
        barAt (s.ring "RELIANCE" "NSE") (1728013510 : ℤ))) =
      some (some ⟨2450, 2450, 2450, 2450, 0⟩, some ⟨2450, 2455, 2450, 2455, 40⟩) := by
    decide
  obtain ⟨s, hr, hs⟩ := Option.map_eq_some_iff.mp hend
  rw [hr, Option.map_some, Option.some.injEq, Prod.mk.injEq] at hsecond
  simp only [Prod.mk.injEq] at hs
  obtain ⟨hflights, hkept, hmark⟩ := hs
  obtain ⟨hrow, hbar⟩ := hsecond
  refine ⟨by decide, s, hr, hflights, hkept, hmark, hrow, hbar, fun hd => ?_⟩
  have hsame := hd _ hmark 1728013510 (by norm_num)
  rw [hrow, hbar] at hsame
  exact absurd hsame (by decide)

end BharatTicker
