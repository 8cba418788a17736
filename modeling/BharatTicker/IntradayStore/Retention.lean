/-
  File:      BharatTicker/IntradayStore/Retention.lean
  Subject:   RETENTION (`prune_old`, `_prune_loop`, `engine/intraday_store.py`; `POST /sb/prune`): what the
             deletion of old rows leaves of what the store can answer.

  The store is written by the flushes of all symbols, and rows are inserted into `ticks`; prunes come from
  the daily loop and on demand, with day counts of their own, and may fail. Both deletions are one
  transaction. A day is 86400 s, as in the database's time zone.

  * `DurableStore`, `RetentionSettings`, `StoreAction`, `step` -- the two tables and what is done to them;
  * `SameSince`, `step_sameSince` -- the simulation between a run and the same run without its prunes;
  * `PrunedTo`, `step_prunedTo` -- what a prune has taken away, until it is written again;
  * `retention_window` -- every run.
-/
import BharatTicker.Basis.Run
import BharatTicker.Historical
import BharatTicker.IntradayStore

namespace BharatTicker

open Basis

-- the concrete runs below compute with rationals
unseal Rat.add Rat.mul Rat.sub Rat.inv

/-! ## 1. The store -/

/-- `intraday_candles` and `ticks`. -/
structure DurableStore where
  intraday : IntradayTable := {}
  ticks : List StoredTick := []

/-- `INTRADAY_RETENTION_DAYS` and `TICKS_RETENTION_DAYS`. -/
structure RetentionSettings where
  intradayDays : ℤ := 60
  ticksDays : ℤ := 14

/-- `days or default`. -/
def daysOr (days : Option ℤ) (default : ℤ) : ℤ := (days.filter (· ≠ 0)).getD default

/-- `now() - make_interval(days => :d)`. -/
def retentionCut (now : ℚ) (days : ℤ) : ℚ := now - days * 86400

/-- `_PRUNE_INTRADAY`. -/
def IntradayTable.deleteBefore (t : IntradayTable) (cut : ℚ) : IntradayTable where
  rows := t.rows.filter fun r => !decide (r.1.time < cut)
  primaryKey := t.primaryKey.sublist (List.filter_sublist.map Prod.fst)

/-- `_PRUNE_TICKS`. -/
def deleteTicksBefore (ticks : List StoredTick) (cut : ℚ) : List StoredTick :=
  ticks.filter fun t => !decide (t.time < cut)

/-- The arguments of `prune_old`, and what `now()` shows. -/
structure Prune where
  intradayDays : Option ℤ := none
  ticksDays : Option ℤ := none
  now : ℚ
  deriving DecidableEq, Repr

variable (cfg : RetentionSettings)

def Prune.intradayCut (c : Prune) : ℚ := retentionCut c.now (daysOr c.intradayDays cfg.intradayDays)

def Prune.ticksCut (c : Prune) : ℚ := retentionCut c.now (daysOr c.ticksDays cfg.ticksDays)

inductive StoreAction where
  /-- `upsert_intraday_candles` commits, for whichever symbols. -/
  | upsert (rows : List (IntradayKey × RowBar))
  | insertTicks (ticks : List StoredTick)
  /-- `prune_old`, which commits, or raises and leaves everything as it is. -/
  | pruneOld (c : Prune) (commits : Bool)

def DurableStore.step (s : DurableStore) : StoreAction → Option DurableStore
  | .upsert rows => some { s with intraday := s.intraday.upsertAll rows }
  | .insertTicks ticks => some { s with ticks := s.ticks ++ ticks }
  | .pruneOld c commits =>
    if commits then
      some {
        intraday := s.intraday.deleteBefore (c.intradayCut cfg)
        ticks := deleteTicksBefore s.ticks (c.ticksCut cfg) }
    else some s

/-- Anything but a prune. -/
def StoreAction.keeps : StoreAction → Bool
  | .pruneOld _ _ => false
  | _ => true

/-- No prune cuts beyond these times. -/
def StoreAction.CutsBefore (start startTicks : ℚ) : StoreAction → Prop
  | .pruneOld c _ => c.intradayCut cfg ≤ start ∧ c.ticksCut cfg ≤ startTicks
  | _ => True

/-- Nothing is written before this time. -/
def StoreAction.WritesSince (cut : ℚ) : StoreAction → Prop
  | .upsert rows => ∀ r ∈ rows, cut ≤ r.1.time
  | _ => True

/-! ## 2. A run, and the run without its prunes -/

/-- The stores have the same rows, in the same order, from these times on. -/
structure SameSince (start startTicks : ℚ) (s s' : DurableStore) : Prop where
  intraday : s.intraday.rows.filter (fun r => start ≤ r.1.time) =
    s'.intraday.rows.filter fun r => start ≤ r.1.time
  ticks : s.ticks.filter (fun t => startTicks ≤ t.time) =
    s'.ticks.filter fun t => startTicks ≤ t.time

section Same

variable {cfg} {start startTicks : ℚ} {s s' : DurableStore}

/-- Two tables with the same rows from a time on keep them through any upserts. -/
theorem filter_upsertAll {t t' : IntradayTable} (rows : List (IntradayKey × RowBar))
    (h : t.rows.filter (fun r => start ≤ r.1.time) = t'.rows.filter fun r => start ≤ r.1.time) :
    (t.upsertAll rows).rows.filter (fun r => start ≤ r.1.time) =
      (t'.upsertAll rows).rows.filter fun r => start ≤ r.1.time := by
  induction rows generalizing t t' with
  | nil => exact h
  | cons r rows ih =>
    refine @ih (t.upsert r) (t'.upsert r) ?_
    have hone : ∀ t : IntradayTable, (t.upsert r).rows = assign t.rows r.1 r.2 := fun _ => rfl
    rw [hone, hone]
    by_cases hr : start ≤ r.1.time
    · rw [filter_assign_of_pos (p := fun k : IntradayKey => decide (start ≤ k.time)) (decide_eq_true hr),
        filter_assign_of_pos (p := fun k : IntradayKey => decide (start ≤ k.time)) (decide_eq_true hr), h]
    · rw [filter_assign_of_neg (p := fun k : IntradayKey => decide (start ≤ k.time)) (decide_eq_false hr),
        filter_assign_of_neg (p := fun k : IntradayKey => decide (start ≤ k.time)) (decide_eq_false hr), h]

/-- A deletion before the time leaves what is not before it. -/
theorem filter_deleteBefore {α : Type*} {time : α → ℚ} {cut : ℚ} (hcut : cut ≤ start) (l : List α) :
    (l.filter fun x => !decide (time x < cut)).filter (fun x => start ≤ time x) =
      l.filter fun x => start ≤ time x := by
  rw [List.filter_filter]
  refine List.filter_congr fun x _ => ?_
  by_cases hx : start ≤ time x
  · have hnot : ¬time x < cut := not_lt.mpr (hcut.trans hx)
    simp [hx, hnot]
  · simp [hx]

/-- **A prune of one run alone.** -/
theorem SameSince.drop (h : SameSince start startTicks s s') {a : StoreAction}
    (hcut : a.CutsBefore cfg start startTicks) (ha : a.keeps = false) {s₁ : DurableStore}
    (hs : s.step cfg a = some s₁) : SameSince start startTicks s₁ s' := by
  cases a with
  | upsert rows => cases ha
  | insertTicks ticks => cases ha
  | pruneOld c commits =>
    simp only [DurableStore.step] at hs
    split at hs
    · cases hs
      exact ⟨(filter_deleteBefore hcut.1 _).trans h.intraday,
        (filter_deleteBefore hcut.2 _).trans h.ticks⟩
    · cases hs
      exact h

/-- **A write of both runs.** -/
theorem SameSince.write (h : SameSince start startTicks s s') {a : StoreAction} (ha : a.keeps = true)
    {s₁ : DurableStore} (hs : s.step cfg a = some s₁) :
    ∃ s₁', s'.step cfg a = some s₁' ∧ SameSince start startTicks s₁ s₁' := by
  cases a with
  | upsert rows =>
    cases hs
    exact ⟨_, rfl, filter_upsertAll rows h.intraday, h.ticks⟩
  | insertTicks ticks =>
    cases hs
    refine ⟨_, rfl, h.intraday, ?_⟩
    show (s.ticks ++ ticks).filter _ = (s'.ticks ++ ticks).filter _
    rw [List.filter_append, List.filter_append, h.ticks]
  | pruneOld c commits => cases ha

/-- A window that starts in time selects the same rows. -/
theorem SameSince.selectWindow (h : SameSince start startTicks s s') {since : ℚ} (hfrom : start ≤ since)
    (symbol exchange : String) (stop : ℚ) :
    selectWindow s.intraday symbol exchange since stop =
      selectWindow s'.intraday symbol exchange since stop := by
  have hnarrow : ∀ t : IntradayTable, BharatTicker.selectWindow t symbol exchange since stop =
      (t.rows.filter fun r => start ≤ r.1.time).filter fun r => r.1.symbol = symbol &&
        r.1.exchange = exchange && decide (since ≤ r.1.time) && decide (r.1.time < stop) := by
    intro t
    unfold BharatTicker.selectWindow
    rw [List.filter_filter]
    refine List.filter_congr fun r _ => ?_
    by_cases hr : since ≤ r.1.time
    · simp [hr, hfrom.trans hr]
    · simp [hr]
  rw [hnarrow, hnarrow, h.intraday]

/-- The read of a day that starts in time. -/
theorem SameSince.readPastIntraday (h : SameSince start startTicks s s') {day : ℤ}
    (hday : start ≤ (dayWindow day).1) (symbol exchange : String) (bucketSeconds : ℚ) :
    readPastIntraday true s.intraday symbol exchange bucketSeconds day =
      readPastIntraday true s'.intraday symbol exchange bucketSeconds day := by
  have hsel := h.selectWindow hday (upper symbol) (upper exchange) (dayWindow day).2
  unfold BharatTicker.readPastIntraday countIntraday getIntradayCandles
  dsimp only
  rw [hsel]

/-- The candles over a range that starts in time. -/
theorem SameSince.getOhlcvCandles (h : SameSince start startTicks s s') {startTime : ℚ}
    (hstart : startTicks ≤ startTime) (symbol exchange : String) (interval : ℕ) (endTime : ℚ) :
    getOhlcvCandles s.ticks symbol exchange interval startTime endTime =
      getOhlcvCandles s'.ticks symbol exchange interval startTime endTime := by
  have hnarrow : ∀ ticks : List StoredTick, (ticks.filter fun t => t.symbol = symbol ∧
      t.exchange = exchange ∧ startTime ≤ t.time ∧ t.time ≤ endTime) =
      (ticks.filter fun t => startTicks ≤ t.time).filter fun t => t.symbol = symbol ∧
        t.exchange = exchange ∧ startTime ≤ t.time ∧ t.time ≤ endTime := by
    intro ticks
    rw [List.filter_filter]
    refine List.filter_congr fun t _ => ?_
    by_cases ht : startTime ≤ t.time
    · simp [ht, hstart.trans ht]
    · simp [ht]
  unfold BharatTicker.getOhlcvCandles
  rw [hnarrow s.ticks, hnarrow s'.ticks, h.ticks]

end Same

/-! ## 3. What is gone -/

/-- No row of the table lies before the time. -/
def PrunedTo (cut : ℚ) (t : IntradayTable) : Prop := ∀ k ∈ t.rows.map Prod.fst, cut ≤ k.time

section Pruned

variable {cfg} {cut : ℚ} {s s' : DurableStore} {t : IntradayTable}

theorem prunedTo_upsertAll {rows : List (IntradayKey × RowBar)} (h : PrunedTo cut t)
    (hrows : ∀ r ∈ rows, cut ≤ r.1.time) : PrunedTo cut (t.upsertAll rows) := by
  induction rows generalizing t with
  | nil => exact h
  | cons r rows ih =>
    refine @ih (t.upsert r) (fun k hk => ?_) fun x hx => hrows x (List.mem_cons_of_mem _ hx)
    rcases mem_keys_assign.1 (show k ∈ (assign t.rows r.1 r.2).map Prod.fst from hk) with rfl | hk
    · exact hrows r List.mem_cons_self
    · exact h k hk

/-- A prune takes everything before its cut. -/
theorem prunedTo_deleteBefore (t : IntradayTable) (cut : ℚ) : PrunedTo cut (t.deleteBefore cut) := by
  intro k hk
  obtain ⟨r, hr, rfl⟩ := List.mem_map.mp hk
  obtain ⟨-, hlate⟩ := List.mem_filter.mp hr
  simpa using hlate

/-- Whatever is done, as long as nothing is written before the time. -/
theorem step_prunedTo {a : StoreAction} (h : PrunedTo cut s.intraday) (ha : a.WritesSince cut)
    (hs : s.step cfg a = some s') : PrunedTo cut s'.intraday := by
  cases a with
  | upsert rows =>
    cases hs
    exact prunedTo_upsertAll h ha
  | insertTicks ticks =>
    cases hs
    exact h
  | pruneOld c commits =>
    simp only [DurableStore.step] at hs
    split at hs
    · cases hs
      intro k hk
      obtain ⟨r, hr, rfl⟩ := List.mem_map.mp hk
      exact h r.1 (List.mem_map_of_mem (List.mem_filter.mp hr).1)
    · cases hs
      exact h

/-- A day that has ended by then has not been captured, as far as the store can tell. -/
theorem PrunedTo.readPastIntraday (h : PrunedTo cut t) {day : ℤ} (hday : (dayWindow day).2 ≤ cut)
    (symbol exchange : String) (bucketSeconds : ℚ) :
    readPastIntraday true t symbol exchange bucketSeconds day = some (false, []) := by
  have hempty : selectWindow t (upper symbol) (upper exchange) (dayWindow day).1 (dayWindow day).2 =
      [] := by
    refine List.filter_eq_nil_iff.mpr fun r hr => ?_
    have hlate : (dayWindow day).2 ≤ r.1.time := hday.trans (h r.1 (List.mem_map_of_mem hr))
    simp [not_lt.mpr hlate]
  unfold BharatTicker.readPastIntraday countIntraday
  simp [hempty]

end Pruned

/-! ## 4. Every run -/

/-- **Retention**: over any run of flushes, inserts and prunes, a day that no prune has cut into reads as
    if nothing had ever been pruned, and so do the candles of the ticks over a range that none has cut
    into; and a day that lies before the cut of a prune reads as never captured, until somebody writes to
    the past. -/
theorem retention_window {cfg : RetentionSettings} {acts : List StoreAction} {s₀ s : DurableStore}
    (hr : run (DurableStore.step cfg) s₀ acts = some s) :
    (∀ start startTicks, (∀ a ∈ acts, a.CutsBefore cfg start startTicks) →
      ∃ s', run (DurableStore.step cfg) s₀ (acts.filter StoreAction.keeps) = some s' ∧
        (∀ symbol exchange bucketSeconds day, start ≤ (dayWindow day).1 →
          readPastIntraday true s.intraday symbol exchange bucketSeconds day =
            readPastIntraday true s'.intraday symbol exchange bucketSeconds day) ∧
        ∀ symbol exchange interval startTime endTime, startTicks ≤ startTime →
          getOhlcvCandles s.ticks symbol exchange interval startTime endTime =
            getOhlcvCandles s'.ticks symbol exchange interval startTime endTime) ∧
      ∀ pre c post, acts = pre ++ .pruneOld c true :: post →
        (∀ a ∈ post, a.WritesSince (c.intradayCut cfg)) →
        ∀ symbol exchange bucketSeconds day, (dayWindow day).2 ≤ c.intradayCut cfg →
          readPastIntraday true s.intraday symbol exchange bucketSeconds day = some (false, []) := by
  refine ⟨fun start startTicks hcuts => ?_, fun pre c post hacts hpost symbol exchange bucketSeconds day
    hday => ?_⟩
  · have hsame₀ : SameSince start startTicks s₀ s₀ := ⟨rfl, rfl⟩
    have hwrite : ∀ s t a s₁, SameSince start startTicks s t → a.CutsBefore cfg start startTicks →
        a.keeps = true → s.step cfg a = some s₁ →
        ∃ t₁, t.step cfg a = some t₁ ∧ SameSince start startTicks s₁ t₁ :=
      fun _ _ _ _ h _ ha hs => h.write ha hs
    obtain ⟨s', hr', hsame⟩ := run_filter_meet (fun _ _ _ _ h hC ha hs => h.drop hC ha hs) hwrite hsame₀
      (stepsMeet_of_forall hcuts s₀) hr
    exact ⟨s', hr', fun symbol exchange bucketSeconds day hday =>
        hsame.readPastIntraday hday symbol exchange bucketSeconds,
      fun symbol exchange interval startTime endTime hstart =>
        hsame.getOhlcvCandles hstart symbol exchange interval endTime⟩
  · subst hacts
    obtain ⟨s₁, -, h₁⟩ := run_append.1 hr
    obtain ⟨s₂, h₂, h₃⟩ := run_cons.1 h₁
    cases h₂
    have hpruned : PrunedTo (c.intradayCut cfg) s.intraday :=
      run_invariant_meet (fun _ _ _ (hI : PrunedTo (c.intradayCut cfg) _) hC hs => step_prunedTo hI hC hs)
        (prunedTo_deleteBefore s₁.intraday (c.intradayCut cfg)) (stepsMeet_of_forall hpost _) h₃
    exact hpruned.readPastIntraday hday symbol exchange bucketSeconds

/-- A row of the day 20000, and one of the day 20100; the first is pruned by the default of 60 days, and
    the second is not. -/
def pruneDaily : List StoreAction :=
  [.upsert [(⟨"TCS", "NSE", 20000 * 86400⟩, ⟨1, 1, 1, 1, 5⟩)],
    .upsert [(⟨"TCS", "NSE", 20100 * 86400⟩, ⟨2, 2, 2, 2, 7⟩)],
    .pruneOld { now := 20101 * 86400 } true]

theorem retention_window_daily :
    ∃ s, run (DurableStore.step {}) {} pruneDaily = some s ∧
      readPastIntraday true s.intraday "TCS" "NSE" 1 20000 = some (false, []) ∧
      readPastIntraday true s.intraday "TCS" "NSE" 1 20100 ≠ some (false, []) := by
  refine ⟨_, rfl, ?_, by decide +kernel⟩
  exact (@retention_window {} pruneDaily {} _ rfl).2 (pruneDaily.take 2) { now := 20101 * 86400 } [] rfl
    (fun _ ha => by cases ha) "TCS" "NSE" 1 20000 (by decide +kernel)

end BharatTicker
