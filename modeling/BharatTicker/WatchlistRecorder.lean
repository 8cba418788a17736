/-
  File:      BharatTicker/WatchlistRecorder.lean
  Subject:   THE WATCHLIST RECORDER (`engine/watchlist_recorder.py`): one loop that samples a list of
             symbols, stored every half a minute.

  `start` makes a task of the loop, `stop` cancels it; either may come at any time, at `POST /recorder` or at
  the end of the program. The loop suspends in its sleeps, in the batch request, and in the flushes to the
  store; between these the program takes its steps. A task that is cancelled gets the exception where it
  is suspended, and not earlier than its next turn, so that more than one task may be there at a time.
  `fetches` and `rounds` are ghosts: when a loop has asked for quotes, and the times of the flush rounds.

  * `WatchlistSettings`, `LoopPhase`, `WatchlistRecorder` -- the state;
  * `start`, `stop`, `setWatchlist`, `turn`, `fetched`, `flushed`, `step` -- the steps;
  * `OneLoop`, `step_oneLoop` -- which loops are there; `Paced`, `step_paced` -- when they ask and flush;
  * `step_stopped` -- a recorder that is stopped;
  * `watchlist_recorder_runs` -- every run.
-/
import BharatTicker.Basis.Dict
import BharatTicker.Basis.Run
import BharatTicker.LiveCandles
import BharatTicker.Tickertape

namespace BharatTicker

open Basis

-- the concrete runs below compute with rationals
unseal Rat.add Rat.mul Rat.sub Rat.inv

/-! ## 1. State -/

/-- `_interval` and `STORE_FLUSH_INTERVAL_S`; the interval is half a second at least. -/
structure WatchlistSettings where
  interval : ℚ
  storeFlushInterval : ℚ := 30
  interval_ge : 1 / 2 ≤ interval

/-- `max(0.5, float(..))`. -/
def WatchlistSettings.ofEnv (recordInterval : ℚ) : WatchlistSettings where
  interval := max (1 / 2) recordInterval
  interval_ge := le_max_left _ _

/-- `[s.strip().upper() for s in symbols if s and s.strip()]`. -/
def cleanSymbols (symbols : List String) : List String :=
  (symbols.filter fun s => strip s ≠ "").map fun s => upper (strip s)

/-- `_env_watchlist`. -/
def envWatchlist (raw : String) : List String := cleanSymbols ((raw.toList.splitOn ',').map String.ofList)

/-- Where a loop is suspended. -/
inductive LoopPhase where
  /-- It is made a task, and has not run yet. -/
  | scheduled
  /-- In the sleep off session, or in that for want of symbols. -/
  | idling (wakesAt : ℚ)
  | fetching (wl : List String)
  /-- It awaits the flush of the first of these. -/
  | flushing (wl : List String)
  /-- In the sleep at the end of a turn. -/
  | pausing (wakesAt : ℚ)
  deriving DecidableEq, Repr

/-- The next thing is the head of the loop, and the sleep before it is over. -/
def LoopPhase.ready (t : ℚ) : LoopPhase → Bool
  | .scheduled => true
  | .idling wakesAt | .pausing wakesAt => wakesAt ≤ t
  | .fetching _ | .flushing _ => false

/-- A loop that has not ended. -/
structure RecorderLoop where
  phase : LoopPhase
  cancelled : Bool := false
  deriving DecidableEq, Repr

/-- A batch request: whose it is, and when it was made. -/
structure BatchFetch where
  loop : ℕ
  time : ℚ
  deriving DecidableEq, Repr

/-- The attributes of the recorder, the engine, the loops by number, and the clock. -/
structure WatchlistRecorder where
  watchlist : List String
  running : Bool := false
  task : Option ℕ := none
  lastFlush : ℚ := 0
  lastTick : ℚ := 0
  ticks : ℕ := 0
  engine : LiveCandleEngine := {}
  loops : ℕ → Option RecorderLoop := fun _ => none
  fresh : ℕ := 0
  clock : ℚ
  fetches : List BatchFetch := []
  rounds : List ℚ := []

inductive WatchlistAction where
  | start
  | stop
  | setWatchlist (symbols : List String)
  /-- The loop comes to its head. -/
  | turn (i : ℕ) (marketOpen : Bool) (t : ℚ)
  /-- `fetch_quotes` returns the quotes, or raises (`none`). -/
  | fetched (i : ℕ) (quotes : Option (Dict String QuoteRow)) (now : ℚ)
  /-- `flush_live_to_store` returns or raises. -/
  | flushed (i : ℕ) (raises : Bool) (t : ℚ)
  /-- The loop gets its `CancelledError`. -/
  | cancelled (i : ℕ)

/-! ## 2. Steps -/

namespace WatchlistRecorder

variable (cfg : WatchlistSettings) (live : LiveSettings) (s : WatchlistRecorder)

def setPhase (i : ℕ) (phase : LoopPhase) : WatchlistRecorder :=
  { s with loops := Function.update s.loops i (some { phase := phase }) }

/-- The loop ends. -/
def finish (i : ℕ) : WatchlistRecorder := { s with loops := Function.update s.loops i none }

/-- `start`. -/
def start : WatchlistRecorder :=
  if s.running || s.watchlist = [] then s
  else
    { s.setPhase s.fresh .scheduled with running := true, task := some s.fresh, fresh := s.fresh + 1 }

/-- `stop`. -/
def stop : WatchlistRecorder :=
  match s.task with
  | some i =>
    { s with
      running := false
      task := none
      loops := Function.update s.loops i ((s.loops i).map fun l => { l with cancelled := true }) }
  | none => { s with running := false }

/-- `set_watchlist`. -/
def setWatchlist (symbols : List String) : WatchlistRecorder :=
  { s with watchlist := cleanSymbols symbols }

/-- `while self._running`, and the turn up to its first suspension. -/
def turn (i : ℕ) (marketOpen : Bool) (t : ℚ) : WatchlistRecorder :=
  if !s.running then s.finish i
  else if !marketOpen then s.setPhase i (.idling (t + 60))
  else if s.watchlist = [] then s.setPhase i (.idling (t + 30))
  else { s.setPhase i (.fetching s.watchlist) with fetches := ⟨i, t⟩ :: s.fetches }

/-- The arguments of `record` for a row; `none`: `if price`. -/
def recordCall (now : ℚ) (sym : String) (row : QuoteRow) : Option RecordCall :=
  match row.price with
  | none => none
  | some price =>
    if price = 0 then none
    else some {
      symbol := sym
      exchange := "NSE"
      price := some price
      cumVolume := some (row.volume.getD 0)
      ts := some now
      source := some "tickertape_realtime_nse" }

/-- The loop over `quotes.items()`. -/
def recordQuotes (now : ℚ) (quotes : Dict String QuoteRow) (engine : LiveCandleEngine) :
    LiveCandleEngine :=
  quotes.foldl (fun engine q =>
    match recordCall now q.1 q.2 with
    | some c => engine.record live c
    | none => engine) engine

/-- The rest of the turn after the request, up to the next suspension. -/
def fetched (i : ℕ) (wl : List String) (quotes : Option (Dict String QuoteRow)) (now : ℚ) :
    WatchlistRecorder :=
  match quotes with
  | none => s.setPhase i (.pausing (now + cfg.interval))
  | some quotes =>
    let s := { s with
      engine := recordQuotes live now quotes s.engine
      ticks := s.ticks + 1
      lastTick := now }
    if cfg.storeFlushInterval ≤ now - s.lastFlush then
      { s.setPhase i (.flushing wl) with lastFlush := now, rounds := now :: s.rounds }
    else s.setPhase i (.pausing (now + cfg.interval))

/-- The next flush, or the end of the turn. -/
def flushed (i : ℕ) (rest : List String) (raises : Bool) (t : ℚ) : WatchlistRecorder :=
  if raises || rest = [] then s.setPhase i (.pausing (t + cfg.interval))
  else s.setPhase i (.flushing rest)

/-- One step, on a clock that does not run backwards. A loop that is cancelled does nothing but end. -/
def step (s : WatchlistRecorder) : WatchlistAction → Option WatchlistRecorder
  | .start => some s.start
  | .stop => some s.stop
  | .setWatchlist symbols => some (s.setWatchlist symbols)
  | .turn i marketOpen t =>
    match s.loops i with
    | some ⟨phase, false⟩ =>
      if phase.ready t ∧ s.clock ≤ t then
        some (turn { s with clock := t } i marketOpen t)
      else none
    | _ => none
  | .fetched i quotes now =>
    match s.loops i with
    | some ⟨.fetching wl, false⟩ =>
      if s.clock ≤ now then some (fetched cfg live { s with clock := now } i wl quotes now) else none
    | _ => none
  | .flushed i raises t =>
    match s.loops i with
    | some ⟨.flushing (_ :: rest), false⟩ =>
      if s.clock ≤ t then some (flushed cfg { s with clock := t } i rest raises t) else none
    | _ => none
  | .cancelled i =>
    match s.loops i with
    | some ⟨_, true⟩ => some (s.finish i)
    | _ => none

/-! ## 3. Which loops are there -/

/-- A loop that is not cancelled takes a step. -/
structure LoopStep (s s' : WatchlistRecorder) (i : ℕ) (phase : LoopPhase) : Prop where
  before : s.loops i = some ⟨phase, false⟩
  running : s'.running = s.running
  task : s'.task = s.task
  fresh : s'.fresh = s.fresh
  after : (∃ phase', s'.loops = Function.update s.loops i (some ⟨phase', false⟩)) ∨
    (s.running = false ∧ s'.loops = Function.update s.loops i none)

/-- The loops that are there: one that is not cancelled, as long as the recorder runs. -/
structure OneLoop (s : WatchlistRecorder) : Prop where
  known : ∀ i l, s.loops i = some l → i < s.fresh
  named : ∀ i l, s.loops i = some l → l.cancelled = false → s.task = some i
  alive : ∀ i, s.task = some i → ∃ phase, s.loops i = some ⟨phase, false⟩
  runs : s.running = s.task.isSome

section Loops

variable {cfg : WatchlistSettings} {live : LiveSettings} {s s' : WatchlistRecorder} {i : ℕ}
  {phase : LoopPhase} {t : ℚ}

theorem turn_step {marketOpen : Bool} (h : s.loops i = some ⟨phase, false⟩) :
    LoopStep s (turn { s with clock := t } i marketOpen t) i phase := by
  unfold turn
  split
  · rename_i hstopped
    exact ⟨h, rfl, rfl, rfl, .inr ⟨by simpa using hstopped, rfl⟩⟩
  · split
    · exact ⟨h, rfl, rfl, rfl, .inl ⟨_, rfl⟩⟩
    · split <;> exact ⟨h, rfl, rfl, rfl, .inl ⟨_, rfl⟩⟩

theorem fetched_step {wl : List String} {quotes : Option (Dict String QuoteRow)}
    (h : s.loops i = some ⟨phase, false⟩) :
    LoopStep s (fetched cfg live { s with clock := t } i wl quotes t) i phase := by
  unfold fetched
  split
  · exact ⟨h, rfl, rfl, rfl, .inl ⟨_, rfl⟩⟩
  · dsimp only
    split <;> exact ⟨h, rfl, rfl, rfl, .inl ⟨_, rfl⟩⟩

theorem flushed_step {rest : List String} {raises : Bool} (h : s.loops i = some ⟨phase, false⟩) :
    LoopStep s (flushed cfg { s with clock := t } i rest raises t) i phase := by
  unfold flushed
  split <;> exact ⟨h, rfl, rfl, rfl, .inl ⟨_, rfl⟩⟩

/-- What a step can do to the loops. -/
theorem step_loops {a : WatchlistAction} (h : step cfg live s a = some s') :
    (a = .start ∧ s' = s.start) ∨ (a = .stop ∧ s' = s.stop) ∨
      (∃ symbols, a = .setWatchlist symbols ∧ s' = s.setWatchlist symbols) ∨
      (∃ i phase, LoopStep s s' i phase) ∨
      ∃ i phase, a = .cancelled i ∧ s.loops i = some ⟨phase, true⟩ ∧ s' = s.finish i := by
  cases a with
  | start => exact .inl ⟨rfl, (Option.some.inj h).symm⟩
  | stop => exact .inr (.inl ⟨rfl, (Option.some.inj h).symm⟩)
  | setWatchlist symbols => exact .inr (.inr (.inl ⟨symbols, rfl, (Option.some.inj h).symm⟩))
  | turn i marketOpen t =>
    simp only [step] at h
    split at h
    · rename_i phase hi
      split at h
      · cases h
        exact .inr (.inr (.inr (.inl ⟨i, phase, turn_step hi⟩)))
      · cases h
    · cases h
  | fetched i quotes now =>
    simp only [step] at h
    split at h
    · rename_i wl hi
      split at h
      · cases h
        exact .inr (.inr (.inr (.inl ⟨i, _, fetched_step hi⟩)))
      · cases h
    · cases h
  | flushed i raises t =>
    simp only [step] at h
    split at h
    · rename_i sym rest hi
      split at h
      · cases h
        exact .inr (.inr (.inr (.inl ⟨i, _, flushed_step hi⟩)))
      · cases h
    · cases h
  | cancelled i =>
    simp only [step] at h
    split at h
    · rename_i phase hi
      cases h
      exact .inr (.inr (.inr (.inr ⟨i, phase, rfl, hi, rfl⟩)))
    · cases h

/-- **A loop's own step keeps the loops.** -/
theorem OneLoop.loopStep (h : OneLoop s) (hs : LoopStep s s' i phase) : OneLoop s' := by
  have htask : s.task = some i := h.named i _ hs.before rfl
  have hrunning : s.running = true := by rw [h.runs, htask]; rfl
  obtain ⟨phase', hloops⟩ : ∃ phase', s'.loops = Function.update s.loops i (some ⟨phase', false⟩) := by
    rcases hs.after with hafter | ⟨hstopped, -⟩
    · exact hafter
    · rw [hrunning] at hstopped
      cases hstopped
  have hcases : ∀ j l, s'.loops j = some l → (j = i ∧ l = ⟨phase', false⟩) ∨ s.loops j = some l := by
    intro j l hj
    rw [hloops] at hj
    by_cases e : j = i
    · subst e
      rw [Function.update_self] at hj
      exact .inl ⟨rfl, (Option.some.inj hj).symm⟩
    · rw [Function.update_of_ne e] at hj
      exact .inr hj
  refine ⟨fun j l hj => ?_, fun j l hj hl => ?_, fun j hj => ?_, by rw [hs.running, hs.task, h.runs]⟩
  · rw [hs.fresh]
    rcases hcases j l hj with ⟨rfl, -⟩ | hj
    · exact h.known j _ hs.before
    · exact h.known j l hj
  · rw [hs.task]
    rcases hcases j l hj with ⟨rfl, -⟩ | hj
    · exact htask
    · exact h.named j l hj hl
  · rw [hs.task, htask] at hj
    cases hj
    exact ⟨phase', by rw [hloops, Function.update_self]⟩

theorem OneLoop.start (h : OneLoop s) : OneLoop s.start := by
  unfold WatchlistRecorder.start
  split
  · exact h
  · rename_i hnot
    have hstopped : s.running = false := by
      cases hr : s.running with
      | true => simp [hr] at hnot
      | false => rfl
    have hnone : s.task = none := by
      have hruns := h.runs
      rw [hstopped] at hruns
      exact Option.isNone_iff_eq_none.mp (by simpa using hruns.symm)
    refine ⟨fun j l hj => ?_, fun j l hj hl => ?_, fun j hj => ?_, rfl⟩
    · show j < s.fresh + 1
      by_cases e : j = s.fresh
      · omega
      · have hold : s.loops j = some l := (Function.update_of_ne e ..).symm.trans hj
        have := h.known j l hold
        omega
    · by_cases e : j = s.fresh
      · rw [e]
      · have hold : s.loops j = some l := (Function.update_of_ne e ..).symm.trans hj
        have hnamed := h.named j l hold hl
        rw [hnone] at hnamed
        cases hnamed
    · cases hj
      exact ⟨.scheduled, Function.update_self ..⟩

theorem OneLoop.stop (h : OneLoop s) : OneLoop s.stop := by
  unfold WatchlistRecorder.stop
  split
  · rename_i i htask
    obtain ⟨phase, hi⟩ := h.alive i htask
    refine ⟨fun j l hj => ?_, fun j l hj hl => ?_, nofun, rfl⟩
    · by_cases e : j = i
      · exact e ▸ h.known i _ hi
      · exact h.known j l ((Function.update_of_ne e ..).symm.trans hj)
    · by_cases e : j = i
      · subst e
        have hself := (Function.update_self ..).symm.trans hj
        rw [hi] at hself
        cases hself
        cases hl
      · have hnamed := h.named j l ((Function.update_of_ne e ..).symm.trans hj) hl
        rw [htask] at hnamed
        exact absurd (Option.some.inj hnamed).symm e
  · rename_i htask
    refine ⟨h.known, h.named, h.alive, ?_⟩
    show false = s.task.isSome
    rw [htask]
    rfl

/-- A cancelled loop ends. -/
theorem OneLoop.finish (h : OneLoop s) (hi : s.loops i = some ⟨phase, true⟩) :
    OneLoop (s.finish i) := by
  have hold : ∀ j l, (s.finish i).loops j = some l → s.loops j = some l := by
    intro j l hj
    by_cases e : j = i
    · subst e
      cases (Function.update_self ..).symm.trans hj
    · exact (Function.update_of_ne e ..).symm.trans hj
  refine ⟨fun j l hj => h.known j l (hold j l hj), fun j l hj => h.named j l (hold j l hj),
    fun j hj => ?_, h.runs⟩
  obtain ⟨phase', hj'⟩ := h.alive j hj
  have hne : j ≠ i := fun e => by
    subst e
    rw [hi] at hj'
    cases hj'
  exact ⟨phase', (Function.update_of_ne hne ..).trans hj'⟩

/-- **One step.** -/
theorem step_oneLoop {a : WatchlistAction} (h : OneLoop s) (hs : step cfg live s a = some s') :
    OneLoop s' := by
  obtain ⟨-, rfl⟩ | ⟨-, rfl⟩ | ⟨symbols, -, rfl⟩ | ⟨i, phase, hstep⟩ | ⟨i, phase, -, hi, rfl⟩ := step_loops hs
  · exact h.start
  · exact h.stop
  · exact ⟨h.known, h.named, h.alive, h.runs⟩
  · exact h.loopStep hstep
  · exact h.finish hi

end Loops

/-! ## 4. When they ask and flush -/

/-- When a loop that is suspended may ask again, after what it has asked so far. -/
def Rested (cfg : WatchlistSettings) (clock : ℚ) (fetches : List BatchFetch) (i : ℕ) :
    LoopPhase → Prop
  | .scheduled => ∀ f ∈ fetches, f.loop ≠ i
  | .idling _ => ∀ f ∈ fetches, f.loop = i → f.time + cfg.interval ≤ clock
  | .pausing wakesAt => ∀ f ∈ fetches, f.loop = i → f.time + cfg.interval ≤ wakesAt
  | .fetching _ | .flushing _ => True

/-- Two requests of one loop lie an interval apart, two flush rounds, of whatever loops, half a
    minute. -/
structure Paced (cfg : WatchlistSettings) (s : WatchlistRecorder) : Prop where
  asked : ∀ f ∈ s.fetches, f.loop < s.fresh ∧ f.time ≤ s.clock
  rested : ∀ i l, s.loops i = some l → Rested cfg s.clock s.fetches i l.phase
  spaced : s.fetches.Pairwise fun newer older =>
    newer.loop = older.loop → older.time + cfg.interval ≤ newer.time
  noted : ∀ r ∈ s.rounds, r ≤ s.lastFlush ∧ r ≤ s.clock
  rounds : s.rounds.Pairwise fun newer older => older + cfg.storeFlushInterval ≤ newer

section Pace

variable {cfg : WatchlistSettings} {live : LiveSettings} {s s' : WatchlistRecorder} {i : ℕ}
  {phase : LoopPhase} {t : ℚ}

theorem Rested.later {clock : ℚ} {fetches : List BatchFetch} (h : Rested cfg clock fetches i phase)
    (hle : clock ≤ t) : Rested cfg t fetches i phase := by
  cases phase with
  | scheduled => exact h
  | idling wakesAt => exact fun f hf e => (h f hf e).trans hle
  | fetching wl => trivial
  | flushing wl => trivial
  | pausing wakesAt => exact h

/-- A loop whose sleep is over may ask. -/
theorem Rested.ready {clock : ℚ} {fetches : List BatchFetch} (h : Rested cfg clock fetches i phase)
    (hle : clock ≤ t) (hready : phase.ready t = true) :
    ∀ f ∈ fetches, f.loop = i → f.time + cfg.interval ≤ t := by
  intro f hf e
  cases phase with
  | scheduled => exact absurd e (h f hf)
  | idling wakesAt => exact (h f hf e).trans hle
  | fetching wl => cases hready
  | flushing wl => cases hready
  | pausing wakesAt => exact (h f hf e).trans (of_decide_eq_true hready)

/-- What other loops have asked does not count. -/
theorem Rested.cons {clock : ℚ} {fetches : List BatchFetch} {f : BatchFetch}
    (h : Rested cfg clock fetches i phase) (hne : f.loop ≠ i) :
    Rested cfg clock (f :: fetches) i phase := by
  cases phase with
  | scheduled =>
    intro g hg
    rcases List.mem_cons.mp hg with rfl | hg
    · exact hne
    · exact h g hg
  | idling wakesAt =>
    intro g hg e
    rcases List.mem_cons.mp hg with rfl | hg
    · exact absurd e hne
    · exact h g hg e
  | fetching wl => trivial
  | flushing wl => trivial
  | pausing wakesAt =>
    intro g hg e
    rcases List.mem_cons.mp hg with rfl | hg
    · exact absurd e hne
    · exact h g hg e

/-- A loop is suspended somewhere else. -/
theorem Paced.move (h : Paced cfg s) (hclock : s.clock ≤ t)
    (hrest : Rested cfg t s.fetches i phase) : Paced cfg (setPhase { s with clock := t } i phase) := by
  refine ⟨fun f hf => ⟨(h.asked f hf).1, (h.asked f hf).2.trans hclock⟩, fun j l hj => ?_, h.spaced,
    fun r hr => ⟨(h.noted r hr).1, (h.noted r hr).2.trans hclock⟩, h.rounds⟩
  by_cases e : j = i
  · subst e
    cases (Function.update_self ..).symm.trans hj
    exact hrest
  · exact (h.rested j l ((Function.update_of_ne e ..).symm.trans hj)).later hclock

/-- A loop ends. -/
theorem Paced.finish (h : Paced cfg s) (hclock : s.clock ≤ t) :
    Paced cfg (finish { s with clock := t } i) := by
  refine ⟨fun f hf => ⟨(h.asked f hf).1, (h.asked f hf).2.trans hclock⟩, fun j l hj => ?_, h.spaced,
    fun r hr => ⟨(h.noted r hr).1, (h.noted r hr).2.trans hclock⟩, h.rounds⟩
  by_cases e : j = i
  · subst e
    cases (Function.update_self ..).symm.trans hj
  · exact (h.rested j l ((Function.update_of_ne e ..).symm.trans hj)).later hclock

/-- Asked at `t`, a loop has asked not before that. -/
theorem Paced.pause (h : Paced cfg s) (hclock : s.clock ≤ t) :
    Rested cfg t s.fetches i (.pausing (t + cfg.interval)) := by
  intro f hf _
  have := (h.asked f hf).2
  linarith

/-- **A loop comes to its head.** -/
theorem Paced.turn {marketOpen : Bool} (h : Paced cfg s) (hone : OneLoop s)
    (hi : s.loops i = some ⟨phase, false⟩) (hclock : s.clock ≤ t) (hready : phase.ready t = true) :
    Paced cfg (WatchlistRecorder.turn { s with clock := t } i marketOpen t) := by
  have hrested := (h.rested i _ hi).ready hclock hready
  unfold WatchlistRecorder.turn
  split
  · exact h.finish hclock
  · split
    · exact h.move hclock hrested
    · split
      · exact h.move hclock hrested
      · have hmove : Paced cfg (setPhase { s with clock := t } i (.fetching s.watchlist)) :=
          h.move hclock trivial
        refine ⟨fun f hf => ?_, fun j l hj => ?_, List.pairwise_cons.mpr ⟨?_, h.spaced⟩,
          hmove.noted, h.rounds⟩
        · rcases List.mem_cons.mp hf with rfl | hf
          · exact ⟨hone.known i _ hi, le_refl t⟩
          · exact hmove.asked f hf
        · by_cases e : j = i
          · subst e
            cases (Function.update_self ..).symm.trans hj
            trivial
          · exact (hmove.rested j l hj).cons fun e' => e e'.symm
        · exact fun f hf e => hrested f hf e.symm

/-- **The request is answered.** -/
theorem Paced.fetched {wl : List String} {quotes : Option (Dict String QuoteRow)} (h : Paced cfg s)
    (hclock : s.clock ≤ t) :
    Paced cfg (WatchlistRecorder.fetched cfg live { s with clock := t } i wl quotes t) := by
  unfold WatchlistRecorder.fetched
  split
  · exact h.move hclock (h.pause hclock)
  · dsimp only
    split
    · rename_i hdue
      have hmove : Paced cfg (setPhase { s with clock := t } i (.flushing wl)) := h.move hclock trivial
      have hlate : ∀ r ∈ s.rounds, r + cfg.storeFlushInterval ≤ t := fun r hr => by
        have := (h.noted r hr).1
        linarith
      refine ⟨hmove.asked, hmove.rested, hmove.spaced, fun r hr => ?_,
        List.pairwise_cons.mpr ⟨hlate, h.rounds⟩⟩
      rcases List.mem_cons.mp hr with rfl | hr
      · exact ⟨le_refl _, le_refl _⟩
      · exact ⟨((h.noted r hr).2.trans hclock), ((h.noted r hr).2.trans hclock)⟩
    · have hmove := h.move (i := i) hclock (h.pause hclock)
      exact ⟨hmove.asked, hmove.rested, hmove.spaced, hmove.noted, hmove.rounds⟩

/-- **A flush returns.** -/
theorem Paced.flushed {rest : List String} {raises : Bool} (h : Paced cfg s) (hclock : s.clock ≤ t) :
    Paced cfg (WatchlistRecorder.flushed cfg { s with clock := t } i rest raises t) := by
  unfold WatchlistRecorder.flushed
  split
  · exact h.move hclock (h.pause hclock)
  · exact h.move hclock trivial

/-- A new loop has asked nothing. -/
theorem Paced.start (h : Paced cfg s) : Paced cfg s.start := by
  unfold WatchlistRecorder.start
  split
  · exact h
  · refine ⟨fun f hf => ⟨(h.asked f hf).1.trans (Nat.lt_succ_self _), (h.asked f hf).2⟩,
      fun j l hj => ?_, h.spaced, h.noted, h.rounds⟩
    by_cases e : j = s.fresh
    · subst e
      cases (Function.update_self ..).symm.trans hj
      exact fun f hf => (h.asked f hf).1.ne
    · exact h.rested j l ((Function.update_of_ne e ..).symm.trans hj)

theorem Paced.stop (h : Paced cfg s) : Paced cfg s.stop := by
  unfold WatchlistRecorder.stop
  split
  · rename_i i htask
    refine ⟨h.asked, fun j l hj => ?_, h.spaced, h.noted, h.rounds⟩
    by_cases e : j = i
    · subst e
      have hself : Function.update s.loops j
        ((s.loops j).map fun l => { l with cancelled := true }) j = some l := hj
      rw [Function.update_self] at hself
      obtain ⟨l', hl', rfl⟩ := Option.map_eq_some_iff.mp hself
      exact h.rested j l' hl'
    · exact h.rested j l ((Function.update_of_ne e ..).symm.trans hj)
  · exact ⟨h.asked, h.rested, h.spaced, h.noted, h.rounds⟩

/-- **One step.** -/
theorem step_paced {a : WatchlistAction} (h : Paced cfg s) (hone : OneLoop s)
    (hs : step cfg live s a = some s') : Paced cfg s' := by
  cases a with
  | start =>
    cases hs
    exact h.start
  | stop =>
    cases hs
    exact h.stop
  | setWatchlist symbols =>
    cases hs
    exact ⟨h.asked, h.rested, h.spaced, h.noted, h.rounds⟩
  | turn i marketOpen t =>
    simp only [step] at hs
    split at hs
    · rename_i phase hi
      split at hs
      · rename_i hwhen
        cases hs
        exact h.turn hone hi hwhen.2 hwhen.1
      · cases hs
    · cases hs
  | fetched i quotes now =>
    simp only [step] at hs
    split at hs
    · split at hs
      · rename_i hclock
        cases hs
        exact h.fetched hclock
      · cases hs
    · cases hs
  | flushed i raises t =>
    simp only [step] at hs
    split at hs
    · split at hs
      · rename_i hclock
        cases hs
        exact h.flushed hclock
      · cases hs
    · cases hs
  | cancelled i =>
    simp only [step] at hs
    split at hs
    · cases hs
      exact h.finish (le_refl s.clock)
    · cases hs

end Pace

/-! ## 5. Every run -/

/-- What a recorder has done to the rest of the program. -/
def done (s : WatchlistRecorder) : LiveCandleEngine × List BatchFetch × List ℚ × ℕ :=
  (s.engine, s.fetches, s.rounds, s.ticks)

section Runs

variable {cfg : WatchlistSettings} {live : LiveSettings} {s s' : WatchlistRecorder}

/-- No loop of a recorder that is stopped goes on. -/
theorem OneLoop.stopped (h : OneLoop s) (hstop : s.running = false) {i : ℕ} {phase : LoopPhase} :
    s.loops i ≠ some ⟨phase, false⟩ := by
  intro hi
  have hruns := h.runs
  rw [hstop, h.named i _ hi rfl] at hruns
  cases hruns

/-- **A recorder that is stopped does nothing** until it is started again. -/
theorem step_stopped {a : WatchlistAction} (h : OneLoop s) (hstop : s.running = false)
    (ha : a ≠ .start) (hs : step cfg live s a = some s') : s'.running = false ∧ s'.done = s.done := by
  obtain ⟨rfl, -⟩ | ⟨-, rfl⟩ | ⟨symbols, -, rfl⟩ | ⟨i, phase, hstep⟩ | ⟨i, phase, -, -, rfl⟩ := step_loops hs
  · exact absurd rfl ha
  · unfold WatchlistRecorder.stop
    split <;> exact ⟨rfl, rfl⟩
  · exact ⟨hstop, rfl⟩
  · exact absurd hstep.before (h.stopped hstop)
  · exact ⟨hstop, rfl⟩

/-- `WatchlistRecorder()`. -/
def init (raw : String) (now : ℚ) : WatchlistRecorder where
  watchlist := envWatchlist raw
  clock := now

theorem oneLoop_init (raw : String) (now : ℚ) : OneLoop (init raw now) where
  known _ _ h := by cases h
  named _ _ h := by cases h
  alive _ h := by cases h
  runs := rfl

theorem paced_init (raw : String) (now : ℚ) : Paced cfg (init raw now) where
  asked _ h := by cases h
  rested _ _ h := by cases h
  spaced := .nil
  noted _ h := by cases h
  rounds := .nil

/-- **The watchlist recorder**: in every run, however often it is started, stopped and given another
    list, and however late a cancelled loop gets to know of it, one loop goes on while the recorder runs
    and none while it does not; two requests of a loop lie an interval apart, and any two flush rounds the
    flush interval; and from a stop to the next start nothing is asked, recorded or flushed. -/
theorem watchlist_recorder_runs {raw : String} {now : ℚ} {acts : List WatchlistAction}
    (hr : run (step cfg live) (init raw now) acts = some s) :
    (∀ i j phase phase', s.loops i = some ⟨phase, false⟩ → s.loops j = some ⟨phase', false⟩ → i = j) ∧
      (s.running = true ↔ ∃ i phase, s.loops i = some ⟨phase, false⟩) ∧
      (s.fetches.Pairwise fun newer older =>
        newer.loop = older.loop → older.time + cfg.interval ≤ newer.time) ∧
      (s.rounds.Pairwise fun newer older => older + cfg.storeFlushInterval ≤ newer) ∧
      (s.running = false → ∀ rest s', (∀ a ∈ rest, a ≠ .start) →
        run (step cfg live) s rest = some s' → s'.running = false ∧ s'.done = s.done) := by
  obtain ⟨hone, hpaced⟩ : OneLoop s ∧ Paced cfg s :=
    run_invariant (fun _ _ _ (hI : OneLoop _ ∧ Paced cfg _) hs =>
      ⟨step_oneLoop hI.1 hs, step_paced hI.2 hI.1 hs⟩) ⟨oneLoop_init raw now, paced_init raw now⟩ hr
  refine ⟨fun i j phase phase' hi hj => ?_, ?_, hpaced.spaced, hpaced.rounds,
    fun hstop rest s' hrest hrun => ?_⟩
  · exact Option.some.inj ((hone.named i _ hi rfl).symm.trans (hone.named j _ hj rfl))
  · rw [hone.runs, Option.isSome_iff_exists]
    refine ⟨fun hex => ?_, fun hex => ?_⟩
    · obtain ⟨i, hi⟩ := hex
      exact ⟨i, hone.alive i hi⟩
    · obtain ⟨i, phase, hi⟩ := hex
      exact ⟨i, hone.named i _ hi rfl⟩
  · have hkeep : OneLoop s' ∧ s'.running = false ∧ s'.done = s.done :=
      run_invariant_meet
        (fun s₁ a s₂ (hI : OneLoop s₁ ∧ s₁.running = false ∧ s₁.done = s.done) ha hs => by
          obtain ⟨hstopped, hdone⟩ := step_stopped hI.1 hI.2.1 ha hs
          exact ⟨step_oneLoop hI.1 hs, hstopped, hdone.trans hI.2.2⟩)
        ⟨hone, hstop, rfl⟩ (stepsMeet_of_forall hrest s) hrun
    exact hkeep.2

/-- Started, stopped while it asks, and started again before the first loop has ended. -/
def restarted : List WatchlistAction :=
  [.start, .turn 0 true 100, .stop, .start, .turn 1 true 101, .cancelled 0,
    .fetched 1 (some [("TCS", { sid := none, price := some 3000 })]) 102, .flushed 1 false 103, .stop]

theorem watchlist_recorder_runs_restarted :
    ∃ s, run (step (.ofEnv 1) {}) (init "TCS" 0) restarted = some s ∧ s.ticks = 1 ∧ s.rounds = [102] ∧
      ∀ rest s', (∀ a ∈ rest, a ≠ .start) →
        run (step (.ofEnv 1) {}) s rest = some s' → s'.running = false ∧ s'.done = s.done := by
  have hrun := @watchlist_recorder_runs (.ofEnv 1) {} _ "TCS" 0 restarted rfl
  exact ⟨_, rfl, by decide +kernel, by decide +kernel, hrun.2.2.2.2 (by decide +kernel)⟩

end Runs

end WatchlistRecorder

end BharatTicker
