/-
  File:      BharatTicker/LiveCandles/Stream.lean
  Subject:   THE LIVE TICK STREAM: `sb_stream` (`api/endpoints/superbrain.py`) over `latest_tick` and
             `record` (`engine/live_candles.py`).

  The loop of a stream looks at the newest sample of its key every 0.2 s; between two looks anybody
  records, any number of times, on any key. A sleep does not end early, and the clock does not run
  backwards. Ghosts: `appended` has the samples that were appended to the ring of the key since the
  client connected, and they are numbered from 1 on; number 0 is `before`, the newest one at that time.
  `due` is how many of them there were when the loop last looked, or ended; `sent` has the numbers of
  the data frames.

  * `latestTick`, `SseCall`, `SseStream`, `sbStream`, `step` -- the stream;
  * `NoLoss` -- every sample that is due has been sent, once and in order;
  * `KeepsUp` -- the condition on a step;
  * `StreamInv`, `step_streamInv` -- the invariant; `run_ticks` -- a data frame is the sample of its
    number;
  * `stream_loses_no_tick` -- all interleavings.
-/
import BharatTicker.Basis.Run
import BharatTicker.LiveCandles
import BharatTicker.MarketData
import BharatTicker.SbIntraday

namespace BharatTicker

open Basis

-- the concrete runs below compute with rationals
unseal Rat.add Rat.mul Rat.sub Rat.inv

/-! ## 1. The stream -/

/-- `latest_tick`; the timestamp is the instant that its text denotes. -/
structure LatestTick where
  timestamp : ℚ
  epoch : ℚ
  price : ℚ
  cumVolume : ℤ
  source : Option String
  deriving DecidableEq, Repr

def Sample.tick (x : Sample) : LatestTick where
  timestamp := isoInstant true x.ts
  epoch := x.ts
  price := roundTo 2 x.price
  cumVolume := truncInt x.cum
  source := x.source

/-- `latest_tick`. -/
def LiveCandleEngine.latestTick (eng : LiveCandleEngine) (key : String) : Option LatestTick :=
  (eng.samples key).getLast?.map Sample.tick

/-- The parameters of `sb_stream`, as their patterns and bounds admit them. -/
structure SseCall where
  symbol : String
  exchange : String := "NSE"
  maxSeconds : ℤ := 300
  exchange_venue : exchange = "NSE" ∨ exchange = "BSE" := by decide
  maxSeconds_range : 5 ≤ maxSeconds ∧ maxSeconds ≤ 3600 := by decide

inductive SseFrame where
  | opened (symbol exchange : String) (marketOpen : Bool) (samplerSeconds : ℚ)
  | data (tick : LatestTick)
  | keepAlive
  | closed
  deriving DecidableEq, Repr

/-- The engine and the stream, with its frames so far. -/
structure SseStream where
  engine : LiveCandleEngine
  key : String
  maxSeconds : ℤ
  clock : ℚ
  start : ℚ
  wakesAt : ℚ
  lastEpoch : Option ℚ := none
  running : Bool := true
  frames : List SseFrame
  before : Option Sample
  appended : List Sample := []
  due : ℕ := 0
  sent : List ℕ := []

inductive SseAction where
  /-- Somebody calls `record`. -/
  | record (c : RecordCall)
  /-- The loop reads the clock and looks, or ends. -/
  | look (t : ℚ)
  /-- The client disconnects. -/
  | leave
  deriving DecidableEq, Repr

/-- `poll`. -/
def ssePoll : ℚ := 2 / 10

/-- `sb_stream` up to its loop, `gen` being started at `now`. -/
def sbStream (isTradingHoliday : ℤ → Bool) (samplerSeconds : ℚ) (call : SseCall)
    (engine : LiveCandleEngine) (now : ℚ) : Except HttpException SseStream :=
  match rejectIndex call.symbol with
  | some e => .error e
  | none =>
    let symbol := canonicalSymbol call.symbol
    let key := engineKey symbol call.exchange
    .ok {
      engine := engine
      key := key
      maxSeconds := call.maxSeconds
      clock := now
      start := now
      wakesAt := now
      frames := [.opened symbol call.exchange (isMarketOpen isTradingHoliday now) samplerSeconds]
      before := (engine.samples key).getLast? }

namespace SseStream

variable (s : SseStream)

def ring : List Sample := s.engine.samples s.key

/-- `record`, with the sample it appends where it is on the key of the stream. -/
def record (cfg : LiveSettings) (c : RecordCall) : SseStream :=
  { s with
    engine := s.engine.record cfg c
    clock := c.now
    appended := if c.key = s.key then s.appended ++ (s.engine.taken cfg c).toList else s.appended }

/-- The newest sample, if its epoch is not the last one. -/
def fresh : Option LatestTick :=
  (s.engine.latestTick s.key).filter fun tick => s.lastEpoch ≠ some tick.epoch

/-- One turn of the loop. -/
def look (t : ℚ) : SseStream :=
  let s := { s with clock := t, wakesAt := t + ssePoll, due := s.appended.length }
  match s.fresh with
  | some tick =>
    { s with
      lastEpoch := some tick.epoch
      frames := s.frames ++ [.data tick]
      sent := s.sent ++ [s.appended.length] }
  | none => { s with frames := s.frames ++ [.keepAlive] }

/-- The loop has ended. -/
def close (t : ℚ) : SseStream :=
  { s with
    clock := t
    running := false
    frames := s.frames ++ [.closed]
    due := s.appended.length }

def leave : SseStream := { s with running := false, due := s.appended.length }

/-- One step. -/
def step (cfg : LiveSettings) (s : SseStream) : SseAction → Option SseStream
  | .record c => if s.clock ≤ c.now then some (s.record cfg c) else none
  | .look t =>
    if s.running = true ∧ s.clock ≤ t ∧ s.wakesAt ≤ t then
      some (if t - s.start < s.maxSeconds then s.look t else s.close t)
    else none
  | .leave => if s.running = true then some s.leave else none

end SseStream

/-! ## 2. What the stream promises -/

/-- The samples that are due were sent, each once and in their order. -/
def NoLoss (s : SseStream) : Prop := s.sent.filter (0 < ·) = List.range' 1 s.due

/-- How many samples the loop has not looked at. -/
def SseStream.unread (s : SseStream) : ℕ := s.appended.length - s.due

/-- The loop looks before a second sample is appended, finds the timestamp changed, and ends with
    nothing left. -/
def KeepsUp (s : SseStream) : SseAction → Prop
  | .record _ => True
  | .look t =>
    s.unread = 0 ∨
      t - s.start < s.maxSeconds ∧ s.unread = 1 ∧
        ∃ x, s.ring.getLast? = some x ∧ s.lastEpoch ≠ some x.ts
  | .leave => s.unread = 0

/-- The sample of a number. -/
def SseStream.numbered (s : SseStream) : ℕ → Option Sample
  | 0 => s.before
  | n + 1 => s.appended[n]?

/-- The invariant. -/
structure StreamInv (s : SseStream) : Prop where
  due_le : s.due ≤ s.appended.length
  /-- Where nothing is unread, the newest sample was sent, or suppressed. -/
  seen : s.running = true → 0 < s.due → s.due = s.appended.length →
    ∀ x, s.ring.getLast? = some x → s.lastEpoch = some x.ts
  /-- The newest sample has the newest number. -/
  newest : ∀ x, s.ring.getLast? = some x → s.numbered s.appended.length = some x

section Steps

variable {cfg : LiveSettings} {s s' : SseStream} {a : SseAction} {c : RecordCall} {x : Sample} {t : ℚ}

/-! ### What one step does -/

theorem ringAppend_newest {n : ℕ} {ring : List Sample} {y : Sample}
    (h : (ringAppend n ring x).getLast? = some y) : y = x := by
  rw [ringAppend, List.rtake, List.getLast?_drop] at h
  split at h
  · cases h
  · rw [List.getLast?_concat] at h
    exact (Option.some.inj h).symm

/-- A call appends a sample to the ring of the stream, or leaves it as it is. -/
theorem stream_record (cfg : LiveSettings) (s : SseStream) (c : RecordCall) :
    (s.record cfg c).ring = s.ring ∧ (s.record cfg c).appended = s.appended ∨
    ∃ x, (s.record cfg c).ring = ringAppend cfg.sampleMaxlen s.ring x ∧
      (s.record cfg c).appended = s.appended ++ [x] := by
  by_cases hk : c.key = s.key
  · cases ht : s.engine.taken cfg c with
    | none =>
      refine .inl ⟨?_, by simp [SseStream.record, ht]⟩
      exact congrFun (congrArg _ (LiveCandleEngine.record_ignored ht)) s.key
    | some x =>
      refine .inr ⟨x, ?_, by simp [SseStream.record, hk, ht]⟩
      have h := LiveCandleEngine.record_taken ht
      rw [hk] at h
      exact h
  · refine .inl ⟨?_, by simp [SseStream.record, hk]⟩
    exact (LiveCandleEngine.record_other cfg s.engine (Ne.symm hk)).1

/-- The newest sample has another epoch: it is sent. -/
theorem look_fresh (hx : s.ring.getLast? = some x) (hne : s.lastEpoch ≠ some x.ts) :
    s.look t = { s with
      clock := t
      wakesAt := t + ssePoll
      due := s.appended.length
      lastEpoch := some x.ts
      frames := s.frames ++ [.data x.tick]
      sent := s.sent ++ [s.appended.length] } := by
  have ht : s.engine.latestTick s.key = some x.tick := congrArg (Option.map Sample.tick) hx
  have h : ({ s with clock := t, wakesAt := t + ssePoll, due := s.appended.length } :
      SseStream).fresh = some x.tick := by
    show (s.engine.latestTick s.key).filter _ = _
    rw [ht]
    exact Option.filter_some_pos (decide_eq_true hne)
  simp only [SseStream.look, h]
  rfl

/-- There is none, or it has the epoch of the last one sent. -/
theorem look_stale (h : ∀ x, s.ring.getLast? = some x → s.lastEpoch = some x.ts) :
    s.look t = { s with
      clock := t
      wakesAt := t + ssePoll
      due := s.appended.length
      frames := s.frames ++ [.keepAlive] } := by
  have h : ({ s with clock := t, wakesAt := t + ssePoll, due := s.appended.length } :
      SseStream).fresh = none := by
    show ((s.ring.getLast?).map Sample.tick).filter _ = none
    cases hx : s.ring.getLast? with
    | none => rfl
    | some x => exact Option.filter_some_neg (by simp [h x hx, Sample.tick])
  simp only [SseStream.look, h]

/-- The newest sample is sent, or was. -/
theorem fresh_or_stale (s : SseStream) :
    (∃ x, s.ring.getLast? = some x ∧ s.lastEpoch ≠ some x.ts) ∨
      ∀ x, s.ring.getLast? = some x → s.lastEpoch = some x.ts := by
  by_cases h : ∀ x, s.ring.getLast? = some x → s.lastEpoch = some x.ts
  · exact .inr h
  · push Not at h
    exact .inl h

/-- The steps of the system. -/
theorem step_cases (h : s.step cfg a = some s') :
    (∃ c, a = .record c ∧ s' = s.record cfg c) ∨
    (∃ t, a = .look t ∧ s.running = true ∧ t - s.start < s.maxSeconds ∧ s' = s.look t) ∨
    (∃ t, a = .look t ∧ s.running = true ∧ ¬ t - s.start < s.maxSeconds ∧ s' = s.close t) ∨
    (a = .leave ∧ s.running = true ∧ s' = s.leave) := by
  cases a with
  | record c =>
    obtain ⟨-, rfl⟩ : s.clock ≤ c.now ∧ s.record cfg c = s' := by simpa [SseStream.step] using h
    exact .inl ⟨c, rfl, rfl⟩
  | look t =>
    obtain ⟨⟨hrun, -, -⟩, e⟩ : (s.running = true ∧ s.clock ≤ t ∧ s.wakesAt ≤ t) ∧
        (if t - s.start < s.maxSeconds then s.look t else s.close t) = s' := by
      simpa [SseStream.step] using h
    by_cases ht : t - s.start < s.maxSeconds
    · rw [if_pos ht] at e
      exact .inr (.inl ⟨t, rfl, hrun, ht, e.symm⟩)
    · rw [if_neg ht] at e
      exact .inr (.inr (.inl ⟨t, rfl, hrun, ht, e.symm⟩))
  | leave =>
    obtain ⟨hrun, rfl⟩ : s.running = true ∧ s.leave = s' := by simpa [SseStream.step] using h
    exact .inr (.inr (.inr ⟨rfl, hrun, rfl⟩))

/-! ### The invariant -/

theorem numbered_congr (hb : s'.before = s.before) (ha : s'.appended = s.appended) :
    s'.numbered = s.numbered := by
  funext n
  cases n with
  | zero => exact hb
  | succ n => exact congrArg (·[n]?) ha

theorem numbered_append {n : ℕ} (hn : n ≤ s.appended.length) :
    SseStream.numbered { s with appended := s.appended ++ [x] } n = s.numbered n := by
  cases n with
  | zero => rfl
  | succ n =>
    show (s.appended ++ [x])[n]? = s.appended[n]?
    exact List.getElem?_append_left hn

/-- The ticks of the data frames. -/
def SseStream.ticks (s : SseStream) : List LatestTick :=
  s.frames.filterMap fun
    | .data tick => some tick
    | _ => none

/-- Every data frame shows the sample of its number. -/
structure TicksInv (s : SseStream) : Prop where
  known : ∀ n ∈ s.sent, n ≤ s.appended.length
  shown : s.ticks.map some = s.sent.map fun n => (s.numbered n).map Sample.tick

theorem step_streamInv (h : StreamInv s) (hs : s.step cfg a = some s') : StreamInv s' := by
  rcases step_cases hs with ⟨c, rfl, rfl⟩ | ⟨t, rfl, hrun, -, rfl⟩ | ⟨t, rfl, -, -, rfl⟩ | ⟨rfl, -, rfl⟩
  · rcases stream_record cfg s c with ⟨hr, ha⟩ | ⟨x, hr, ha⟩
    · refine ⟨?_, ?_, ?_⟩
      · rw [ha]
        exact h.due_le
      · rw [hr, ha]
        exact h.seen
      · intro x hx
        rw [hr] at hx
        have hnum : (s.record cfg c).numbered = s.numbered := numbered_congr rfl ha
        rw [ha, hnum]
        exact h.newest x hx
    · have hlen : (s.record cfg c).appended.length = s.appended.length + 1 := by
        rw [ha, List.length_append, List.length_singleton]
      refine ⟨?_, fun _ _ heq => ?_, fun y hy => ?_⟩
      · rw [hlen]
        exact h.due_le.trans (Nat.le_succ _)
      · -- a sample is unread now
        rw [hlen] at heq
        have : s.due ≤ s.appended.length := h.due_le
        exact absurd heq (by show s.due ≠ _; omega)
      · rw [hr] at hy
        rw [hlen, ringAppend_newest hy]
        show (s.record cfg c).appended[s.appended.length]? = some x
        rw [ha, List.getElem?_concat_length]
  · rcases fresh_or_stale s with ⟨x, hx, hne⟩ | hstale
    · rw [look_fresh hx hne]
      refine ⟨le_refl _, fun _ _ _ y hy => ?_, h.newest⟩
      cases hx.symm.trans hy
      rfl
    · rw [look_stale hstale]
      exact ⟨le_refl _, fun _ _ _ => hstale, h.newest⟩
  · exact ⟨le_refl _, fun hrun => (by cases hrun), h.newest⟩
  · exact ⟨le_refl _, fun hrun => (by cases hrun), h.newest⟩

/-- A frame that is no data frame shows nothing. -/
theorem ticksInv_frame (frame : SseFrame) (hframe : ∀ tick, frame ≠ .data tick) (h : TicksInv s)
    (hs : s'.sent = s.sent ∧ s'.appended = s.appended ∧ s'.before = s.before ∧
      s'.frames = s.frames ++ [frame]) : TicksInv s' := by
  obtain ⟨hsent, happ, hbefore, hframes⟩ := hs
  have hnum : s'.numbered = s.numbered := numbered_congr hbefore happ
  have hticks : s'.ticks = s.ticks := by
    unfold SseStream.ticks
    rw [hframes, List.filterMap_append]
    cases frame with
    | data tick => exact absurd rfl (hframe tick)
    | opened => exact List.append_nil _
    | keepAlive => exact List.append_nil _
    | closed => exact List.append_nil _
  refine ⟨by rw [hsent, happ]; exact h.known, ?_⟩
  rw [hticks, hsent, hnum]
  exact h.shown

/-- New samples leave the numbers of the old ones. -/
theorem ticksInv_record (h : TicksInv s) (c : RecordCall) : TicksInv (s.record cfg c) := by
  rcases stream_record cfg s c with ⟨-, ha⟩ | ⟨x, -, ha⟩
  · have hnum : (s.record cfg c).numbered = s.numbered := numbered_congr rfl ha
    refine ⟨by rw [ha]; exact h.known, ?_⟩
    rw [hnum]
    exact h.shown
  · have hnum : (s.record cfg c).numbered =
        SseStream.numbered { s with appended := s.appended ++ [x] } := numbered_congr rfl ha
    refine ⟨fun n hn => ?_, ?_⟩
    · rw [ha, List.length_append]
      exact (h.known n hn).trans (Nat.le_add_right _ _)
    · refine h.shown.trans (List.map_congr_left fun n hn => ?_)
      rw [hnum, numbered_append (h.known n hn)]

theorem ticksInv_look (h : TicksInv s) (hinv : StreamInv s) : TicksInv (s.look t) := by
  rcases fresh_or_stale s with ⟨x, hx, hne⟩ | hstale
  · rw [look_fresh hx hne]
    refine ⟨fun n hn => ?_, ?_⟩
    · rcases List.mem_append.mp hn with hn | hn
      · exact h.known n hn
      · exact (List.mem_singleton.mp hn).le
    · show ((s.frames ++ [SseFrame.data x.tick]).filterMap _).map some = (s.sent ++ [s.appended.length]).map _
      rw [List.filterMap_append, List.map_append, List.map_append]
      refine congrArg₂ _ h.shown ?_
      show [some x.tick] = [(s.numbered s.appended.length).map Sample.tick]
      rw [hinv.newest x hx]
      rfl
  · rw [look_stale hstale]
    exact ticksInv_frame .keepAlive (fun _ h => by cases h) h ⟨rfl, rfl, rfl, rfl⟩

theorem step_ticksInv (h : StreamInv s ∧ TicksInv s) (hs : s.step cfg a = some s') :
    StreamInv s' ∧ TicksInv s' := by
  refine ⟨step_streamInv h.1 hs, ?_⟩
  rcases step_cases hs with ⟨c, rfl, rfl⟩ | ⟨t, rfl, -, -, rfl⟩ | ⟨t, rfl, -, -, rfl⟩ | ⟨rfl, -, rfl⟩
  · exact ticksInv_record h.2 c
  · exact ticksInv_look h.2 h.1
  · exact ticksInv_frame .closed (fun _ h => by cases h) h.2 ⟨rfl, rfl, rfl, rfl⟩
  · exact ⟨h.2.known, h.2.shown⟩

theorem streamInv_start {isTradingHoliday : ℤ → Bool} {samplerSeconds now : ℚ} {call : SseCall}
    {engine : LiveCandleEngine}
    (h : sbStream isTradingHoliday samplerSeconds call engine now = .ok s) :
    StreamInv s ∧ NoLoss s := by
  unfold sbStream at h
  split at h
  · cases h
  · cases h
    exact ⟨⟨le_refl 0, fun _ h0 => absurd h0 (lt_irrefl 0), fun x hx => hx⟩, rfl⟩

/-! ### Loss -/

theorem filter_concat (l : List ℕ) (n : ℕ) :
    (l ++ [n]).filter (0 < ·) = l.filter (0 < ·) ++ if 0 < n then [n] else [] := by
  rw [List.filter_append, List.filter_singleton]
  congr 1
  by_cases h : 0 < n <;> simp [h]

/-- The numbers up to `due`, and one more. -/
theorem range'_concat_iff {due n : ℕ} :
    List.range' 1 due ++ [n] = List.range' 1 n ↔ n = due + 1 := by
  refine ⟨fun h => ?_, fun h => ?_⟩
  · have := congrArg List.length h
    simp at this
    omega
  · rw [h, List.range'_1_concat, Nat.add_comm 1 due]

theorem range'_inj {m n : ℕ} : List.range' 1 m = List.range' 1 n ↔ m = n := by
  refine ⟨fun h => ?_, fun h => by rw [h]⟩
  simpa using congrArg List.length h

/-- **One step loses nothing exactly where the loop keeps up.** -/
theorem step_noLoss (h : StreamInv s) (hok : NoLoss s) (hs : s.step cfg a = some s') :
    NoLoss s' ↔ KeepsUp s a := by
  have hdue := h.due_le
  unfold NoLoss at hok
  rcases step_cases hs with ⟨c, rfl, rfl⟩ | ⟨t, rfl, hrun, ht, rfl⟩ | ⟨t, rfl, -, ht, rfl⟩ | ⟨rfl, -, rfl⟩
  · exact iff_of_true hok trivial
  · rcases fresh_or_stale s with ⟨x, hx, hne⟩ | hstale
    · rw [look_fresh hx hne]
      show (s.sent ++ [s.appended.length]).filter (0 < ·) = List.range' 1 s.appended.length ↔ _
      rw [filter_concat, hok]
      by_cases h0 : 0 < s.appended.length
      · rw [if_pos h0, range'_concat_iff]
        -- were it read already, its epoch would be the last one
        have hunread : s.unread ≠ 0 ∨ s.due = 0 := by
          by_contra hcon
          push Not at hcon
          have heq : s.due = s.appended.length := by
            have : s.appended.length - s.due = 0 := hcon.1
            omega
          exact hne (h.seen hrun (Nat.pos_of_ne_zero hcon.2) heq x hx)
        show _ ↔ s.unread = 0 ∨ t - s.start < s.maxSeconds ∧ s.unread = 1 ∧ _
        have hval : s.unread = s.appended.length - s.due := rfl
        refine ⟨fun e => .inr ⟨ht, by omega, x, hx, hne⟩, fun hk => ?_⟩
        rcases hk with hk | ⟨-, hk, -⟩
        · omega
        · omega
      · have hzero : s.appended.length = 0 := Nat.eq_zero_of_not_pos h0
        have hdue0 : s.due = 0 := by omega
        rw [if_neg h0, List.append_nil, hdue0, hzero]
        exact iff_of_true rfl (.inl (by show s.appended.length - s.due = 0; omega))
    · rw [look_stale hstale]
      show s.sent.filter (0 < ·) = List.range' 1 s.appended.length ↔ _
      rw [hok, range'_inj]
      have hval : s.unread = s.appended.length - s.due := rfl
      refine ⟨fun e => .inl (by omega), fun hk => ?_⟩
      rcases hk with hk | ⟨-, -, x, hx, hne⟩
      · omega
      · exact absurd (hstale x hx) hne
  · show s.sent.filter (0 < ·) = List.range' 1 s.appended.length ↔ _
    rw [hok, range'_inj]
    have hval : s.unread = s.appended.length - s.due := rfl
    refine ⟨fun e => .inl (by omega), fun hk => ?_⟩
    rcases hk with hk | ⟨hlt, -⟩
    · omega
    · exact absurd hlt ht
  · show s.sent.filter (0 < ·) = List.range' 1 s.appended.length ↔ s.appended.length - s.due = 0
    rw [hok, range'_inj]
    omega

/-! ## 3. All interleavings -/

section Stream

variable {isTradingHoliday : ℤ → Bool} {samplerSeconds now : ℚ} {call : SseCall}
  {engine : LiveCandleEngine} {acts : List SseAction}

/-- **A data frame shows the sample of its number**, in every state of a stream. -/
theorem run_ticks (hstart : sbStream isTradingHoliday samplerSeconds call engine now = .ok s)
    (hr : run (SseStream.step cfg) s acts = some s') :
    s'.ticks.map some = s'.sent.map fun n => (s'.numbered n).map Sample.tick := by
  have hticks : TicksInv s := by
    unfold sbStream at hstart
    split at hstart
    · cases hstart
    · cases hstart
      exact ⟨fun n hn => (by cases hn), rfl⟩
  exact (run_invariant (fun _ _ _ hI hs => step_ticksInv hI hs)
    ⟨(streamInv_start hstart).1, hticks⟩ hr).2.shown

/-- **A stream loses nothing exactly where every look of its loop keeps up.** -/
theorem stream_loses_no_tick
    (hstart : sbStream isTradingHoliday samplerSeconds call engine now = .ok s)
    (hr : run (SseStream.step cfg) s acts = some s') :
    Always (SseStream.step cfg) NoLoss s acts ↔ StepsMeet (SseStream.step cfg) KeepsUp s acts := by
  obtain ⟨hinv, hok⟩ := streamInv_start hstart
  have h := always_iff_meet (I := NoLoss) (J := StreamInv) (C := KeepsUp)
    (fun _ _ _ hI hs => step_streamInv hI hs)
    (fun _ _ _ hI hok hs => step_noLoss hI hok hs) hinv hr
  rw [h]
  exact and_iff_right hok

end Stream

end Steps

/-- An engine without samples, a stream of RELIANCE. -/
def relianceStream : SseStream where
  engine := {}
  key := "NSE:RELIANCE"
  maxSeconds := 300
  clock := 0
  start := 0
  wakesAt := 0
  frames := [.opened "RELIANCE" "NSE" false (1 / 2)]
  before := none

theorem relianceStream_start :
    sbStream (fun _ => true) (1 / 2) { symbol := "reliance" } {} 0 = .ok relianceStream := by
  rfl

/-- The arguments of a writer that records a price of the stream. -/
def relianceRecord (price now : ℚ) : RecordCall where
  symbol := "RELIANCE"
  exchange := "NSE"
  price := some price
  cumVolume := some 0
  now := now

instance (s : SseStream) : Decidable (NoLoss s) :=
  inferInstanceAs (Decidable (s.sent.filter (0 < ·) = List.range' 1 s.due))

/-- A sample that comes alone between two looks is sent. -/
theorem stream_forwards_one :
    Always (SseStream.step {}) NoLoss relianceStream
      [.look 0, .record (relianceRecord 100 (1 / 10)), .look (1 / 5)] := by
  refine (stream_loses_no_tick relianceStream_start rfl).mpr ⟨.inl rfl, fun s₁ h₁ => ?_⟩
  cases h₁
  refine ⟨trivial, fun s₂ h₂ => ?_⟩
  cases h₂
  refine ⟨.inr ⟨by decide, rfl, ⟨1 / 10, 100, 0, none⟩, rfl, by decide⟩, fun _ _ => trivial⟩

/-- Of two samples between two looks the first is lost. -/
theorem stream_loses_tick :
    ∃ s, run (SseStream.step {}) relianceStream
        [.look 0, .record (relianceRecord 100 (1 / 20)), .record (relianceRecord 101 (1 / 10)),
          .look (1 / 5)] = some s ∧
      s.appended.length = 2 ∧ s.sent = [2] ∧ ¬ NoLoss s := by
  exact ⟨_, rfl, by decide, by decide, by decide⟩

end BharatTicker
