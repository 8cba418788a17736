/-
  File:      BharatTicker/CircuitBreaker/Polling.lean
  Subject:   WHAT READING A BREAKER CHANGES. A read of `state` moves an OPEN breaker whose time is up to
             HALF_OPEN; the recording functions look at the raw state and do not.

  Two runs of the same calls, one of them with reads in between. They differ from a read that moves the
  breaker to the next admission, which moves the other one as well. What is recorded between the two
  finds HALF_OPEN in one run and OPEN in the other: a failure opens the first again, a success is
  counted by the first and not by the second.

  * `Unread` -- what the two breakers have in common; `unread_enter`, `unread_recordFailure`, ... --
    one step of both;
  * `polled_unpolled` -- the simulation, over runs;
  * `reads_change_nothing` -- the admission decisions are the same as long as no success is recorded
    between such a read and the next admission;
  * `read_changes_admission` -- where one is.
-/
import BharatTicker.CircuitBreaker.System

namespace BharatTicker

open Basis

-- the concrete runs below compute with rationals
unseal Rat.add Rat.mul Rat.sub Rat.inv

/-! ## 1. Two breakers, one of them read -/

/-- A breaker that has been read, up to time `t`, and one that has not. -/
structure Unread (cfg : BreakerConfig) (t : ℚ) (polled unpolled : CircuitBreaker) : Prop where
  failureCount : unpolled.failureCount = polled.failureCount
  successCount : unpolled.successCount = polled.successCount
  lastFailureTime : unpolled.lastFailureTime = polled.lastFailureTime
  state : (unpolled.state = polled.state ∧
      (polled.state = .HALF_OPEN → unpolled.halfOpenCalls = polled.halfOpenCalls)) ∨
    -- a read has moved the one, and the other is due
    (polled.state = .HALF_OPEN ∧ polled.halfOpenCalls = 0 ∧ unpolled.state = .OPEN ∧
      cfg.recoveryTimeout < t - unpolled.lastFailureTime)

section Breaker

variable {cfg : BreakerConfig} {t t' : ℚ} {b b' : CircuitBreaker}

theorem Unread.refl (t : ℚ) (b : CircuitBreaker) : Unread cfg t b b :=
  ⟨rfl, rfl, rfl, .inl ⟨rfl, fun _ => rfl⟩⟩

theorem Unread.later (h : Unread cfg t b b') (hle : t ≤ t') : Unread cfg t' b b' := by
  refine ⟨h.failureCount, h.successCount, h.lastFailureTime, ?_⟩
  rcases h.state with hsame | ⟨h1, h2, h3, hdue⟩
  · exact .inl hsame
  · exact .inr ⟨h1, h2, h3, hdue.trans_le (by linarith)⟩

/-- One more read. -/
theorem Unread.read (h : Unread cfg t b b') : Unread cfg t (b.stateAt cfg t) b' := by
  by_cases hd : b.state = .OPEN ∧ cfg.recoveryTimeout < t - b.lastFailureTime
  · rw [CircuitBreaker.stateAt_of_due hd.1 hd.2]
    refine ⟨h.failureCount, h.successCount, h.lastFailureTime, .inr ⟨rfl, rfl, ?_, ?_⟩⟩
    · rcases h.state with ⟨hst, -⟩ | ⟨hhalf, -⟩
      · exact hst.trans hd.1
      · rw [hd.1] at hhalf
        cases hhalf
    · rw [h.lastFailureTime]
      exact hd.2
  · have e : b.stateAt cfg t = b := if_neg hd
    rwa [e]

/-- A read of both leaves them in the same state. -/
theorem Unread.both (h : Unread cfg t b b') :
    Unread cfg t (b.stateAt cfg t) (b'.stateAt cfg t) ∧
      (b'.stateAt cfg t).state = (b.stateAt cfg t).state ∧
      ((b.stateAt cfg t).state = .HALF_OPEN →
        (b'.stateAt cfg t).halfOpenCalls = (b.stateAt cfg t).halfOpenCalls) := by
  have key : ∀ {c c' : CircuitBreaker}, c'.failureCount = c.failureCount →
      c'.successCount = c.successCount → c'.lastFailureTime = c.lastFailureTime →
      c'.state = c.state → (c.state = .HALF_OPEN → c'.halfOpenCalls = c.halfOpenCalls) →
      Unread cfg t c c' ∧ c'.state = c.state ∧
        (c.state = .HALF_OPEN → c'.halfOpenCalls = c.halfOpenCalls) :=
    fun h1 h2 h3 h4 h5 => ⟨⟨h1, h2, h3, .inl ⟨h4, h5⟩⟩, h4, h5⟩
  rcases h.state with ⟨hst, hcalls⟩ | ⟨hhalf, hzero, hopen, hdue⟩
  · by_cases hd : b.state = .OPEN ∧ cfg.recoveryTimeout < t - b.lastFailureTime
    · rw [CircuitBreaker.stateAt_of_due hd.1 hd.2,
        CircuitBreaker.stateAt_of_due (hst.trans hd.1) (by rw [h.lastFailureTime]; exact hd.2)]
      exact key h.failureCount h.successCount h.lastFailureTime rfl fun _ => rfl
    · have hd' : ¬ (b'.state = .OPEN ∧ cfg.recoveryTimeout < t - b'.lastFailureTime) := by
        rw [hst, h.lastFailureTime]
        exact hd
      have e : b.stateAt cfg t = b := if_neg hd
      have e' : b'.stateAt cfg t = b' := if_neg hd'
      rw [e, e']
      exact key h.failureCount h.successCount h.lastFailureTime hst hcalls
  · rw [CircuitBreaker.stateAt_of_due hopen hdue,
      CircuitBreaker.stateAt_of_not_open (by simp [hhalf])]
    exact key h.failureCount h.successCount h.lastFailureTime hhalf.symm fun _ => hzero.symm

/-- **Both decide alike on a call.** -/
theorem Unread.enter (h : Unread cfg t b b') :
    (b'.enter cfg t).1 = (b.enter cfg t).1 ∧ Unread cfg t (b.enter cfg t).2 (b'.enter cfg t).2 := by
  obtain ⟨hread, hst, hcalls⟩ := h.both
  rw [← CircuitBreaker.enter_stateAt t b, ← CircuitBreaker.enter_stateAt t b']
  have hfix : (b.stateAt cfg t).stateAt cfg t = b.stateAt cfg t :=
    CircuitBreaker.stateAt_stateAt t b
  have hfix' : (b'.stateAt cfg t).stateAt cfg t = b'.stateAt cfg t :=
    CircuitBreaker.stateAt_stateAt t b'
  generalize b.stateAt cfg t = c at hread hst hcalls hfix ⊢
  generalize b'.stateAt cfg t = c' at hread hst hcalls hfix' ⊢
  cases hc : c.state with
  | CLOSED =>
    rw [CircuitBreaker.enter_closed hc, CircuitBreaker.enter_closed (hst.trans hc)]
    exact ⟨rfl, hread⟩
  | HALF_OPEN =>
    have hcalls := hcalls hc
    by_cases hlt : c.halfOpenCalls < cfg.halfOpenMaxCalls
    · rw [CircuitBreaker.enter_halfOpen hc hlt,
        CircuitBreaker.enter_halfOpen (hst.trans hc) (hcalls.symm ▸ hlt)]
      exact ⟨rfl, hread.failureCount, hread.successCount, hread.lastFailureTime,
        .inl ⟨hst, fun _ => congrArg (· + 1) hcalls⟩⟩
    · have hfull : (c.canExecute cfg t).1 = false := by
        rw [CircuitBreaker.canExecute_halfOpen hc]
        exact decide_eq_false hlt
      have hfull' : (c'.canExecute cfg t).1 = false := by
        rw [CircuitBreaker.canExecute_halfOpen (hst.trans hc)]
        exact decide_eq_false (hcalls.symm ▸ hlt)
      rw [CircuitBreaker.enter_rejected hfull, CircuitBreaker.enter_rejected hfull', hfix, hfix']
      exact ⟨rfl, hread⟩
  | OPEN =>
    have hno : ∀ {d : CircuitBreaker}, d.stateAt cfg t = d → d.state = .OPEN →
        (d.canExecute cfg t).1 = false := fun hd ho => by
      simp [CircuitBreaker.canExecute, hd, ho]
    rw [CircuitBreaker.enter_rejected (hno hfix hc),
      CircuitBreaker.enter_rejected (hno hfix' (hst.trans hc)), hfix, hfix']
    exact ⟨rfl, hread⟩

/-- A failure makes them the same: the one that was read opens again. -/
theorem Unread.recordFailure (h : Unread cfg t b b') (now : ℚ) :
    Unread cfg t (b.recordFailure cfg now) (b'.recordFailure cfg now) := by
  rcases h.state with ⟨hst, hcalls⟩ | ⟨hhalf, hzero, hopen, hdue⟩
  · by_cases htrip : b.state = .CLOSED → cfg.failureThreshold ≤ b.failureCount + 1
    · rw [CircuitBreaker.recordFailure_trip htrip,
        CircuitBreaker.recordFailure_trip (by rwa [hst, h.failureCount])]
      exact ⟨congrArg (· + 1) h.failureCount, h.successCount, rfl, .inl ⟨rfl, nofun⟩⟩
    · obtain ⟨hc, hlt⟩ := Classical.not_imp.mp htrip
      have hlt := Nat.lt_of_not_le hlt
      rw [CircuitBreaker.recordFailure_closed hc hlt,
        CircuitBreaker.recordFailure_closed (hst.trans hc) (by rwa [h.failureCount])]
      exact ⟨congrArg (· + 1) h.failureCount, h.successCount, rfl, .inl ⟨hst, hcalls⟩⟩
  · rw [CircuitBreaker.recordFailure_trip (by rw [hhalf]; nofun),
      CircuitBreaker.recordFailure_trip (by rw [hopen]; nofun)]
    exact ⟨congrArg (· + 1) h.failureCount, h.successCount, rfl, .inl ⟨rfl, nofun⟩⟩

/-- A success keeps them alike, unless it finds the one in HALF_OPEN before any call was admitted. -/
theorem Unread.recordSuccess (h : Unread cfg t b b')
    (hno : ¬ (b.state = .HALF_OPEN ∧ b.halfOpenCalls = 0)) :
    Unread cfg t (b.recordSuccess cfg) (b'.recordSuccess cfg) := by
  rcases h.state with ⟨hst, hcalls⟩ | ⟨hhalf, hzero, -⟩
  · cases hc : b.state with
    | CLOSED =>
      rw [CircuitBreaker.recordSuccess_closed hc, CircuitBreaker.recordSuccess_closed (hst.trans hc)]
      exact ⟨congrArg (· - 1) h.failureCount, h.successCount, h.lastFailureTime, .inl ⟨hst, hcalls⟩⟩
    | OPEN =>
      rwa [CircuitBreaker.recordSuccess_open hc, CircuitBreaker.recordSuccess_open (hst.trans hc)]
    | HALF_OPEN =>
      by_cases hge : cfg.halfOpenMaxCalls ≤ b.successCount + 1
      · rw [CircuitBreaker.recordSuccess_recover hc hge,
          CircuitBreaker.recordSuccess_recover (hst.trans hc) (by rwa [h.successCount])]
        exact ⟨rfl, rfl, h.lastFailureTime, .inl ⟨rfl, nofun⟩⟩
      · have hlt := Nat.lt_of_not_le hge
        rw [CircuitBreaker.recordSuccess_halfOpen hc hlt,
          CircuitBreaker.recordSuccess_halfOpen (hst.trans hc) (by rwa [h.successCount])]
        exact ⟨h.failureCount, congrArg (· + 1) h.successCount, h.lastFailureTime,
          .inl ⟨hst, hcalls⟩⟩
  · exact absurd ⟨hhalf, hzero⟩ hno

theorem Unread.reset (h : Unread cfg t b b') : Unread cfg t b.reset b'.reset :=
  ⟨rfl, rfl, h.lastFailureTime, .inl ⟨rfl, nofun⟩⟩

end Breaker

/-! ## 2. Two runs -/

/-- A decision on a call: its time, and the call when it was admitted. -/
def BreakerEvent.decision? : BreakerEvent → Option (ℚ × Option Nat)
  | .admitted c t _ => some (t, some c)
  | .rejected t => some (t, none)
  | _ => none

/-- The admission decisions of a history, newest first. -/
def decisions (h : List BreakerEvent) : List (ℚ × Option Nat) :=
  h.filterMap BreakerEvent.decision?

def BreakerAction.isRead : BreakerAction → Bool
  | .read _ => true
  | _ => false

/-- A success that is recorded in HALF_OPEN before the first call of the episode is admitted: a call from
    before the episode, at a breaker that was moved by a read alone. -/
def LateSuccess (s : BreakerSystem) : BreakerAction → Prop
  | .finish _ .success _ => s.breaker.state = .HALF_OPEN ∧ s.breaker.halfOpenCalls = 0
  | _ => False

instance (s : BreakerSystem) (a : BreakerAction) : Decidable (LateSuccess s a) := by
  unfold LateSuccess
  split <;> infer_instance

/-- The system whose breaker has been read, and the other one, at time `t`. -/
structure Polled (cfg : BreakerConfig) (t : ℚ) (s s' : BreakerSystem) : Prop where
  breaker : Unread cfg t s.breaker s'.breaker
  inFlight : s'.inFlight = s.inFlight
  nextCall : s'.nextCall = s.nextCall
  decided : decisions s'.history = decisions s.history

section Runs

variable {cfg : BreakerConfig} {t : ℚ} {s s' : BreakerSystem}

/-- Related computations that go on alike end alike. -/
theorem rel_bind {α β γ δ : Type*} {R : α → β → Prop} {S : γ → δ → Prop} {x : Option α}
    {y : Option β} {f : α → Option γ} {g : β → Option δ} (h : Option.Rel R x y)
    (hfg : ∀ a b, R a b → x = some a → Option.Rel S (f a) (g b)) :
    Option.Rel S (x.bind f) (y.bind g) := by
  cases h with
  | none => exact .none
  | some hab => exact hfg _ _ hab rfl

theorem Polled.later {t' : ℚ} (h : Polled cfg t s s') (hle : t ≤ t') : Polled cfg t' s s' :=
  ⟨h.breaker.later hle, h.inFlight, h.nextCall, h.decided⟩

theorem decisions_cons (e : BreakerEvent) (h : List BreakerEvent) :
    decisions (e :: h) = e.decision?.toList ++ decisions h := filterMap_toList h _ e

/-- A read decides nothing. -/
theorem decisions_noteRead (old new : CircuitBreaker) (t : ℚ) (h : List BreakerEvent) :
    decisions (BreakerSystem.noteRead old new t h) = decisions h := by
  unfold BreakerSystem.noteRead
  split <;> rfl

theorem Polled.read (h : Polled cfg t s s') : Polled cfg t (s.read cfg t) s' :=
  ⟨h.breaker.read, h.inFlight, h.nextCall, h.decided.trans (decisions_noteRead ..).symm⟩

/-- A call, as `enter` answers it. -/
theorem execute_eq (s : BreakerSystem) : s.execute cfg t =
    match s.breaker.enter cfg t with
    | (true, b) =>
      { breaker := b
        inFlight := s.nextCall :: s.inFlight
        nextCall := s.nextCall + 1
        history := .admitted s.nextCall t b.state :: (s.read cfg t).history }
    | (false, b) =>
      { s with breaker := b, history := .rejected t :: (s.read cfg t).history } := by
  unfold BreakerSystem.execute BreakerSystem.enterCall
  rw [show (s.read cfg t).breaker = s.breaker.stateAt cfg t from rfl, CircuitBreaker.enter_stateAt]
  cases s.breaker.enter cfg t with
  | mk a b => cases a <;> rfl

/-- **A call at both**: it gets the same answer. -/
theorem Polled.execute (h : Polled cfg t s s') :
    Polled cfg t (s.execute cfg t) (s'.execute cfg t) := by
  obtain ⟨hsame, hbreaker⟩ := h.breaker.enter
  have hread : decisions (s'.read cfg t).history = decisions (s.read cfg t).history :=
    (decisions_noteRead ..).trans (h.decided.trans (decisions_noteRead ..).symm)
  rw [execute_eq s, execute_eq s']
  cases he : s.breaker.enter cfg t with
  | mk a b =>
    cases he' : s'.breaker.enter cfg t with
    | mk a' b' =>
      rw [he, he'] at hsame hbreaker
      obtain rfl : a' = a := hsame
      cases a' with
      | true =>
        refine ⟨hbreaker, ?_, congrArg (· + 1) h.nextCall, ?_⟩
        · dsimp only
          rw [h.nextCall, h.inFlight]
        · dsimp only
          rw [decisions_cons, decisions_cons, hread, h.nextCall]
          rfl
      | false =>
        refine ⟨hbreaker, h.inFlight, h.nextCall, ?_⟩
        dsimp only
        rw [decisions_cons, decisions_cons, hread]

theorem Polled.fail (h : Polled cfg t s s') (who : Option Nat) :
    Polled cfg t (s.fail cfg who t) (s'.fail cfg who t) := by
  refine ⟨h.breaker.recordFailure t, ?_, h.nextCall, ?_⟩
  · exact congrArg (removeCall who) h.inFlight
  · exact h.decided

theorem Polled.succeed (h : Polled cfg t s s')
    (hno : ¬ (s.breaker.state = .HALF_OPEN ∧ s.breaker.halfOpenCalls = 0)) (c : Nat) :
    Polled cfg t (s.succeed cfg c t) (s'.succeed cfg c t) := by
  have hd : ∀ u : BreakerSystem, decisions (u.succeed cfg c t).history = decisions u.history := by
    intro u
    unfold BreakerSystem.succeed
    dsimp only
    split <;> rfl
  refine ⟨h.breaker.recordSuccess hno, congrArg (fun l => l.erase c) h.inFlight, h.nextCall, ?_⟩
  rw [hd, hd, h.decided]

/-- **One action at both**: it is enabled at both or at neither, and leaves them alike. -/
theorem Polled.step {a : BreakerAction} (h : Polled cfg a.time s s') (ha : ¬ LateSuccess s a) :
    Option.Rel (Polled cfg a.time) (s.step cfg a) (s'.step cfg a) := by
  cases a with
  | execute t => exact .some h.execute
  | finish c how t =>
    by_cases hc : c ∈ s.inFlight
    · have hc' : c ∈ s'.inFlight := h.inFlight.symm ▸ hc
      simp only [BreakerSystem.step, if_pos hc, if_pos hc']
      cases how with
      | success => exact .some (h.succeed ha c)
      | failure => exact .some (h.fail (some c))
      | cancelled =>
        exact .some ⟨h.breaker, congrArg (fun l => l.erase c) h.inFlight, h.nextCall, h.decided⟩
    · have hc' : c ∉ s'.inFlight := h.inFlight.symm ▸ hc
      simp only [BreakerSystem.step, if_neg hc, if_neg hc']
      exact .none
  | recordFailure t => exact .some (h.fail none)
  | reset t => exact .some ⟨h.breaker.reset, h.inFlight, h.nextCall, h.decided⟩
  | read t => exact .some ⟨h.breaker.both.1, h.inFlight, h.nextCall,
      (decisions_noteRead ..).trans (h.decided.trans (decisions_noteRead ..).symm)⟩

/-- **The simulation**: a run with reads, and the same run without them. -/
theorem polled_unpolled {acts : List BreakerAction} (h : Polled cfg t s s')
    (hmono : (acts.map BreakerAction.time).Pairwise (· ≤ ·)) (hstart : ∀ a ∈ acts, t ≤ a.time)
    (hlate : StepsMeet (BreakerSystem.step cfg) (fun s a => ¬ LateSuccess s a) s acts) :
    Option.Rel (fun s s' => ∃ t', Polled cfg t' s s') (run (BreakerSystem.step cfg) s acts)
      (run (BreakerSystem.step cfg) s' (acts.filter fun a => !a.isRead)) := by
  induction acts generalizing t s s' with
  | nil => exact .some ⟨t, h⟩
  | cons a acts ih =>
    rw [List.map_cons, List.pairwise_cons] at hmono
    have hnow := h.later (hstart a List.mem_cons_self)
    have hrest : ∀ a' ∈ acts, a.time ≤ a'.time := fun a' ha' =>
      hmono.1 _ (List.mem_map_of_mem ha')
    cases hr : a.isRead with
    | true =>
      -- the read moves the one breaker alone
      rw [List.filter_cons_of_neg (by simp [hr])]
      cases a with
      | read τ => exact ih hnow.read hmono.2 hrest (hlate.2 _ rfl)
      | _ => cases hr
    | false =>
      rw [List.filter_cons_of_pos (by simp [hr])]
      have hstep := hnow.step hlate.1
      exact rel_bind hstep fun u u' hu hs => ih hu hmono.2 hrest (hlate.2 u hs)

end Runs

/-- **Reads change no admission decision** in any run in which every success that is recorded in HALF_OPEN
    comes after a call was admitted in that episode: with the reads and without them, the run goes
    through or does not, and decides alike on every call. -/
theorem reads_change_nothing (cfg : BreakerConfig) (acts : List BreakerAction)
    (hmono : (acts.map BreakerAction.time).Pairwise (· ≤ ·))
    (hlate : StepsMeet (BreakerSystem.step cfg) (fun s a => ¬ LateSuccess s a) {} acts) :
    (run (BreakerSystem.step cfg) {} acts).map (fun s => decisions s.history) =
      (run (BreakerSystem.step cfg) {} (acts.filter fun a => !a.isRead)).map
        fun s => decisions s.history := by
  obtain ⟨t, ht⟩ := exists_clock hmono
  have hstart : Polled cfg t {} {} := ⟨Unread.refl t _, rfl, rfl, rfl⟩
  have hrel := polled_unpolled hstart hmono (fun a ha => ht _ (List.mem_map_of_mem ha)) hlate
  generalize run (BreakerSystem.step cfg) {} acts = x at hrel ⊢
  generalize run (BreakerSystem.step cfg) {} (acts.filter fun a => !a.isRead) = y at hrel ⊢
  cases hrel with
  | none => rfl
  | some hu =>
    obtain ⟨t', hp⟩ := hu
    exact congrArg some hp.decided.symm

/-- A threshold of one failure, ten seconds to recovery, one probe. -/
def touchyConfig : BreakerConfig where
  failureThreshold := 1
  recoveryTimeout := 10
  halfOpenMaxCalls := 1
  failureThreshold_pos := one_pos
  halfOpenMaxCalls_pos := one_pos

/-- Two calls overlap; the second fails, the breaker opens, and is read when its time is up. Two calls
    follow. -/
def polledRun : List BreakerAction :=
  [.execute 0, .execute 0, .finish 1 .failure 1, .read 20, .execute 21, .finish 0 .success 22,
    .execute 23]

theorem reads_change_nothing_polled :
    (run (BreakerSystem.step touchyConfig) {} polledRun).map (fun s => decisions s.history) =
      (run (BreakerSystem.step touchyConfig) {} (polledRun.filter fun a => !a.isRead)).map
        fun s => decisions s.history :=
  reads_change_nothing touchyConfig polledRun (by decide) (by decide)

/-- The same with the late success before the first call of the episode. -/
def polledLate : List BreakerAction :=
  [.execute 0, .execute 0, .finish 1 .failure 1, .read 20, .finish 0 .success 21, .execute 22,
    .execute 23]

/-- **A read changes an admission**: with it, the late success closes the breaker and both calls are
    admitted; without it, the second one is rejected. -/
theorem read_changes_admission :
    (polledLate.map BreakerAction.time).Pairwise (· ≤ ·) ∧
      (run (BreakerSystem.step touchyConfig) {} polledLate).map (fun s => decisions s.history) =
        some [(23, some 3), (22, some 2), (0, some 1), (0, some 0)] ∧
      (run (BreakerSystem.step touchyConfig) {} (polledLate.filter fun a => !a.isRead)).map
        (fun s => decisions s.history) = some [(23, none), (22, some 2), (0, some 1), (0, some 0)] := by
  decide

end BharatTicker
