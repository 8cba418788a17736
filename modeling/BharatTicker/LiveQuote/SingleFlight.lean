/-
  File:      BharatTicker/LiveQuote/SingleFlight.lean
  Subject:   THE LIVE QUOTE IS SINGLE-FLIGHT: one fetch at a time, and every caller gets the tick of
             the cache or the outcome of the fetch it found.

  * `Joined`, `Served` -- the task a caller awaits, and what it may return;
  * `QuoteInv` -- the registry is sound, the cached tick is the outcome of a task, every caller is
    served or waits for the task it joined;
  * `Progress` -- what a step of a task does, `startFetch_progress` and the like -- each of them;
  * `step_quoteInv` -- one step; `single_flight` -- whole runs.
-/
import BharatTicker.LiveQuote

namespace BharatTicker

-- the concrete runs below compute with rationals
unseal Rat.add Rat.mul Rat.sub Rat.inv

namespace LiveQuotes

open Basis

/-! ## 1. The invariant -/

/-- The task registered when the caller called, or else the one that it started. -/
def Joined (caller : Caller) (id : Nat) : Prop :=
  caller.inflightThen = some id ∨ caller.inflightThen = none ∧ caller.started = some id

/-- A tick that was in the cache at the call, younger than the TTL, and is the outcome of a task; or
    the outcome of the task that the caller joined. -/
def Served (ttl : ℚ) (fs : Flights FetchPhase QuoteOutcome) (caller : Caller) (o : QuoteOutcome) :
    Prop :=
  (∃ ts t, caller.cacheThen = some (ts, t) ∧ caller.calledAt - ts < ttl ∧ o = .tick t ∧
    ∃ id, fs.outcome? id = some (.tick t)) ∨
  ∃ id, Joined caller id ∧ fs.outcome? id = some o

def CallerOk (ttl : ℚ) (fs : Flights FetchPhase QuoteOutcome) (caller : Caller) : Prop :=
  match caller.status with
  | .idle => True
  | .waiting id => Joined caller id ∧ id < fs.fresh
  | .returned o => caller.cancelled = false → Served ttl fs caller o

structure QuoteInv (ttl : ℚ) (s : LiveQuotes) : Prop where
  sound : s.flights.Sound
  cached : ∀ ts t, s.cache = some (ts, t) → ∃ id, s.flights.outcome? id = some (.tick t)
  callers : ∀ c, CallerOk ttl s.flights (s.callers c)

section Invariant

variable {ttl : ℚ} {s s' : LiveQuotes} {fs fs' : Flights FetchPhase QuoteOutcome} {caller : Caller}
  {id c : Nat}

theorem served_keeps {o : QuoteOutcome} (hk : fs.Keeps fs') (h : Served ttl fs caller o) :
    Served ttl fs' caller o := by
  rcases h with ⟨ts, t, hc, hage, rfl, n, hn⟩ | ⟨n, hj, hn⟩
  · exact .inl ⟨ts, t, hc, hage, rfl, n, hk.outcome n _ hn⟩
  · exact .inr ⟨n, hj, hk.outcome n _ hn⟩

theorem callerOk_waiting (hst : caller.status = .waiting id) :
    CallerOk ttl fs caller ↔ Joined caller id ∧ id < fs.fresh := by
  unfold CallerOk
  rw [hst]

theorem callerOk_returned {o : QuoteOutcome} (hst : caller.status = .returned o) :
    CallerOk ttl fs caller ↔ (caller.cancelled = false → Served ttl fs caller o) := by
  unfold CallerOk
  rw [hst]

theorem callerOk_keeps (hk : fs.Keeps fs') (h : CallerOk ttl fs caller) :
    CallerOk ttl fs' caller := by
  cases hst : caller.status with
  | idle =>
    unfold CallerOk
    rw [hst]
    trivial
  | waiting n =>
    rw [callerOk_waiting hst] at h ⊢
    exact ⟨h.1, h.2.trans_le hk.fresh⟩
  | returned o =>
    rw [callerOk_returned hst] at h ⊢
    exact fun hc => served_keeps hk (h hc)

theorem quoteInv_init (ttl : ℚ) : QuoteInv ttl {} :=
  ⟨Flights.sound_init, fun _ _ h => (by cases h), fun _ => trivial⟩

theorem QuoteInv.setCaller (h : QuoteInv ttl s) (hc : CallerOk ttl s.flights caller) :
    QuoteInv ttl (s.setCaller c caller) := by
  refine ⟨h.sound, h.cached, fun n => ?_⟩
  by_cases e : n = c
  · subst e
    rw [setCaller_callers_self]
    exact hc
  · rw [setCaller_callers_of_ne e]
    exact h.callers n

/-! ## 2. Steps of a task -/

/-- What a step of a task does: the registry stays sound and keeps its outcomes, callers are not
    touched, and a tick that is cached is the outcome of a task. -/
structure Progress (s s' : LiveQuotes) : Prop where
  sound : s'.flights.Sound
  keeps : s.flights.Keeps s'.flights
  callers : s'.callers = s.callers
  cache : s'.cache = s.cache ∨
    ∃ id now t, s'.cache = some (now, t) ∧ s'.flights.outcome? id = some (.tick t)

theorem QuoteInv.progress (h : QuoteInv ttl s) (hp : Progress s s') : QuoteInv ttl s' := by
  refine ⟨hp.sound, fun ts t hc => ?_, fun n => ?_⟩
  · rcases hp.cache with e | ⟨id, now, t', e, ho⟩
    · obtain ⟨id, ho⟩ := h.cached ts t (e ▸ hc)
      exact ⟨id, hp.keeps.outcome id _ ho⟩
    · rw [e] at hc
      cases hc
      exact ⟨id, ho⟩
  · rw [hp.callers]
    exact callerOk_keeps hp.keeps (h.callers n)

/-- A pending task goes on or ends. -/
theorem pending_progress (hs : s.flights.Sound) {phase : FetchPhase}
    (h : s.flights.flight id = some (.pending phase)) :
    (∀ p, Progress s { s with flights := s.flights.advance id p }) ∧
    (∀ o, Progress s { s with flights := s.flights.settle id o }) ∧
    ∀ now tick, Progress s (s.finish id now tick) := by
  have hsettle : ∀ o, Progress s { s with flights := s.flights.settle id o } := fun o =>
    ⟨hs.settle h o, Flights.keeps_set h _, rfl, .inl rfl⟩
  refine ⟨fun p => ⟨hs.advance h p, Flights.keeps_set h _, rfl, .inl rfl⟩, hsettle, ?_⟩
  intro now tick
  cases tick with
  | none => exact hsettle .noTick
  | some t =>
    refine ⟨hs.settle h _, Flights.keeps_set h _, rfl, .inr ⟨id, now, t, rfl, ?_⟩⟩
    exact Flights.outcome?_settled (Flights.set_flight_self ..)

theorem startFetch_progress (hs : s.flights.Sound) (h : startFetch id s = some s') :
    Progress s s' := by
  unfold startFetch at h
  split at h
  · rename_i hf
    cases h
    exact (pending_progress hs hf).1 _
  · cases h

theorem answered_progress {answer : Except String (Option TickData)} {marketOpen : Bool} {now : ℚ}
    (hs : s.flights.Sound) (h : answered id answer marketOpen now s = some s') : Progress s s' := by
  unfold answered at h
  split at h
  · rename_i stage hf
    obtain ⟨hadvance, hsettle, hfinish⟩ := pending_progress hs hf
    split at h
    · cases h
    · cases answer with
      | error m =>
        cases h
        exact hsettle _
      | ok tick =>
        dsimp only at h
        split at h
        · cases h
          exact hadvance _
        · cases h
          exact hfinish now tick
  · cases h

theorem throwIn_progress (hs : s.flights.Sound) (h : throwIn id s = some s') : Progress s s' := by
  unfold throwIn at h
  split at h
  · rename_i hf
    cases h
    exact (pending_progress hs hf).2.1 _
  · cases h

theorem callback_progress (hs : s.flights.Sound) (h : callback id s = some s') :
    Progress s s' := by
  unfold callback at h
  split at h
  · rename_i o hf
    cases h
    exact ⟨hs.release hf, Flights.keeps_release hf, rfl, .inl rfl⟩
  · cases h

/-! ## 3. Steps of a caller -/

theorem hit?_eq_some {now : ℚ} {cache : Option (ℚ × TickData)} {t : TickData}
    (h : hit? ttl now cache = some t) : ∃ ts, cache = some (ts, t) ∧ now - ts < ttl := by
  unfold hit? at h
  split at h
  · rename_i ts t'
    obtain ⟨hlt, e⟩ := Option.ite_none_right_eq_some.mp h
    cases e
    exact ⟨ts, rfl, hlt⟩
  · cases h

/-- A caller that awaits the task it joined. -/
theorem awaitTask_ok (hst : caller.status = awaitTask fs id) (hj : Joined caller id)
    (hlt : id < fs.fresh) : CallerOk ttl fs caller := by
  unfold awaitTask at hst
  cases ho : fs.outcome? id with
  | none =>
    rw [ho] at hst
    exact (callerOk_waiting hst).mpr ⟨hj, hlt⟩
  | some o =>
    rw [ho] at hst
    exact (callerOk_returned hst).mpr fun _ => .inr ⟨id, hj, ho⟩

theorem liveQuote_quoteInv {now : ℚ} (h : QuoteInv ttl s) :
    QuoteInv ttl (liveQuote ttl c now s) := by
  unfold liveQuote
  dsimp only
  cases hh : hit? ttl now s.cache with
  | some t =>
    obtain ⟨ts, hc, hage⟩ := hit?_eq_some hh
    exact h.setCaller fun _ => .inl ⟨ts, t, hc, hage, rfl, h.cached ts t hc⟩
  | none =>
    cases hslot : s.flights.slot with
    | some id => 
      exact h.setCaller (awaitTask_ok rfl (.inl rfl) (Flights.slot_launched h.sound hslot))
    | none =>
      have hp : Progress s { s with flights := s.flights.launch { stage := .scheduled } } :=
        ⟨h.sound.launch hslot _, Flights.keeps_launch h.sound _, rfl, .inl rfl⟩
      exact (h.progress hp).setCaller (awaitTask_ok rfl (.inr ⟨rfl, rfl⟩) (Nat.lt_succ_self _))

theorem resume_quoteInv (h : QuoteInv ttl s) (hr : resume c s = some s') : QuoteInv ttl s' := by
  unfold resume at hr
  split at hr
  · rename_i id hst
    obtain ⟨o, ho, rfl⟩ := Option.map_eq_some_iff.mp hr
    have hc := (callerOk_waiting hst).mp (h.callers c)
    refine h.setCaller fun hcancel => .inr ⟨id, hc.1, ?_⟩
    have hcancel' : (s.callers c).cancelled = false := hcancel
    simpa [hcancel'] using ho
  · cases hr

theorem cancel_quoteInv (h : QuoteInv ttl s) (hr : cancel c s = some s') : QuoteInv ttl s' := by
  unfold cancel at hr
  split at hr
  · rename_i id hst
    have hc := (callerOk_waiting hst).mp (h.callers c)
    have hst' : ({ s.callers c with cancelled := true } : Caller).status = .waiting id := hst
    have hmark : CallerOk ttl s.flights { s.callers c with cancelled := true } :=
      (callerOk_waiting hst').mpr hc
    have h₁ := h.setCaller (c := c) hmark
    dsimp only at hr
    split at hr
    · rename_i phase hf
      cases hr
      exact h₁.progress ((pending_progress h₁.sound hf).1 _)
    · cases hr
      exact h₁
  · cases hr

/-- **One step keeps the invariant.** -/
theorem step_quoteInv {a : Action} (h : QuoteInv ttl s) (hs : step ttl s a = some s') :
    QuoteInv ttl s' := by
  cases a with
  | call c now =>
    obtain ⟨-, e⟩ := Option.ite_none_right_eq_some.mp hs
    cases e
    exact liveQuote_quoteInv h
  | startFetch id => exact h.progress (startFetch_progress h.sound hs)
  | answered id answer marketOpen now => exact h.progress (answered_progress h.sound hs)
  | callback id => exact h.progress (callback_progress h.sound hs)
  | resume c => exact resume_quoteInv h hs
  | cancel c => exact cancel_quoteInv h hs
  | throwIn id => exact h.progress (throwIn_progress h.sound hs)

end Invariant

/-! ## 4. Runs -/

/-- The task is not done: it is scheduled or in a fetch. -/
def InFlight (s : LiveQuotes) (id : Nat) : Prop := ∃ phase, s.flights.flight id = some (.pending phase)

/-- **The live quote is single-flight**, whatever the callers, the tasks and the callbacks do when:
    at most one fetch is in flight; the callback of a task that is done finds its own entry in
    `_live_q_inflight`; a caller that is not cancelled returns a tick of the cache younger than the
    TTL, or the outcome of the one task registered when it called or started by it; and a caller
    waits only as long as that task is in flight. -/
theorem single_flight (ttl : ℚ) (actions : List Action) (s : LiveQuotes)
    (hr : run (step ttl) {} actions = some s) :
    (∀ id n, InFlight s id → InFlight s n → id = n) ∧
    (∀ id s', step ttl s (.callback id) = some s' →
      s.flights.slot = some id ∧ s'.flights.slot = none) ∧
    (∀ c o, (s.callers c).status = .returned o → (s.callers c).cancelled = false →
      Served ttl s.flights (s.callers c) o) ∧
    (∀ c id, (s.callers c).status = .waiting id →
      Joined (s.callers c) id ∧ (InFlight s id ∨ ∃ s', step ttl s (.resume c) = some s')) := by
  have h : QuoteInv ttl s :=
    run_invariant (fun s a s' hI hs => step_quoteInv hI hs) (quoteInv_init ttl) hr
  refine ⟨?_, ?_, ?_, ?_⟩
  · intro id n hex hex'
    obtain ⟨p, hp⟩ := hex
    obtain ⟨q, hq⟩ := hex'
    exact Flights.pending_unique h.sound hp hq
  · intro id s' hs
    have hs' : callback id s = some s' := hs
    unfold callback at hs'
    split at hs'
    · rename_i o hf
      cases hs'
      exact ⟨Flights.release_own h.sound hf, rfl⟩
    · cases hs'
  · intro c o hst hc
    exact (callerOk_returned hst).mp (h.callers c) hc
  · intro c id hst
    obtain ⟨hj, hlt⟩ := (callerOk_waiting hst).mp (h.callers c)
    refine ⟨hj, ?_⟩
    cases ho : s.flights.outcome? id with
    | none => exact .inl (Flights.pending_of_outcome?_none ((h.sound.launched id).mpr hlt) ho)
    | some o => exact .inr (Option.isSome_iff_exists.mp (by simp [step, resume, hst, ho]))

/-- Two callers share a fetch that finds nothing, a third arrives before its callback; the next
    fetch answers a fourth caller, and from the cache a fifth. -/
def sharedRun : List Action :=
  let t : TickData := ⟨"RELIANCE", .NSE, 2450, 1000, "groww"⟩
  [.call 0 0, .call 1 0, .startFetch 0, .answered 0 (.ok none) true 1, .call 2 1, .callback 0,
    .resume 0, .call 3 2, .startFetch 1, .answered 1 (.ok (some t)) true 3, .callback 1, .resume 3,
    .call 4 (7 / 2), .resume 1]

theorem single_flight_shared : ∃ s, run (step 1) {} sharedRun = some s ∧
    (List.range 5).map (fun c => (s.callers c).status) =
      [.returned .noTick, .returned .noTick, .returned .noTick,
        .returned (.tick ⟨"RELIANCE", .NSE, 2450, 1000, "groww"⟩),
        .returned (.tick ⟨"RELIANCE", .NSE, 2450, 1000, "groww"⟩)] ∧
    ∀ id n, InFlight s id → InFlight s n → id = n := by
  have hrun : (run (step 1) {} sharedRun).map
      (fun s => (List.range 5).map fun c => (s.callers c).status) =
        some [.returned .noTick, .returned .noTick, .returned .noTick,
          .returned (.tick ⟨"RELIANCE", .NSE, 2450, 1000, "groww"⟩),
          .returned (.tick ⟨"RELIANCE", .NSE, 2450, 1000, "groww"⟩)] := by
    decide
  obtain ⟨s, hs, e⟩ := Option.map_eq_some_iff.mp hrun
  exact ⟨s, hs, e, (single_flight 1 sharedRun s hs).1⟩

end LiveQuotes

end BharatTicker
