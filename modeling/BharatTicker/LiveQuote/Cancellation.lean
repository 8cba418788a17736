/-
  File:      BharatTicker/LiveQuote/Cancellation.lean
  Subject:   WHEN A CANCELLED CALLER TAKES THE OTHERS WITH IT.

  `_live_quote` awaits the shared task itself, and a caller that is cancelled cancels what it
  awaits. So the callers of one fetch are isolated from each other only where no fetch that is
  still awaited is ever cancelled:

  * `doomed` -- a task that was asked to cancel, or ended so;
  * `Unharmed` -- a caller that nobody cancelled does not get `CancelledError`;
  * `Spares` -- the steps that harm no other caller; `step_unharmed` -- one step;
  * `cancellation_isolated_iff` -- whole runs; `doomed_returns_cancelled` -- what awaits a harmed
    caller.
-/
import BharatTicker.LiveQuote.SingleFlight

namespace BharatTicker

namespace LiveQuotes

open Basis

/-! ## 1. Tasks that end in `CancelledError` -/

/-- The task was asked to cancel, or ended in `CancelledError`. -/
def doomed (fs : Flights FetchPhase QuoteOutcome) (id : Nat) : Bool :=
  match fs.flight id with
  | some (.pending phase) => phase.cancelRequested
  | some (.settled o _) => o = .cancelled
  | none => false

/-- A caller that was not cancelled itself neither got `CancelledError` nor awaits a task that will
    end in it. -/
def Unharmed (fs : Flights FetchPhase QuoteOutcome) (caller : Caller) : Prop :=
  caller.cancelled = false →
    match caller.status with
    | .idle => True
    | .waiting id => doomed fs id = false
    | .returned o => o ≠ .cancelled

/-- A step that harms no caller but the one it cancels: nobody else awaits the task that it takes
    down, and no call finds a task that goes down registered. -/
def Spares (ttl : ℚ) (s : LiveQuotes) : Action → Prop
  | .call _ now => hit? ttl now s.cache = none → ∀ id, s.flights.slot = some id →
      doomed s.flights id = false
  | .cancel c => ∀ id, (s.callers c).status = .waiting id → InFlight s id →
      ∀ n, n ≠ c → (s.callers n).status = .waiting id → (s.callers n).cancelled = true
  | _ => True

section Doomed

variable {ttl : ℚ} {s s' : LiveQuotes} {fs fs' : Flights FetchPhase QuoteOutcome} {caller : Caller}
  {id c n : Nat}

theorem doomed_pending {phase : FetchPhase} (h : fs.flight id = some (.pending phase)) :
    doomed fs id = phase.cancelRequested := by
  simp [doomed, h]

theorem doomed_settled {o : QuoteOutcome} {r : Bool} (h : fs.flight id = some (.settled o r)) :
    doomed fs id = decide (o = .cancelled) := by
  simp [doomed, h]

/-- A task that is done is doomed when its outcome is `CancelledError`. -/
theorem doomed_of_outcome {o : QuoteOutcome} (h : fs.outcome? id = some o) :
    doomed fs id = decide (o = .cancelled) := by
  unfold Flights.outcome? at h
  split at h
  · rename_i o' r hf
    cases h
    exact doomed_settled hf
  · cases h

theorem doomed_set_of_ne {f : Basis.Flight FetchPhase QuoteOutcome} (h : n ≠ id) :
    doomed (fs.set id f) n = doomed fs n := by
  unfold doomed
  rw [Flights.set_flight_of_ne h]

/-- A task that moves on to `f` stays as doomed as it was, if `f` is as doomed as it was. -/
theorem doomed_set {f : Basis.Flight FetchPhase QuoteOutcome}
    (h : doomed (fs.set id f) id = doomed fs id) (n : Nat) :
    doomed (fs.set id f) n = doomed fs n := by
  by_cases e : n = id
  · subst e
    exact h
  · exact doomed_set_of_ne e

theorem unharmed_congr (h : ∀ n, doomed fs' n = doomed fs n) (caller : Caller) :
    Unharmed fs' caller ↔ Unharmed fs caller := by
  unfold Unharmed
  simp only [h]

theorem unharmed_waiting (hc : caller.cancelled = false) (hst : caller.status = .waiting id) :
    Unharmed fs caller ↔ doomed fs id = false := by
  simp [Unharmed, hc, hst]

theorem unharmed_returned {o : QuoteOutcome} (hc : caller.cancelled = false)
    (hst : caller.status = .returned o) : Unharmed fs caller ↔ o ≠ .cancelled := by
  simp [Unharmed, hc, hst]

/-- A caller that awaits a task is unharmed when that task is not doomed. -/
theorem unharmed_awaitTask (hc : caller.cancelled = false)
    (hst : caller.status = awaitTask fs id) : Unharmed fs caller ↔ doomed fs id = false := by
  unfold awaitTask at hst
  cases ho : fs.outcome? id with
  | none =>
    rw [ho] at hst
    exact unharmed_waiting hc hst
  | some o =>
    rw [ho] at hst
    rw [unharmed_returned hc hst, doomed_of_outcome ho]
    simp

/-- With the other callers unharmed, all are when caller `c` is. -/
theorem all_unharmed_setCaller (h : ∀ n, n ≠ c → Unharmed fs (s.callers n)) :
    (∀ n, Unharmed fs ((s.setCaller c caller).callers n)) ↔ Unharmed fs caller := by
  constructor
  · intro hall
    have hc := hall c
    rwa [setCaller_callers_self] at hc
  · intro hc n
    by_cases e : n = c
    · subst e
      rwa [setCaller_callers_self]
    · rw [setCaller_callers_of_ne e]
      exact h n e

end Doomed

/-! ## 2. One step -/

section Step

variable {ttl : ℚ} {s s' : LiveQuotes} {id c : Nat}

/-- An answer ends the fetch in a tick or in an error, or has it ask once more. -/
theorem answered_doomed {answer : Except String (Option TickData)} {marketOpen : Bool} {now : ℚ}
    (hs : answered id answer marketOpen now s = some s') :
    s'.callers = s.callers ∧ ∀ n, doomed s'.flights n = doomed s.flights n := by
  unfold answered at hs
  split at hs
  · rename_i stage hf
    have hsettle : ∀ o, o ≠ QuoteOutcome.cancelled →
        ∀ n, doomed (s.flights.settle id o) n = doomed s.flights n := by
      intro o ho
      refine doomed_set ?_
      rw [doomed_settled (Flights.set_flight_self ..), doomed_pending hf]
      simpa using ho
    split at hs
    · cases hs
    · cases answer with
      | error m =>
        cases hs
        exact ⟨rfl, hsettle _ (by simp)⟩
      | ok tick =>
        dsimp only at hs
        split at hs
        · cases hs
          refine ⟨rfl, doomed_set ?_⟩
          rw [doomed_pending (Flights.set_flight_self ..), doomed_pending hf]
        · cases hs
          cases tick with
          | none => exact ⟨rfl, hsettle _ (by simp)⟩
          | some t => exact ⟨rfl, hsettle _ (by simp)⟩
  · cases hs

/-- A step of a task leaves the callers and the doomed tasks as they are. -/
theorem task_doomed {a : Action} (hs : step ttl s a = some s')
    (ha : (∀ c now, a ≠ .call c now) ∧ (∀ c, a ≠ .resume c) ∧ ∀ c, a ≠ .cancel c) :
    s'.callers = s.callers ∧ ∀ n, doomed s'.flights n = doomed s.flights n := by
  cases a with
  | call c now => exact absurd rfl (ha.1 c now)
  | resume c => exact absurd rfl (ha.2.1 c)
  | cancel c => exact absurd rfl (ha.2.2 c)
  | startFetch id =>
    have hs : startFetch id s = some s' := hs
    unfold startFetch at hs
    split at hs
    · rename_i hf
      cases hs
      refine ⟨rfl, doomed_set ?_⟩
      rw [doomed_pending (Flights.set_flight_self ..), doomed_pending hf]
    · cases hs
  | answered id answer marketOpen now => exact answered_doomed hs
  | callback id =>
    have hs : callback id s = some s' := hs
    unfold callback at hs
    split at hs
    · rename_i o hf
      cases hs
      refine ⟨rfl, @doomed_set s.flights id (.settled o true) ?_⟩
      rw [doomed_settled (Flights.set_flight_self ..), doomed_settled hf]
    · cases hs
  | throwIn id =>
    have hs : throwIn id s = some s' := hs
    unfold throwIn at hs
    split at hs
    · rename_i hf
      cases hs
      refine ⟨rfl, doomed_set ?_⟩
      rw [doomed_settled (Flights.set_flight_self ..), doomed_pending hf]
      simp
    · cases hs

theorem call_unharmed {now : ℚ} (hq : QuoteInv ttl s)
    (h : ∀ n, Unharmed s.flights (s.callers n)) :
    (∀ n, Unharmed (liveQuote ttl c now s).flights ((liveQuote ttl c now s).callers n)) ↔
      Spares ttl s (.call c now) := by
  unfold Spares liveQuote
  dsimp only
  cases hh : hit? ttl now s.cache with
  | some t =>
    refine iff_of_true ?_ (fun h => by cases h)
    exact (all_unharmed_setCaller fun n _ => h n).mpr fun _ => by simp
  | none =>
    cases hslot : s.flights.slot with
    | some id =>
      refine ((all_unharmed_setCaller fun n _ => h n).trans (unharmed_awaitTask rfl rfl)).trans ?_
      constructor
      · intro hd _ id' e
        cases e
        exact hd
      · exact fun hd => hd rfl id rfl
    | none =>
      refine iff_of_true ?_ (fun _ id h => by cases h)
      have hnew : doomed (s.flights.launch { stage := .scheduled }) s.flights.fresh = false :=
        doomed_pending (Flights.set_flight_self ..)
      refine (all_unharmed_setCaller fun n _ => ?_).mpr ((unharmed_awaitTask rfl rfl).mpr hnew)
      -- a caller waits for a task of an earlier number
      show Unharmed (s.flights.launch { stage := .scheduled }) (s.callers n)
      intro hc
      have hn := h n hc
      cases hst : (s.callers n).status with
      | idle => trivial
      | waiting m =>
        have hm : m < s.flights.fresh := ((callerOk_waiting hst).mp (hq.callers n)).2
        rw [hst] at hn
        rw [← hn]
        exact doomed_set_of_ne hm.ne
      | returned o =>
        rw [hst] at hn
        exact hn

theorem resume_unharmed (h : ∀ n, Unharmed s.flights (s.callers n))
    (hr : resume c s = some s') : ∀ n, Unharmed s'.flights (s'.callers n) := by
  unfold resume at hr
  split at hr
  · rename_i id hst
    obtain ⟨o, ho, rfl⟩ := Option.map_eq_some_iff.mp hr
    refine (all_unharmed_setCaller fun n _ => h n).mpr fun hcancel => ?_
    have hcancel' : (s.callers c).cancelled = false := hcancel
    have hc : doomed s.flights id = false := (unharmed_waiting hcancel' hst).mp (h c)
    rw [doomed_of_outcome ho] at hc
    simpa [hcancel'] using hc
  · cases hr

theorem cancel_unharmed (h : ∀ n, Unharmed s.flights (s.callers n)) (hr : cancel c s = some s') :
    (∀ n, Unharmed s'.flights (s'.callers n)) ↔ Spares ttl s (.cancel c) := by
  unfold cancel at hr
  split at hr
  · rename_i id hst
    have hself : ∀ fs, Unharmed fs { s.callers c with cancelled := true } := fun _ e => by cases e
    dsimp only at hr
    split at hr
    · rename_i phase hf
      cases hr
      have hdoom : doomed (s.flights.advance id { phase with cancelRequested := true }) id = true :=
        doomed_pending (Flights.set_flight_self ..)
      constructor
      · intro hall id' hst' _ n hn hwait
        rw [hst] at hst'
        cases hst'
        by_contra hc
        have hc : (s.callers n).cancelled = false := by simpa using hc
        have hn' := hall n
        rw [show (s.setCaller c _).callers n = s.callers n from setCaller_callers_of_ne hn] at hn'
        have hfalse := (unharmed_waiting hc hwait).mp hn'
        exact absurd (hdoom.symm.trans hfalse) (by simp)
      · intro hspare
        refine (all_unharmed_setCaller fun n hn hc => ?_).mpr (hself _)
        have hn' := h n hc
        cases hst' : (s.callers n).status with
        | idle => trivial
        | waiting m =>
          rw [hst'] at hn'
          rw [← hn']
          refine doomed_set_of_ne fun e => ?_
          subst e
          have hcc := hspare m hst ⟨phase, hf⟩ n hn hst'
          rw [hc] at hcc
          cases hcc
        | returned o =>
          rw [hst'] at hn'
          exact hn'
    · rename_i hf
      cases hr
      refine iff_of_true ((all_unharmed_setCaller fun n _ => h n).mpr (hself _)) ?_
      intro id' hst' hin
      obtain ⟨phase, hp⟩ := hin
      rw [hst] at hst'
      cases hst'
      exact absurd hp (hf phase)
  · cases hr

/-- **One step harms nobody exactly when it spares the others.** -/
theorem step_unharmed {a : Action} (hq : QuoteInv ttl s)
    (h : ∀ n, Unharmed s.flights (s.callers n)) (hs : step ttl s a = some s') :
    (∀ n, Unharmed s'.flights (s'.callers n)) ↔ Spares ttl s a := by
  have htask : (∀ c now, a ≠ .call c now) ∧ (∀ c, a ≠ .resume c) ∧ (∀ c, a ≠ .cancel c) →
      ∀ n, Unharmed s'.flights (s'.callers n) := by
    intro ha n
    obtain ⟨hcallers, hdoomed⟩ := task_doomed hs ha
    rw [hcallers]
    exact (unharmed_congr hdoomed _).mpr (h n)
  cases a with
  | call c now =>
    obtain ⟨-, e⟩ := Option.ite_none_right_eq_some.mp hs
    cases e
    exact call_unharmed hq h
  | cancel c => exact cancel_unharmed h hs
  | resume c => exact iff_of_true (resume_unharmed h hs) trivial
  | startFetch id => exact iff_of_true (htask (by simp)) trivial
  | answered id answer marketOpen now => exact iff_of_true (htask (by simp)) trivial
  | callback id => exact iff_of_true (htask (by simp)) trivial
  | throwIn id => exact iff_of_true (htask (by simp)) trivial

/-- Whoever awaits a doomed task is about to get `CancelledError`. -/
theorem doomed_returns_cancelled {id : Nat} (hst : (s.callers c).status = .waiting id)
    (hc : (s.callers c).cancelled = false) (hd : doomed s.flights id = true) :
    ∃ more s', run (step ttl) s more = some s' ∧
      (s'.callers c).status = .returned .cancelled ∧ (s'.callers c).cancelled = false := by
  have hresume : ∀ s₁ : LiveQuotes, s₁.callers = s.callers →
      s₁.flights.outcome? id = some .cancelled → ∃ s', step ttl s₁ (.resume c) = some s' ∧
        (s'.callers c).status = .returned .cancelled ∧ (s'.callers c).cancelled = false := by
    intro s₁ hs₁ ho
    refine ⟨s₁.setCaller c { s₁.callers c with status := .returned .cancelled }, ?_, ?_, ?_⟩
    · simp [step, resume, hs₁, hst, ho]
    · rw [setCaller_callers_self]
    · rw [setCaller_callers_self, hs₁]
      exact hc
  cases hf : s.flights.flight id with
  | none => simp [doomed, hf] at hd
  | some f =>
    cases f with
    | pending phase =>
      have hreq : phase.cancelRequested = true := (doomed_pending hf).symm.trans hd
      obtain ⟨stage, req⟩ := phase
      cases hreq
      have hthrow : step ttl s (.throwIn id) =
          some { s with flights := s.flights.settle id .cancelled } := by simp [step, throwIn, hf]
      obtain ⟨s', hs', h⟩ := hresume { s with flights := s.flights.settle id .cancelled } rfl
        (Flights.outcome?_settled (Flights.set_flight_self ..))
      exact ⟨[.throwIn id, .resume c], s', run_cons.2 ⟨_, hthrow, run_cons.2 ⟨s', hs', rfl⟩⟩, h⟩
    | settled o r =>
      rw [doomed_settled hf, decide_eq_true_eq] at hd
      subst hd
      obtain ⟨s', hs', h⟩ := hresume s rfl (Flights.outcome?_settled hf)
      exact ⟨[.resume c], s', run_cons.2 ⟨s', hs', rfl⟩, h⟩

end Step

/-! ## 3. Runs -/

/-- What a caller that was not cancelled gets from the fetch it shares: it has its outcome, or it
    awaits the task it joined and that task was not asked to cancel. -/
def Isolated (ttl : ℚ) (fs : Flights FetchPhase QuoteOutcome) (caller : Caller) : Prop :=
  caller.cancelled = false →
    match caller.status with
    | .idle => True
    | .waiting id => Joined caller id ∧ doomed fs id = false
    | .returned o => Served ttl fs caller o ∧ o ≠ .cancelled

theorem isolated_iff_unharmed {ttl : ℚ} {fs : Flights FetchPhase QuoteOutcome} {caller : Caller}
    (h : CallerOk ttl fs caller) : Isolated ttl fs caller ↔ Unharmed fs caller := by
  unfold Isolated Unharmed
  refine imp_congr_right fun hc => ?_
  cases hst : caller.status with
  | idle => exact Iff.rfl
  | waiting id => exact and_iff_right ((callerOk_waiting hst).mp h).1
  | returned o => exact and_iff_right ((callerOk_returned hst).mp h hc)

/-- **Callers are isolated from the cancellation of others exactly in the runs whose steps spare
    the others**: where no caller is cancelled while another still awaits the same fetch, and no
    call joins a fetch that goes down. -/
theorem cancellation_isolated_iff (ttl : ℚ) (actions : List Action) (s : LiveQuotes)
    (hr : run (step ttl) {} actions = some s) :
    (∀ pre, pre <+: actions → ∀ s', run (step ttl) {} pre = some s' →
      ∀ c, Isolated ttl s'.flights (s'.callers c)) ↔
    StepsMeet (step ttl) (Spares ttl) {} actions := by
  have hJ : ∀ s a s', QuoteInv ttl s → step ttl s a = some s' → QuoteInv ttl s' :=
    fun s a s' h hs => step_quoteInv h hs
  have hinit : ∀ n, Unharmed ({} : LiveQuotes).flights (({} : LiveQuotes).callers n) :=
    fun n _ => trivial
  have hunharmed := always_iff_meet (I := fun s => ∀ n, Unharmed s.flights (s.callers n)) hJ
    (fun s a s' hq h hs => step_unharmed hq h hs) (quoteInv_init ttl) hr
  rw [and_iff_right hinit, always_iff] at hunharmed
  rw [← hunharmed]
  refine forall_congr' fun pre => imp_congr_right fun _ => forall_congr' fun s' =>
    imp_congr_right fun hs' => forall_congr' fun c => isolated_iff_unharmed ?_
  exact (run_invariant hJ (quoteInv_init ttl) hs').callers c

/-- The only caller of a fetch is cancelled, and once its fetch is gone another one calls. -/
def loneCancelRun : List Action :=
  [.call 0 0, .startFetch 0, .cancel 0, .throwIn 0, .resume 0, .callback 0, .call 1 2,
    .startFetch 1, .answered 1 (.ok (some ⟨"RELIANCE", .NSE, 2450, 1000, "groww"⟩)) true 3,
    .resume 1]

theorem loneCancelRun_spares : StepsMeet (step 1) (Spares 1) {} loneCancelRun := by
  refine ⟨fun _ id h => (by cases h), fun s₁ h₁ => ⟨trivial, fun s₂ h₂ => ⟨?_, fun s₃ h₃ => ?_⟩⟩⟩
  · cases h₁
    cases h₂
    intro id _ _ n hn hst
    -- nobody but caller 0 has called yet
    have hidle : ((liveQuote 1 0 0 {}).callers n).status = .idle := by
      simp [liveQuote, hit?, setCaller_callers_of_ne hn]
    exact absurd (hidle.symm.trans hst) (by simp)
  · refine ⟨trivial, fun s₄ h₄ => ⟨trivial, fun s₅ h₅ => ⟨trivial, fun s₆ h₆ => ⟨?_, ?_⟩⟩⟩⟩
    · cases h₁
      cases h₂
      cases h₃
      cases h₄
      cases h₅
      cases h₆
      intro _ id h
      cases h
    · exact fun _ _ => ⟨trivial, fun _ _ => ⟨trivial, fun _ _ => ⟨trivial, fun _ _ => trivial⟩⟩⟩

theorem cancellation_isolated_lone : ∃ s, run (step 1) {} loneCancelRun = some s ∧
    (List.range 2).map (fun c => (s.callers c).status) =
      [.returned .cancelled, .returned (.tick ⟨"RELIANCE", .NSE, 2450, 1000, "groww"⟩)] ∧
    ∀ c, Isolated 1 s.flights (s.callers c) := by
  have hrun : (run (step 1) {} loneCancelRun).map
      (fun s => (List.range 2).map fun c => (s.callers c).status) =
        some [.returned .cancelled,
          .returned (.tick ⟨"RELIANCE", .NSE, 2450, 1000, "groww"⟩)] := by
    decide
  obtain ⟨s, hs, e⟩ := Option.map_eq_some_iff.mp hrun
  exact ⟨s, hs, e, (cancellation_isolated_iff 1 loneCancelRun s hs).mpr loneCancelRun_spares
    loneCancelRun List.prefix_rfl s hs⟩

/-- Two callers share a fetch and the first one is cancelled: the second, which nobody cancelled,
    gets `CancelledError`. -/
theorem shared_fetch_cancelled : ∃ s,
    run (step 1) {} [.call 0 0, .call 1 0, .startFetch 0, .cancel 0, .throwIn 0, .resume 1] =
      some s ∧
    (s.callers 1).cancelled = false ∧ (s.callers 1).status = .returned .cancelled := by
  have hrun : (run (step 1) {}
      [.call 0 0, .call 1 0, .startFetch 0, .cancel 0, .throwIn 0, .resume 1]).map
        (fun s => ((s.callers 1).cancelled, (s.callers 1).status)) =
          some (false, .returned .cancelled) := by
    decide
  obtain ⟨s, hs, e⟩ := Option.map_eq_some_iff.mp hrun
  exact ⟨s, hs, congrArg Prod.fst e, congrArg Prod.snd e⟩

end LiveQuotes

end BharatTicker
