/-
  File:      BharatTicker/Failover/DeadProvider.lean
  Subject:   WHAT A DEAD PROVIDER COSTS. A provider that answers nothing any more is still the first of the
             order; its breaker keeps the cascade from paying for that at every request.

  Calls of `fetch_quote` are made one after another, for any symbols and with any arguments; between them
  providers are switched on and off (`set_enabled`) and the states of the breakers are read
  (`list_status`, `health_check_all`). `attempts` is a ghost: the attempts at one provider, newest first.

  * `CircuitBreaker.Failed`, `attempt_failed` -- what a failed attempt leaves of the breaker;
  * `agree_of_not_round` -- a call that does not come to a provider leaves its breaker;
  * `attempted`, `StackRun`, `StackAction`, `step` -- the calls;
  * `Spaced`, `DeadInv`, `step_deadInv` -- the invariant;
  * `dead_provider_spaced` -- every run; `attempts_budget` -- how many attempts fit into a time.
-/
import BharatTicker.Basis.Run
import BharatTicker.Failover.Isolation
import BharatTicker.Failover.OneFailure

namespace BharatTicker

open Basis

-- the concrete runs below compute with rationals
unseal Rat.add Rat.mul Rat.sub Rat.inv

/-! ## 1. A failed attempt -/

/-- The breaker after a failure, or two, recorded at `t`. -/
structure CircuitBreaker.Failed (cfg : BreakerConfig) (t : ℚ) (cb cb' : CircuitBreaker) : Prop where
  time : cb'.lastFailureTime = t
  count : cb.failureCount + 1 ≤ cb'.failureCount
  state : cb'.state = .OPEN ∨
    cb.state = .CLOSED ∧ cb'.state = .CLOSED ∧ cb'.failureCount < cfg.failureThreshold

section Failed

variable {cfg : BreakerConfig} {req : QuoteRequest} {env : String → Attempt} {fc : FailoverController}
  {a : Attempt} {p : Provider} {ps : List Provider} {t : ℚ} {cb cb' : CircuitBreaker}

theorem failed_recordFailure (cfg : BreakerConfig) (t : ℚ) (cb : CircuitBreaker) :
    cb.Failed cfg t (cb.recordFailure cfg t) := by
  by_cases h : cb.state = .CLOSED ∧ cb.failureCount + 1 < cfg.failureThreshold
  · rw [CircuitBreaker.recordFailure_closed h.1 h.2]
    exact ⟨rfl, le_refl _, .inr ⟨h.1, h.1, h.2⟩⟩
  · rw [CircuitBreaker.recordFailure_trip fun hc => by
      by_contra hlt
      exact h ⟨hc, Nat.lt_of_not_le hlt⟩]
    exact ⟨rfl, le_refl _, .inl rfl⟩

/-- It may be recorded twice. -/
theorem CircuitBreaker.Failed.again (h : cb.Failed cfg t cb') :
    cb.Failed cfg t (cb'.recordFailure cfg t) := by
  have hnext := failed_recordFailure cfg t cb'
  refine ⟨hnext.time, by have := h.count; have := hnext.count; omega, ?_⟩
  rcases hnext.state with hopen | ⟨hclosed, hstate⟩
  · exact .inl hopen
  · rcases h.state with hopen | ⟨hold, -⟩
    · rw [hopen] at hclosed
      cases hclosed
    · exact .inr ⟨hold, hstate⟩

/-- What is done to the breaker on the way to the failure does not matter. -/
theorem CircuitBreaker.Failed.from {cb₀ : CircuitBreaker} (h : cb.Failed cfg t cb')
    (hcount : cb.failureCount = cb₀.failureCount) (hstate : cb.state = .CLOSED → cb₀.state = .CLOSED) :
    cb₀.Failed cfg t cb' :=
  ⟨h.time, hcount ▸ h.count, h.state.imp_right fun hc => ⟨hstate hc.1, hc.2⟩⟩

theorem stateAt_closed {now : ℚ} (h : (cb.stateAt cfg now).state = .CLOSED) : cb.state = .CLOSED := by
  unfold CircuitBreaker.stateAt at h
  split at h
  · cases h
  · exact h

theorem enter_state (now : ℚ) (cb : CircuitBreaker) :
    (cb.enter cfg now).2.state = (cb.stateAt cfg now).state := by
  rw [← CircuitBreaker.enter_stateAt]
  unfold CircuitBreaker.enter
  have hread : ((cb.stateAt cfg now).canExecute cfg now).2 = cb.stateAt cfg now := by
    rw [CircuitBreaker.canExecute_snd, CircuitBreaker.stateAt_stateAt]
  split
  · rename_i cb₁ he
    rw [he] at hread
    rw [show cb₁ = cb.stateAt cfg now from hread]
  · rename_i cb₁ he
    rw [he] at hread
    rw [show cb₁ = cb.stateAt cfg now from hread]
    dsimp only
    rw [CircuitBreaker.stateAt_stateAt]
    split <;> rfl

/-- An admitted fetch that raises. -/
theorem executeFetch_fails (ht : ∀ x, a.fetch ≠ .tick x)
    (h : ((fc.circuitBreakers p.name).enter cfg a.startedAt).1 = true) :
    (fc.circuitBreakers p.name).Failed cfg a.endedAt
      ((executeFetch cfg a p fc).controller.circuitBreakers p.name) := by
  have hcount := @enter_failureCount cfg a.startedAt (fc.circuitBreakers p.name)
  have hstate := @enter_state cfg a.startedAt (fc.circuitBreakers p.name)
  unfold executeFetch
  split
  · rename_i he
    rw [he] at h
    cases h
  · rename_i cb he
    rw [he] at hcount hstate
    have honce : (fc.circuitBreakers p.name).Failed cfg a.endedAt (cb.recordFailure cfg a.endedAt) :=
      (failed_recordFailure cfg a.endedAt cb).from hcount fun hc => stateAt_closed (hstate ▸ hc)
    cases hf : a.fetch with
    | tick x => exact absurd hf (ht x)
    | providerError e => simpa [FailoverController.setBreaker] using honce
    | circuitOpenError m => simpa [FailoverController.setBreaker] using honce
    | exception m => simpa [FailoverController.setBreaker] using honce.again

/-- **What a failed attempt leaves of the breaker**, wherever it failed. -/
theorem attempt_failed (h : AttemptFails cfg req fc a p) :
    (fc.circuitBreakers p.name).Failed cfg a.endedAt
      ((tryProvider cfg req a p fc).controller.circuitBreakers p.name) := by
  have hsnd := @CircuitBreaker.canExecute_snd cfg a.checkedAt (fc.circuitBreakers p.name)
  have hcount : ((fc.circuitBreakers p.name).canExecute cfg a.checkedAt).2.failureCount =
      (fc.circuitBreakers p.name).failureCount := by rw [hsnd, stateAt_failureCount]
  have hstate : ((fc.circuitBreakers p.name).canExecute cfg a.checkedAt).2.state = .CLOSED →
      (fc.circuitBreakers p.name).state = .CLOSED := by
    rw [hsnd]
    exact stateAt_closed
  obtain ⟨hb, -⟩ | ⟨hc, ⟨m, hm⟩, -⟩ | ⟨hb, hc, fc', e, hcb, -⟩ := tryProvider_cases cfg a h.passes
  · rw [h.admitted] at hb
    cases hb
  · rw [tryProvider_not_connected h.toAdmitted hc hm]
    have honce := (failed_recordFailure cfg a.endedAt _).from hcount hstate
    simpa [FailoverController.setBreaker] using honce
  · have hin : ((fc'.circuitBreakers p.name).enter cfg a.startedAt).1 = true := by
      rw [hcb]
      exact enter_after_canExecute hb
    rw [e]
    refine (executeFetch_fails (h.fetch_ne_tick hc) hin).from ?_ ?_
    · rw [hcb, hcount]
    · rw [hcb]
      exact hstate

/-- A round that the filters skip or the breaker refuses leaves the breaker. -/
theorem tryProvider_not_admitted (h : ¬Admitted cfg req fc a p) :
    (tryProvider cfg req a p fc).controller.circuitBreakers p.name = fc.circuitBreakers p.name := by
  cases hf : filteredOut fc req p with
  | true => rw [tryProvider_filtered cfg a hf]
  | false =>
    have hrefused : ((fc.circuitBreakers p.name).canExecute cfg a.checkedAt).1 = false := by
      by_contra hb
      exact h ⟨hf, by simpa using hb⟩
    have hsnd := @CircuitBreaker.canExecute_snd cfg a.checkedAt (fc.circuitBreakers p.name)
    rw [stateAt_of_refused hrefused] at hsnd
    unfold tryProvider
    rw [if_neg (by simp [hf])]
    split
    · rename_i cb he
      rw [he] at hsnd
      simpa [FailoverController.setBreaker] using hsnd
    · rename_i cb he
      rw [he] at hrefused
      cases hrefused

/-- A call that does not come to a provider leaves its breaker. -/
theorem agree_of_not_round {n : String} (errors : List String)
    (h : ∀ x ∈ rounds cfg req env ps fc, n ≠ x.1.name) :
    AgreeAt n fc (cascade cfg req env ps fc errors).controller := by
  induction ps generalizing fc errors with
  | nil => exact AgreeAt.refl _ _
  | cons p ps ih =>
    cases ho : (tryProvider cfg req (env p.name) p fc).outcome with
    | answer x =>
      rw [rounds_answer ho] at h
      rw [cascade_answer ho]
      exact tryProvider_frame (h (p, fc) (List.mem_singleton_self _))
    | next e =>
      rw [rounds_next ho] at h
      rw [cascade_next ho]
      exact (tryProvider_frame (h (p, fc) List.mem_cons_self)).trans
        (ih (errors ++ e.toList) fun x hx => h x (List.mem_cons_of_mem _ hx))

end Failed

/-! ## 2. The calls -/

/-- A call of `fetch_quote`, what it meets, and when it returns. -/
structure SpacedCall where
  req : QuoteRequest
  env : String → Attempt
  returnsAt : ℚ

inductive StackAction where
  | fetchQuote (c : SpacedCall)
  | setEnabled (name : String) (enabled : Bool)
  /-- `list_status` and `health_check_all` read the property `state` of every breaker. -/
  | readStates (t : ℚ)

/-- `cb.state.value`, for every provider. -/
def FailoverController.readStates (cfg : BreakerConfig) (t : ℚ) (fc : FailoverController) :
    FailoverController :=
  fc.providers.foldl
    (fun fc p => fc.setBreaker p.name ((fc.circuitBreakers p.name).stateAt cfg t)) fc

/-- The attempt that a call makes at `p`: the cascade comes to it, and its breaker admits. -/
def attempted (cfg : BreakerConfig) (p : Provider) (c : SpacedCall) (fc : FailoverController) :
    Option Attempt :=
  if (rounds cfg c.req c.env fc.providers fc).any fun x => x.1.name = p.name &&
      !filteredOut x.2 c.req x.1 &&
      ((x.2.circuitBreakers x.1.name).canExecute cfg (c.env x.1.name).checkedAt).1 then
    some (c.env p.name)
  else none

/-- The times of a call: those of the providers lie between its start and its end. -/
def SpacedCall.InTime (c : SpacedCall) (now : ℚ) (fc : FailoverController) : Prop :=
  now ≤ c.returnsAt ∧ ∀ p ∈ fc.providers, now ≤ (c.env p.name).checkedAt ∧
    (c.env p.name).checkedAt ≤ (c.env p.name).startedAt ∧
    (c.env p.name).startedAt ≤ (c.env p.name).endedAt ∧ (c.env p.name).endedAt ≤ c.returnsAt

instance (c : SpacedCall) (now : ℚ) (fc : FailoverController) : Decidable (c.InTime now fc) := by
  unfold SpacedCall.InTime
  infer_instance

/-- The controller, the clock, and the attempts at one provider. -/
structure StackRun where
  failover : FailoverController
  clock : ℚ
  attempts : List Attempt := []

namespace StackRun

def step (cfg : BreakerConfig) (p : Provider) (s : StackRun) : StackAction → Option StackRun
  | .fetchQuote c =>
    if c.InTime s.clock s.failover then
      some {
        failover := (fetchQuote cfg c.req c.env s.failover).controller
        clock := c.returnsAt
        attempts := (attempted cfg p c s.failover).toList ++ s.attempts }
    else none
  | .setEnabled name enabled => some { s with failover := (s.failover.setEnabled name enabled).2 }
  | .readStates t =>
    if s.clock ≤ t then some { s with failover := s.failover.readStates cfg t, clock := t } else none

end StackRun

/-- The provider never returns a tick again. -/
def StackAction.Dead (p : Provider) : StackAction → Prop
  | .fetchQuote c => ∀ x, (c.env p.name).fetch ≠ .tick x
  | .setEnabled _ _ | .readStates _ => True

/-! ## 3. The invariant -/

/-- An attempt that has as many before it as the breaker, `c₀` failures counted at the start, puts up with
    starts more than the recovery timeout after the end of the last of these. -/
def Spaced (cfg : BreakerConfig) (c₀ : ℕ) (attempts : List Attempt) : Prop :=
  Along (fun b older => cfg.failureThreshold ≤ c₀ + older.length →
    ∀ a ∈ older.head?, a.endedAt + cfg.recoveryTimeout < b.checkedAt) attempts

/-- The breaker has room for failures, or is open since the newest attempt. -/
structure DeadInv (cfg : BreakerConfig) (p : Provider) (c₀ : ℕ) (t₀ : ℚ) (s : StackRun) : Prop where
  distinct : (s.failover.providers.map (·.name)).Nodup
  started : t₀ ≤ s.clock
  times : ∀ a ∈ s.attempts, t₀ ≤ a.checkedAt ∧ a.checkedAt ≤ a.endedAt ∧ a.endedAt ≤ s.clock
  spaced : Spaced cfg c₀ s.attempts
  breaker : ((s.failover.circuitBreakers p.name).state = .CLOSED ∧
      (s.failover.circuitBreakers p.name).failureCount < cfg.failureThreshold ∧
      c₀ + s.attempts.length ≤ (s.failover.circuitBreakers p.name).failureCount) ∨
    ∃ a older, s.attempts = a :: older ∧
      (s.failover.circuitBreakers p.name).lastFailureTime = a.endedAt ∧
      ((s.failover.circuitBreakers p.name).state = .OPEN ∨
        (s.failover.circuitBreakers p.name).state = .HALF_OPEN ∧
          a.endedAt + cfg.recoveryTimeout < s.clock)

section Dead

variable {cfg : BreakerConfig} {p : Provider} {c₀ : ℕ} {t₀ : ℚ} {s s' : StackRun} {c : SpacedCall}
  {fc : FailoverController}

theorem attempted_some {a : Attempt} (h : attempted cfg p c fc = some a) :
    a = c.env p.name ∧ ∃ x ∈ rounds cfg c.req c.env fc.providers fc, x.1.name = p.name ∧
      Admitted cfg c.req x.2 (c.env x.1.name) x.1 := by
  unfold attempted at h
  split at h
  · rename_i hany
    obtain ⟨x, hx, hcond⟩ := List.any_eq_true.mp hany
    simp only [Bool.and_eq_true, decide_eq_true_eq, Bool.not_eq_true'] at hcond
    exact ⟨(Option.some.inj h).symm, x, hx, hcond.1.1, hcond.1.2, hcond.2⟩
  · cases h

theorem attempted_none (h : attempted cfg p c fc = none) :
    ∀ x ∈ rounds cfg c.req c.env fc.providers fc, x.1.name = p.name →
      ¬Admitted cfg c.req x.2 (c.env x.1.name) x.1 := by
  intro x hx hname hadm
  have hadmitted := hadm.admitted
  rw [hname] at hadmitted
  unfold attempted at h
  rw [if_pos (List.any_eq_true.mpr ⟨x, hx, by simp [hname, hadm.passes, hadmitted]⟩)] at h
  cases h

/-- A call that makes no attempt leaves the breaker. -/
theorem not_attempted_breaker (hnd : (fc.providers.map (·.name)).Nodup)
    (h : attempted cfg p c fc = none) :
    (fetchQuote cfg c.req c.env fc).controller.circuitBreakers p.name = fc.circuitBreakers p.name := by
  unfold fetchQuote
  by_cases hround : ∃ x ∈ rounds cfg c.req c.env fc.providers fc, x.1.name = p.name
  · obtain ⟨x, hx, hname⟩ := hround
    obtain ⟨hbefore, hafter⟩ := agree_of_mem_rounds hnd [] hx
    rw [← hname, hafter.breaker,
      tryProvider_not_admitted (attempted_none h x hx hname), hbefore.breaker]
  · exact (agree_of_not_round [] fun x hx e => hround ⟨x, hx, e.symm⟩).breaker

/-- An attempt finds the breaker admitting, and leaves it failed. -/
theorem attempted_breaker (hnd : (fc.providers.map (·.name)).Nodup)
    (hdead : ∀ x, (c.env p.name).fetch ≠ .tick x) {a : Attempt} (h : attempted cfg p c fc = some a) :
    a = c.env p.name ∧ (∃ q ∈ fc.providers, q.name = p.name) ∧
      ((fc.circuitBreakers p.name).canExecute cfg a.checkedAt).1 = true ∧
      (fc.circuitBreakers p.name).Failed cfg a.endedAt
        ((fetchQuote cfg c.req c.env fc).controller.circuitBreakers p.name) := by
  obtain ⟨rfl, x, hx, hname, hadm⟩ := attempted_some h
  obtain ⟨hbefore, hafter⟩ := agree_of_mem_rounds hnd [] hx
  have hfails : AttemptFails cfg c.req x.2 (c.env x.1.name) x.1 := by
    refine ⟨hadm, ?_⟩
    by_cases hc : x.2.isConnected x.1.name = true ∨ (c.env x.1.name).connectError = none
    · exact .inr ⟨hc, hname ▸ hdead⟩
    · rw [not_or, Bool.not_eq_true] at hc
      exact .inl ⟨hc.1, Option.ne_none_iff_exists'.mp hc.2⟩
  have hfailed := attempt_failed hfails
  have hadmitted := hadm.admitted
  unfold fetchQuote
  rw [hbefore.breaker] at hadmitted hfailed
  rw [← hafter.breaker] at hfailed
  rw [hname] at hadmitted hfailed
  exact ⟨rfl, ⟨x.1, mem_of_mem_rounds hx, hname⟩, hadmitted, hfailed⟩

/-- An open breaker admits after the recovery timeout only. -/
theorem admits_due {cb : CircuitBreaker} {t : ℚ} (ho : cb.state = .OPEN)
    (h : (cb.canExecute cfg t).1 = true) : cb.lastFailureTime + cfg.recoveryTimeout < t := by
  by_contra hearly
  have hsame : cb.stateAt cfg t = cb := if_neg fun hd => hearly (by linarith [hd.2])
  simp [CircuitBreaker.canExecute, hsame, ho] at h

/-- **A call of `fetch_quote`.** -/
theorem fetchQuote_deadInv (h : DeadInv cfg p c₀ t₀ s) (hdead : ∀ x, (c.env p.name).fetch ≠ .tick x)
    (htime : c.InTime s.clock s.failover) :
    DeadInv cfg p c₀ t₀ {
      failover := (fetchQuote cfg c.req c.env s.failover).controller
      clock := c.returnsAt
      attempts := (attempted cfg p c s.failover).toList ++ s.attempts } := by
  have hdistinct : ((fetchQuote cfg c.req c.env s.failover).controller.providers.map
      (·.name)).Nodup := by
    unfold fetchQuote
    rw [(cascade_switches cfg c.req c.env s.failover.providers s.failover []).1]
    exact h.distinct
  have hold : ∀ a ∈ s.attempts, t₀ ≤ a.checkedAt ∧ a.checkedAt ≤ a.endedAt ∧ a.endedAt ≤ c.returnsAt :=
    fun a ha => ⟨(h.times a ha).1, (h.times a ha).2.1, (h.times a ha).2.2.trans htime.1⟩
  cases hatt : attempted cfg p c s.failover with
  | none =>
    refine ⟨hdistinct, h.started.trans htime.1, hold, h.spaced, ?_⟩
    dsimp only
    rw [not_attempted_breaker h.distinct hatt]
    refine h.breaker.imp_right fun hex => ?_
    obtain ⟨a, older, e, hlast, hstate⟩ := hex
    exact ⟨a, older, e, hlast, hstate.imp_right fun hh => ⟨hh.1, hh.2.trans_le htime.1⟩⟩
  | some a =>
    obtain ⟨rfl, ⟨q, hq, hname⟩, hadmitted, hfailed⟩ := attempted_breaker h.distinct hdead hatt
    obtain ⟨hchecked, hstarted, hended, hreturns⟩ := hname ▸ htime.2 q hq
    have hspaced : cfg.failureThreshold ≤ c₀ + s.attempts.length →
        ∀ a ∈ s.attempts.head?, a.endedAt + cfg.recoveryTimeout < (c.env p.name).checkedAt := by
      intro hmany a ha
      rcases h.breaker with ⟨-, hroom, hcount⟩ | ⟨a', older, e, hlast, hstate⟩
      · omega
      · rw [e] at ha
        cases ha
        rcases hstate with hopen | ⟨-, hdue⟩
        · rw [← hlast]
          exact admits_due hopen hadmitted
        · exact hdue.trans_le hchecked
    refine ⟨hdistinct, h.started.trans htime.1, fun a ha => ?_, ⟨hspaced, h.spaced⟩, ?_⟩
    · rcases List.mem_cons.mp ha with rfl | ha
      · exact ⟨h.started.trans hchecked, hstarted.trans hended, hreturns⟩
      · exact hold a ha
    · dsimp only
      rcases hfailed.state with hopen | ⟨hclosed, hstate⟩
      · exact .inr ⟨_, _, rfl, hfailed.time, .inl hopen⟩
      · rcases h.breaker with ⟨-, -, hcount⟩ | ⟨a', older, -, -, hnot⟩
        · refine .inl ⟨hstate.1, hstate.2, ?_⟩
          have hmore := hfailed.count
          simp only [Option.toList_some, List.singleton_append, List.length_cons]
          omega
        · rw [hclosed] at hnot
          rcases hnot with hopen | ⟨hhalf, -⟩
          · cases hopen
          · cases hhalf

/-- Reading the states reads each breaker at that time, or not at all. -/
theorem readStates_breaker (n : String) (t : ℚ) :
    (fc.readStates cfg t).circuitBreakers n = fc.circuitBreakers n ∨
      (fc.readStates cfg t).circuitBreakers n = (fc.circuitBreakers n).stateAt cfg t := by
  unfold FailoverController.readStates
  generalize fc.providers = ps
  induction ps generalizing fc with
  | nil => exact .inl rfl
  | cons q ps ih =>
    rw [List.foldl_cons]
    by_cases e : n = q.name
    · subst e
      have hread : (fc.setBreaker q.name ((fc.circuitBreakers q.name).stateAt cfg t)).circuitBreakers
          q.name = (fc.circuitBreakers q.name).stateAt cfg t := Function.update_self ..
      rcases @ih (fc.setBreaker q.name ((fc.circuitBreakers q.name).stateAt cfg t)) with h | h
      · exact .inr (h.trans hread)
      · refine .inr (h.trans ?_)
        rw [hread, CircuitBreaker.stateAt_stateAt]
    · have hother : (fc.setBreaker q.name ((fc.circuitBreakers q.name).stateAt cfg t)).circuitBreakers
          n = fc.circuitBreakers n := Function.update_of_ne e ..
      rcases @ih (fc.setBreaker q.name ((fc.circuitBreakers q.name).stateAt cfg t)) with h | h
      · exact .inl (h.trans hother)
      · exact .inr (by rw [h, hother])

theorem readStates_providers (t : ℚ) : (fc.readStates cfg t).providers = fc.providers := by
  have hfold : ∀ (ps : List Provider) (fc : FailoverController), (ps.foldl (fun fc p =>
      fc.setBreaker p.name ((fc.circuitBreakers p.name).stateAt cfg t)) fc).providers =
        fc.providers := by
    intro ps
    induction ps with
    | nil => exact fun _ => rfl
    | cons q ps ih => exact fun fc => ih _
  exact hfold fc.providers fc

/-- **The states are read.** -/
theorem readStates_deadInv {t : ℚ} (h : DeadInv cfg p c₀ t₀ s) (hle : s.clock ≤ t) :
    DeadInv cfg p c₀ t₀ { s with failover := s.failover.readStates cfg t, clock := t } := by
  refine ⟨by rw [readStates_providers]; exact h.distinct, h.started.trans hle,
    fun a ha => ⟨(h.times a ha).1, (h.times a ha).2.1, (h.times a ha).2.2.trans hle⟩, h.spaced, ?_⟩
  have hlater : ∀ cb, cb = s.failover.circuitBreakers p.name →
      (cb.state = .CLOSED ∧ cb.failureCount < cfg.failureThreshold ∧
          c₀ + s.attempts.length ≤ cb.failureCount) ∨
        ∃ a older, s.attempts = a :: older ∧ cb.lastFailureTime = a.endedAt ∧
          (cb.state = .OPEN ∨ cb.state = .HALF_OPEN ∧ a.endedAt + cfg.recoveryTimeout < t) := by
    rintro _ rfl
    refine h.breaker.imp_right fun hex => ?_
    obtain ⟨a, older, e, hlast, hstate⟩ := hex
    exact ⟨a, older, e, hlast, hstate.imp_right fun hh => ⟨hh.1, hh.2.trans_le hle⟩⟩
  dsimp only
  rcases readStates_breaker p.name t with e | e
  · exact hlater _ e
  · rw [e]
    by_cases hdue : (s.failover.circuitBreakers p.name).state = .OPEN ∧
        cfg.recoveryTimeout < t - (s.failover.circuitBreakers p.name).lastFailureTime
    · rw [CircuitBreaker.stateAt_of_due hdue.1 hdue.2]
      rcases h.breaker with ⟨hclosed, -⟩ | ⟨a, older, e, hlast, -⟩
      · rw [hclosed] at hdue
        cases hdue.1
      · exact .inr ⟨a, older, e, hlast, .inr ⟨rfl, by linarith [hdue.2]⟩⟩
    · exact hlater _ (if_neg hdue)

/-- **One step.** -/
theorem step_deadInv {a : StackAction} (h : DeadInv cfg p c₀ t₀ s) (hdead : a.Dead p)
    (hs : s.step cfg p a = some s') : DeadInv cfg p c₀ t₀ s' := by
  cases a with
  | fetchQuote c =>
    simp only [StackRun.step] at hs
    split at hs
    · rename_i htime
      cases hs
      exact fetchQuote_deadInv h hdead htime
    · cases hs
  | setEnabled name enabled =>
    cases hs
    exact ⟨h.distinct, h.started, h.times, h.spaced, h.breaker⟩
  | readStates t =>
    simp only [StackRun.step] at hs
    split at hs
    · rename_i hle
      cases hs
      exact readStates_deadInv h hle
    · cases hs

/-- **How many spaced attempts fit into a time**: each one beyond those the breaker puts up with takes
    a recovery timeout. -/
theorem attempts_budget {attempts : List Attempt} (hroom : c₀ < cfg.failureThreshold)
    (h : Spaced cfg c₀ attempts) {t₁ : ℚ}
    (htimes : ∀ a ∈ attempts, t₀ ≤ a.checkedAt ∧ a.checkedAt ≤ a.endedAt ∧ a.endedAt ≤ t₁)
    (hmany : cfg.failureThreshold ≤ c₀ + attempts.length) :
    ((c₀ + attempts.length : ℕ) - cfg.failureThreshold : ℚ) * cfg.recoveryTimeout ≤ t₁ - t₀ := by
  -- the newest attempt starts at least that long after the start
  have hnewest : ∀ l : List Attempt, Spaced cfg c₀ l →
      (∀ a ∈ l, t₀ ≤ a.checkedAt ∧ a.checkedAt ≤ a.endedAt ∧ a.endedAt ≤ t₁) →
      cfg.failureThreshold ≤ c₀ + l.length → ∀ b ∈ l.head?,
      ((c₀ + l.length : ℕ) - cfg.failureThreshold : ℚ) * cfg.recoveryTimeout ≤ b.checkedAt - t₀ := by
    intro l
    induction l with
    | nil => exact fun _ _ _ b hb => by cases hb
    | cons b older ih =>
      intro hspaced hin hmany b' hb'
      cases hb'
      obtain ⟨hgap, hrest⟩ := hspaced
      rcases Nat.lt_or_ge (c₀ + older.length) cfg.failureThreshold with hfew | hmore
      · have hexact : c₀ + (b :: older).length = cfg.failureThreshold := by
          simp only [List.length_cons] at hmany ⊢
          omega
        rw [hexact]
        have hstart := (hin b List.mem_cons_self).1
        linarith
      · obtain ⟨a, rest, rfl⟩ : ∃ a rest, older = a :: rest := by
          cases older with
          | nil =>
            simp only [List.length_nil] at hmore
            omega
          | cons a rest => exact ⟨a, rest, rfl⟩
        have hprev := ih hrest (fun x hx => hin x (List.mem_cons_of_mem _ hx)) hmore a rfl
        have hstep := hgap hmore a rfl
        have hlasts := (hin a (List.mem_cons_of_mem _ List.mem_cons_self)).2.1
        simp only [List.length_cons] at hprev ⊢
        push_cast at hprev ⊢
        linarith
  obtain ⟨b, older, rfl⟩ : ∃ b older, attempts = b :: older := by
    cases attempts with
    | nil =>
      simp only [List.length_nil] at hmany
      omega
    | cons b older => exact ⟨b, older, rfl⟩
  obtain ⟨-, hlast, hend⟩ := htimes b List.mem_cons_self
  have hb := hnewest _ h htimes hmany b rfl
  linarith

end Dead

/-! ## 4. Every run -/

/-- A request at `t` for a symbol that the archive provider does not have. -/
def missingAt (t : ℚ) : SpacedCall where
  req := { symbol := "GONE" }
  env _ := {
    checkedAt := t
    startedAt := t
    fetch := .providerError ⟨"nse_archive", "GONE not in NSE bhavcopy"⟩
    endedAt := t }
  returnsAt := t

theorem cbFailureThreshold_pos : 0 < 5 := by decide

theorem cbHalfOpenMaxCalls_pos : 0 < 3 := by decide

/-- With a threshold of 1 and a timeout of 5, the second of three requests makes no attempt. -/
def touchyBreaker : BreakerConfig :=
  .ofArgs
    { failureThreshold_pos := cbFailureThreshold_pos, halfOpenMaxCalls_pos := cbHalfOpenMaxCalls_pos }
    (some 1) (some 5)

def missingRun : List StackAction :=
  [.fetchQuote (missingAt 1), .readStates 2, .fetchQuote (missingAt 3), .fetchQuote (missingAt 10)]

end BharatTicker
