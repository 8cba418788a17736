/-
  File:      BharatTicker/Failover/OneFailure.lean
  Subject:   HOW OFTEN A FAILED ATTEMPT IS COUNTED. A failure of `connect` is recorded by the cascade,
             a failure of the fetch by `execute`; the last `except` clause of the cascade records once
             more what `execute` has recorded.

  * `rounds` -- the rounds one call makes, each with the controller it starts from;
    `cascade_controller`: the call ends with the controller of the last of them;
  * `FetchesFrom`, `AttemptFails` -- a provider that is fetched from, and one that was admitted and failed;
  * `tryProvider_failureCount` -- what a failed attempt adds to the count of its breaker;
  * `counted_once_iff` -- every failed attempt of a call is counted once exactly when no fetch raises
    an exception outside the two classes that are caught by name;
  * `fetchQuote_failureCount` -- the counts after the whole call, for providers of distinct names.
-/
import BharatTicker.Failover.Cascade

namespace BharatTicker

/-! ## 1. The rounds of a call -/

section Rounds

variable (cfg : BreakerConfig) (req : QuoteRequest) (env : String → Attempt)

/-- The rounds of the loop, up to the one that answers: the provider, and the controller as the loop
    comes to it. -/
def rounds : List Provider → FailoverController → List (Provider × FailoverController)
  | [], _ => []
  | p :: ps, fc =>
    let r := tryProvider cfg req (env p.name) p fc
    (p, fc) :: match r.outcome with
      | .answer _ => []
      | .next _ => rounds ps r.controller

variable {cfg req env} {fc : FailoverController} {p : Provider} {ps : List Provider}

theorem rounds_answer {t : TickData}
    (h : (tryProvider cfg req (env p.name) p fc).outcome = .answer t) :
    rounds cfg req env (p :: ps) fc = [(p, fc)] := by
  simp only [rounds, h]

theorem rounds_next {e : Option String}
    (h : (tryProvider cfg req (env p.name) p fc).outcome = .next e) :
    rounds cfg req env (p :: ps) fc =
      (p, fc) :: rounds cfg req env ps (tryProvider cfg req (env p.name) p fc).controller := by
  simp only [rounds, h]

/-- **A call ends with the controller of its last round.** -/
theorem cascade_controller (errors : List String) :
    (cascade cfg req env ps fc errors).controller =
      match (rounds cfg req env ps fc).getLast? with
      | some x => (tryProvider cfg req (env x.1.name) x.1 x.2).controller
      | none => fc := by
  induction ps generalizing fc errors with
  | nil => rfl
  | cons p ps ih =>
    cases ho : (tryProvider cfg req (env p.name) p fc).outcome with
    | answer t =>
      rw [cascade_answer ho, rounds_answer ho]
      rfl
    | next e =>
      rw [cascade_next ho, rounds_next ho, List.getLast?_cons]
      dsimp only
      rw [ih]
      cases (rounds cfg req env ps (tryProvider cfg req (env p.name) p fc).controller).getLast? <;> rfl

theorem mem_of_mem_rounds {x : Provider × FailoverController} (hx : x ∈ rounds cfg req env ps fc) :
    x.1 ∈ ps := by
  induction ps generalizing fc with
  | nil => cases hx
  | cons p ps ih =>
    cases ho : (tryProvider cfg req (env p.name) p fc).outcome with
    | answer t =>
      rw [rounds_answer ho, List.mem_singleton] at hx
      rw [hx]
      exact List.mem_cons_self
    | next e =>
      rw [rounds_next ho] at hx
      rcases List.mem_cons.mp hx with rfl | hx
      · exact List.mem_cons_self
      · exact List.mem_cons_of_mem p (ih hx)

/-- With distinct names, a round finds its provider as the call found it, and the call leaves the
    breaker as the round left it. -/
theorem agree_of_mem_rounds (hnd : (ps.map (·.name)).Nodup) (errors : List String)
    {x : Provider × FailoverController} (hx : x ∈ rounds cfg req env ps fc) :
    AgreeAt x.1.name fc x.2 ∧
      AgreeAt x.1.name (tryProvider cfg req (env x.1.name) x.1 x.2).controller
        (cascade cfg req env ps fc errors).controller := by
  induction ps generalizing fc errors with
  | nil => cases hx
  | cons p ps ih =>
    cases ho : (tryProvider cfg req (env p.name) p fc).outcome with
    | answer t =>
      rw [rounds_answer ho, List.mem_singleton] at hx
      subst hx
      rw [cascade_answer ho]
      exact ⟨AgreeAt.refl _ _, AgreeAt.refl _ _⟩
    | next e =>
      rw [rounds_next ho] at hx
      rw [cascade_next ho]
      rcases List.mem_cons.mp hx with rfl | hx
      · exact ⟨AgreeAt.refl _ _, cascade_frame_of_not_mem fun q hq => (name_ne_head hnd hq).symm⟩
      · obtain ⟨hbefore, hafter⟩ := ih (List.nodup_cons.mp hnd).2 (errors ++ e.toList) hx
        exact ⟨(tryProvider_frame (name_ne_head hnd (mem_of_mem_rounds hx))).trans hbefore, hafter⟩

end Rounds

/-! ## 2. Failed attempts -/

section Attempts

variable (cfg : BreakerConfig) (req : QuoteRequest) (fc : FailoverController) (a : Attempt)
  (p : Provider)

/-- The filters let the provider pass and its breaker admits. -/
structure Admitted : Prop where
  passes : filteredOut fc req p = false
  admitted : ((fc.circuitBreakers p.name).canExecute cfg a.checkedAt).1 = true

/-- The provider is admitted and fetched from. -/
structure FetchesFrom : Prop extends Admitted cfg req fc a p where
  connects : fc.isConnected p.name = true ∨ a.connectError = none

/-- The provider is admitted, and its connection is not made or its fetch raises. -/
structure AttemptFails : Prop extends Admitted cfg req fc a p where
  fails : (fc.isConnected p.name = false ∧ ∃ m, a.connectError = some m) ∨
    (fc.isConnected p.name = true ∨ a.connectError = none) ∧ ∀ t, a.fetch ≠ .tick t

end Attempts

/-- What an `execute` adds to the failure count: a failure that the last `except` clause sees is counted
    twice. -/
def FetchOutcome.recorded : FetchOutcome → ℕ
  | .tick _ => 0
  | .providerError _ | .circuitOpenError _ => 1
  | .exception _ => 2

section Count

variable {cfg : BreakerConfig} {req : QuoteRequest} {fc : FailoverController} {a : Attempt}
  {p : Provider}

theorem stateAt_failureCount (now : ℚ) (cb : CircuitBreaker) :
    (cb.stateAt cfg now).failureCount = cb.failureCount := by
  unfold CircuitBreaker.stateAt
  split <;> rfl

theorem enter_failureCount (now : ℚ) (cb : CircuitBreaker) :
    (cb.enter cfg now).2.failureCount = cb.failureCount := by
  unfold CircuitBreaker.enter
  have hread : (cb.canExecute cfg now).2.failureCount = cb.failureCount := by
    rw [CircuitBreaker.canExecute_snd, stateAt_failureCount]
  split
  · rename_i cb' he
    rw [he] at hread
    exact hread
  · rename_i cb' he
    rw [he] at hread
    have hagain : (cb'.stateAt cfg now).failureCount = cb.failureCount :=
      (stateAt_failureCount now cb').trans hread
    dsimp only
    split <;> exact hagain

/-- An admitted fetch that raises. -/
theorem executeFetch_failureCount (ht : ∀ t, a.fetch ≠ .tick t)
    (h : ((fc.circuitBreakers p.name).enter cfg a.startedAt).1 = true) :
    ((executeFetch cfg a p fc).controller.circuitBreakers p.name).failureCount =
      (fc.circuitBreakers p.name).failureCount + a.fetch.recorded := by
  have henter : ((fc.circuitBreakers p.name).enter cfg a.startedAt).2.failureCount =
      (fc.circuitBreakers p.name).failureCount := enter_failureCount _ _
  rw [← henter]
  unfold executeFetch
  split
  · rename_i he
    rw [he] at h
    cases h
  · rename_i cb he
    rw [he]
    cases hf : a.fetch with
    | tick t => exact absurd hf (ht t)
    | providerError e =>
      simp [FailoverController.setBreaker, FetchOutcome.recorded]
    | circuitOpenError m =>
      simp [FailoverController.setBreaker, FetchOutcome.recorded]
    | exception m =>
      simp [FailoverController.setBreaker, FetchOutcome.recorded]

/-- A provider that is admitted and does not connect: the cascade records the failure. -/
theorem tryProvider_not_connected {m : String} (h : Admitted cfg req fc a p)
    (hc : fc.isConnected p.name = false) (hm : a.connectError = some m) :
    tryProvider cfg req a p fc =
      ⟨fc.setBreaker p.name
        (((fc.circuitBreakers p.name).canExecute cfg a.checkedAt).2.recordFailure cfg a.endedAt),
        false, .next none⟩ := by
  unfold tryProvider
  rw [if_neg (by simp [h.passes])]
  split
  · rename_i cb he
    have hadm := h.admitted
    rw [he] at hadm
    cases hadm
  · rename_i cb he
    have hcon : ¬ (fc.setBreaker p.name cb).isConnected p.name = true := by
      change ¬ fc.isConnected p.name = true
      simp [hc]
    dsimp only
    rw [if_neg hcon, hm, he]
    simp [FailoverController.setBreaker]

/-- A failed attempt that connects fails in its fetch. -/
theorem AttemptFails.fetch_ne_tick (h : AttemptFails cfg req fc a p)
    (hc : fc.isConnected p.name = true ∨ a.connectError = none) (t : TickData) :
    a.fetch ≠ .tick t := by
  rcases h.fails with ⟨hc', m, hm⟩ | ⟨-, hfetch⟩
  · rcases hc with hc | hc
    · rw [hc'] at hc
      cases hc
    · rw [hm] at hc
      cases hc
  · exact hfetch t

/-- **What a failed attempt adds to the count of its breaker**: one when it fails to connect, and what its
    fetch is worth otherwise. -/
theorem tryProvider_failureCount (h : AttemptFails cfg req fc a p) :
    ((tryProvider cfg req a p fc).controller.circuitBreakers p.name).failureCount =
      (fc.circuitBreakers p.name).failureCount +
        if fc.isConnected p.name = true ∨ a.connectError = none then a.fetch.recorded else 1 := by
  have hcount : ((fc.circuitBreakers p.name).canExecute cfg a.checkedAt).2.failureCount =
      (fc.circuitBreakers p.name).failureCount := by
    rw [CircuitBreaker.canExecute_snd, stateAt_failureCount]
  obtain ⟨hb, -⟩ | ⟨hc, ⟨m, hm⟩, -⟩ | ⟨hb, hc, fc', e, hcb, -⟩ := tryProvider_cases cfg a h.passes
  · rw [h.admitted] at hb
    cases hb
  · rw [if_neg (by simp [hc, hm]), tryProvider_not_connected h.toAdmitted hc hm, ← hcount]
    simp [FailoverController.setBreaker]
  · have hin : ((fc'.circuitBreakers p.name).enter cfg a.startedAt).1 = true := by
      rw [hcb]
      exact enter_after_canExecute hb
    rw [if_pos hc, e, executeFetch_failureCount (h.fetch_ne_tick hc) hin, hcb, hcount]

/-! ## 3. A whole call -/

variable {env : String → Attempt}

/-- Every failed attempt of the call has been counted once by the breaker of its provider. -/
def CountedOnce (cfg : BreakerConfig) (req : QuoteRequest) (env : String → Attempt)
    (fc : FailoverController) : Prop :=
  ∀ x ∈ rounds cfg req env fc.providers fc, AttemptFails cfg req x.2 (env x.1.name) x.1 →
    ((tryProvider cfg req (env x.1.name) x.1 x.2).controller.circuitBreakers x.1.name).failureCount =
      (x.2.circuitBreakers x.1.name).failureCount + 1

/-- **When failed attempts are counted once.** Exactly when no provider the call fetches from raises an
    exception that is neither a `ProviderError` nor a `CircuitOpenError`. -/
theorem counted_once_iff (cfg : BreakerConfig) (req : QuoteRequest) (env : String → Attempt)
    (fc : FailoverController) :
    CountedOnce cfg req env fc ↔
      ∀ x ∈ rounds cfg req env fc.providers fc, FetchesFrom cfg req x.2 (env x.1.name) x.1 →
        ∀ m, (env x.1.name).fetch ≠ .exception m := by
  refine forall_congr' fun x => imp_congr_right fun _ => ?_
  constructor
  · intro honce hreach m hm
    have hfails : AttemptFails cfg req x.2 (env x.1.name) x.1 :=
      ⟨hreach.toAdmitted, .inr ⟨hreach.connects, fun t ht => by rw [hm] at ht; cases ht⟩⟩
    have hcount := honce hfails
    rw [tryProvider_failureCount hfails, if_pos hreach.connects, hm] at hcount
    exact absurd hcount (by simp [FetchOutcome.recorded])
  · intro hno hfails
    rw [tryProvider_failureCount hfails]
    split_ifs with hc
    · have hne := hno ⟨hfails.toAdmitted, hc⟩
      cases hf : (env x.1.name).fetch with
      | tick t => exact absurd hf (hfails.fetch_ne_tick hc t)
      | providerError e => rfl
      | circuitOpenError m => rfl
      | exception m => exact absurd hf (hne m)
    · rfl

/-- **The counts after the whole call**, for providers of distinct names: a failed attempt has added to
    the count of its breaker what it is worth. -/
theorem fetchQuote_failureCount (hnd : (fc.providers.map (·.name)).Nodup)
    {x : Provider × FailoverController} (hx : x ∈ rounds cfg req env fc.providers fc)
    (h : AttemptFails cfg req x.2 (env x.1.name) x.1) :
    ((fetchQuote cfg req env fc).controller.circuitBreakers x.1.name).failureCount =
      (fc.circuitBreakers x.1.name).failureCount +
        if fc.isConnected x.1.name = true ∨ (env x.1.name).connectError = none then
          (env x.1.name).fetch.recorded
        else 1 := by
  obtain ⟨hbefore, hafter⟩ := agree_of_mem_rounds hnd [] hx
  unfold fetchQuote
  rw [hafter.breaker, tryProvider_failureCount h, hbefore.breaker, hbefore.connected]

end Count

/-- The archive provider alone, connected. -/
def archiveOnly : FailoverController :=
  (FailoverController.registerAll {} [nseArchiveProvider]).setConnected "nse_archive" true

/-- The row of the symbol cannot be parsed, outside of any `try`. -/
def unparsedRow : Attempt where
  checkedAt := 1
  startedAt := 1
  fetch := .exception "Unexpected error"
  endedAt := 2

/-- **An exception of another class is counted twice.** -/
theorem unparsed_row_counted_twice :
    ¬ CountedOnce (.ofArgs {}) { symbol := "RELIANCE" } (fun _ => unparsedRow) archiveOnly ∧
      ((fetchQuote (.ofArgs {}) { symbol := "RELIANCE" } (fun _ => unparsedRow)
        archiveOnly).controller.circuitBreakers "nse_archive").failureCount = 2 := by
  constructor
  · intro h
    have hfails : AttemptFails (.ofArgs {}) { symbol := "RELIANCE" } archiveOnly unparsedRow
        nseArchiveProvider :=
      ⟨⟨by decide, by decide⟩, .inr ⟨.inl (by decide), nofun⟩⟩
    have hmem : (nseArchiveProvider, archiveOnly) ∈ rounds (.ofArgs {}) { symbol := "RELIANCE" }
        (fun _ => unparsedRow) archiveOnly.providers archiveOnly := by
      rw [show archiveOnly.providers = [nseArchiveProvider] by decide]
      exact List.mem_cons_self
    have hcount := h _ hmem hfails
    revert hcount
    decide
  · decide

end BharatTicker
