/-
  File:      BharatTicker/Failover/Bulk.lean
  Subject:   BULK QUOTES OF THE CONTROLLER (`engine/failover.py`: `fetch_bulk`), AND WHO IS ASKED.

  `fetch_bulk` asks the providers in order for all symbols at once, and fetches what is left symbol
  by symbol. Its loop skips a provider whose breaker rejects or that is not connected; unlike
  `fetch_quote` it does not look at the switches.

  * `bulkRound`, `bulkLoop`, `fetchEach`, `fetchBulk` -- the call;
  * `ControllerAction`, `step`, `consulted` -- registrations, switches and calls in any order;
  * `Reaches`, `EnabledAlong` -- the providers the loop comes to, and the condition on them;
  * `disabled_never_consulted_iff` -- all histories; `disabled_bulk_consulted` -- one without it.
-/
import BharatTicker.Basis.Run
import BharatTicker.Failover.Cascade

namespace BharatTicker

open Basis

/-! ## 1. One call of `fetch_bulk` -/

/-- What `await provider.fetch_bulk(symbols)` ends in. -/
inductive BulkOutcome where
  | ticks (ts : List TickData)
  | exception (message : String)
  deriving DecidableEq, Repr

/-- What the bulk loop meets at one provider. -/
structure BulkAttempt where
  checkedAt : ℚ
  startedAt : ℚ
  fetch : BulkOutcome
  endedAt : ℚ

/-- The controller after one round, whether the provider was asked, and the ticks it returned. -/
structure BulkRound where
  controller : FailoverController
  asked : Bool
  ticks : List TickData

/-- The controller after the loop, the providers asked in order, and the ticks of the last one. -/
structure BulkLoop where
  controller : FailoverController
  asked : List Provider
  ticks : List TickData

/-- The controller after a call, the providers that were fetched from, and what the call returns and
    logs. -/
structure BulkResult where
  controller : FailoverController
  consulted : List Provider
  results : List TickData
  failed : List String

/-- The arguments of `fetch_bulk` and what it meets: at a provider in the bulk loop, and at a
    provider for the n-th symbol that is fetched alone. -/
structure BulkCall where
  symbols : List String
  bulk : String → BulkAttempt
  single : ℕ → String → Attempt

section Call

variable (cfg : BreakerConfig)

/-- One round of the bulk loop. -/
def bulkRound (a : BulkAttempt) (p : Provider) (fc : FailoverController) : BulkRound :=
  match (fc.circuitBreakers p.name).canExecute cfg a.checkedAt with
  | (false, cb) => ⟨fc.setBreaker p.name cb, false, []⟩
  | (true, cb) =>
    let fc := fc.setBreaker p.name cb
    if fc.isConnected p.name then
      match cb.enter cfg a.startedAt with
      | (false, cb) => ⟨fc.setBreaker p.name cb, false, []⟩
      | (true, cb) =>
        match a.fetch with
        | .ticks ts => ⟨fc.setBreaker p.name (cb.recordSuccess cfg), true, ts⟩
        | .exception _ => ⟨fc.setBreaker p.name (cb.recordFailure cfg a.endedAt), true, []⟩
    else ⟨fc, false, []⟩

/-- The bulk loop over the providers that are left: up to the first that returns ticks. -/
def bulkLoop (bulk : String → BulkAttempt) : List Provider → FailoverController → BulkLoop
  | [], fc => ⟨fc, [], []⟩
  | p :: ps, fc =>
    let r := bulkRound cfg (bulk p.name) p fc
    if r.ticks ≠ [] then ⟨r.controller, [p], r.ticks⟩
    else
      let rest := bulkLoop bulk ps r.controller
      { rest with asked := if r.asked then p :: rest.asked else rest.asked }

/-- `fetch_quote` for one symbol after another; `n` symbols have been fetched before. -/
def fetchEach (single : ℕ → String → Attempt) : ℕ → List String → FailoverController → BulkResult
  | _, [], fc => ⟨fc, [], [], []⟩
  | n, s :: symbols, fc =>
    let r := fetchQuote cfg { symbol := s } (single n) fc
    let rest := fetchEach single (n + 1) symbols r.controller
    { rest with
      consulted := r.fetched ++ rest.consulted
      results := (match r.result with
        | .ok t => [t]
        | .error _ => []) ++ rest.results
      failed := (match r.result with
        | .ok _ => []
        | .error _ => [s]) ++ rest.failed }

/-- `fetch_bulk`. -/
def fetchBulk (call : BulkCall) (fc : FailoverController) : BulkResult :=
  let l := bulkLoop cfg call.bulk fc.providers fc
  let remaining := if l.ticks = [] then call.symbols
    else call.symbols.filter fun s => s ∉ l.ticks.map (·.symbol)
  let rest := fetchEach cfg call.single 0 remaining l.controller
  { rest with consulted := l.asked ++ rest.consulted, results := l.ticks ++ rest.results }

/-! ## 2. Histories -/

/-- What is done to the controller. Connections come and go at any time. -/
inductive ControllerAction where
  | registerProvider (p : Provider)
  | setEnabled (name : String) (enabled : Bool)
  | connection (name : String) (isConnected : Bool)
  | fetchQuote (req : QuoteRequest) (env : String → Attempt)
  | fetchBulk (call : BulkCall)

namespace ControllerAction

def step (fc : FailoverController) : ControllerAction → Option FailoverController
  | registerProvider p => some (fc.registerProvider p)
  | setEnabled name enabled => some (fc.setEnabled name enabled).2
  | connection name c => some (fc.setConnected name c)
  | fetchQuote req env => some (BharatTicker.fetchQuote cfg req env fc).controller
  | fetchBulk call => some (BharatTicker.fetchBulk cfg call fc).controller

/-- The providers whose `fetch_quote` or `fetch_bulk` the action invokes, in order. -/
def consulted (fc : FailoverController) : ControllerAction → List Provider
  | fetchQuote req env => (BharatTicker.fetchQuote cfg req env fc).fetched
  | fetchBulk call => (BharatTicker.fetchBulk cfg call fc).consulted
  | _ => []

end ControllerAction

end Call

/-! ## 3. Whom a call asks -/

section Asked

variable {cfg : BreakerConfig} {fc : FailoverController}

/-- No call moves a switch: "enabled at that moment" is "enabled at the call". -/
theorem bulkRound_switches (a : BulkAttempt) (p : Provider) (fc : FailoverController) :
    (bulkRound cfg a p fc).controller.providers = fc.providers ∧
      (bulkRound cfg a p fc).controller.enabled = fc.enabled := by
  unfold bulkRound
  split
  · exact ⟨rfl, rfl⟩
  · dsimp only
    split
    · split
      · exact ⟨rfl, rfl⟩
      · split <;> exact ⟨rfl, rfl⟩
    · exact ⟨rfl, rfl⟩

theorem bulkLoop_switches (bulk : String → BulkAttempt) (ps : List Provider)
    (fc : FailoverController) :
    (bulkLoop cfg bulk ps fc).controller.providers = fc.providers ∧
      (bulkLoop cfg bulk ps fc).controller.enabled = fc.enabled := by
  induction ps generalizing fc with
  | nil => exact ⟨rfl, rfl⟩
  | cons p ps ih =>
    obtain ⟨hproviders, henabled⟩ := ih (bulkRound cfg (bulk p.name) p fc).controller
    have hround := @bulkRound_switches cfg (bulk p.name) p fc
    unfold bulkLoop
    dsimp only
    split
    · exact hround
    · exact ⟨hproviders.trans hround.1, henabled.trans hround.2⟩

theorem fetchEach_enabled (single : ℕ → String → Attempt) (n : ℕ) (symbols : List String)
    (fc : FailoverController) :
    (fetchEach cfg single n symbols fc).controller.enabled = fc.enabled := by
  induction symbols generalizing n fc with
  | nil => rfl
  | cons s symbols ih =>
    exact (ih (n + 1) _).trans (cascade_switches cfg { symbol := s } (single n) _ fc []).2

theorem fetchBulk_enabled (call : BulkCall) (fc : FailoverController) :
    (fetchBulk cfg call fc).controller.enabled = fc.enabled :=
  (fetchEach_enabled call.single 0 _ _).trans (bulkLoop_switches call.bulk fc.providers fc).2

/-- **The cascade fetches from enabled providers only.** -/
theorem cascade_fetched_enabled {req : QuoteRequest} {env : String → Attempt} {ps : List Provider}
    {errors : List String} :
    ∀ p ∈ (cascade cfg req env ps fc errors).fetched, fc.enabled p.name = true := by
  induction ps generalizing fc errors with
  | nil =>
    intro p hp
    cases hp
  | cons c ps ih =>
    have hround : (tryProvider cfg req (env c.name) c fc).fetched = true →
        fc.enabled c.name = true := by
      intro hfetched
      cases hf : filteredOut fc req c with
      | true =>
        rw [tryProvider_filtered cfg (env c.name) hf] at hfetched
        cases hfetched
      | false => exact (filteredOut_eq_false.1 hf).1
    cases ho : (tryProvider cfg req (env c.name) c fc).outcome with
    | answer t =>
      rw [cascade_answer ho]
      intro p hp
      rw [List.mem_singleton.mp hp]
      exact (tryProvider_answer.1 ho).enabled
    | next e =>
      rw [cascade_next ho]
      intro p hp
      have hrest : ∀ q ∈ (cascade cfg req env ps (tryProvider cfg req (env c.name) c fc).controller
          (errors ++ e.toList)).fetched, fc.enabled q.name = true := by
        intro q hq
        have henabled : (tryProvider cfg req (env c.name) c fc).controller.enabled = fc.enabled :=
          tryProvider_switches.2
        rw [← henabled]
        exact ih q hq
      dsimp only at hp
      split at hp
      · rename_i hfetched
        rcases List.mem_cons.mp hp with rfl | hp
        · exact hround hfetched
        · exact hrest p hp
      · exact hrest p hp

theorem fetchEach_consulted_enabled {single : ℕ → String → Attempt} {n : ℕ}
    {symbols : List String} :
    ∀ p ∈ (fetchEach cfg single n symbols fc).consulted, fc.enabled p.name = true := by
  induction symbols generalizing n fc with
  | nil =>
    intro p hp
    cases hp
  | cons s symbols ih =>
    intro p hp
    rcases List.mem_append.mp hp with hp | hp
    · exact cascade_fetched_enabled p hp
    · rw [← (cascade_switches cfg { symbol := s } (single n) fc.providers fc []).2]
      exact ih p hp

/-- The bulk loop over `ps` comes to `p`, the controller then being `fc'`: nobody before it has
    returned ticks. -/
inductive Reaches (cfg : BreakerConfig) (bulk : String → BulkAttempt) :
    List Provider → FailoverController → Provider → FailoverController → Prop
  | here (p : Provider) (ps : List Provider) (fc : FailoverController) :
    Reaches cfg bulk (p :: ps) fc p fc
  | next {c : Provider} {ps : List Provider} {fc : FailoverController} {p : Provider}
      {fc' : FailoverController} (hno : (bulkRound cfg (bulk c.name) c fc).ticks = [])
      (h : Reaches cfg bulk ps (bulkRound cfg (bulk c.name) c fc).controller p fc') :
    Reaches cfg bulk (c :: ps) fc p fc'

/-- A round asks a provider exactly when its breaker admits and it is connected. -/
theorem bulkRound_asked {a : BulkAttempt} {p : Provider} :
    (bulkRound cfg a p fc).asked = true ↔
      ((fc.circuitBreakers p.name).canExecute cfg a.checkedAt).1 = true ∧
        fc.isConnected p.name = true := by
  unfold bulkRound
  split
  · rename_i cb he
    rw [he]
    simp
  · rename_i cb he
    rw [he]
    dsimp only
    by_cases hc : fc.isConnected p.name = true
    · have hin : (cb.enter cfg a.startedAt).1 = true := by
        have hallowed : ((fc.circuitBreakers p.name).canExecute cfg a.checkedAt).1 = true := by
          rw [he]
        have hthen : (((fc.circuitBreakers p.name).canExecute cfg a.checkedAt).2.enter cfg
            a.startedAt).1 = true :=
          enter_after_canExecute hallowed
        rwa [he] at hthen
      rw [if_pos (show (fc.setBreaker p.name cb).isConnected p.name = true from hc)]
      split
      · rename_i he'
        rw [he'] at hin
        cases hin
      · split <;> simp [hc]
    · rw [if_neg (show ¬ (fc.setBreaker p.name cb).isConnected p.name = true from hc)]
      simp [hc]

/-- Only a provider that was asked has returned ticks. -/
theorem bulkRound_ticks {a : BulkAttempt} {p : Provider} (h : (bulkRound cfg a p fc).ticks ≠ []) :
    (bulkRound cfg a p fc).asked = true := by
  unfold bulkRound at h ⊢
  split at h
  · exact absurd rfl h
  · dsimp only at h ⊢
    split at h
    · rename_i hc
      rw [if_pos hc]
      split at h
      · exact absurd rfl h
      · split at h
        · rfl
        · exact absurd rfl h
    · exact absurd rfl h

/-- **The loop asks those providers that it comes to, admitted and connected.** -/
theorem mem_bulkLoop_asked {bulk : String → BulkAttempt} {ps : List Provider} {p : Provider} :
    p ∈ (bulkLoop cfg bulk ps fc).asked ↔
      ∃ fc', Reaches cfg bulk ps fc p fc' ∧ (bulkRound cfg (bulk p.name) p fc').asked = true := by
  induction ps generalizing fc with
  | nil =>
    constructor
    · intro h
      cases h
    · rintro ⟨fc', h, -⟩
      cases h
  | cons c ps ih =>
    unfold bulkLoop
    dsimp only
    by_cases hticks : (bulkRound cfg (bulk c.name) c fc).ticks ≠ []
    · rw [if_pos hticks, List.mem_singleton]
      constructor
      · rintro rfl
        exact ⟨fc, Reaches.here p ps fc, bulkRound_ticks hticks⟩
      · rintro ⟨fc', h, -⟩
        cases h with
        | here => rfl
        | next hno h => exact absurd hno hticks
    · rw [if_neg hticks]
      have hno : (bulkRound cfg (bulk c.name) c fc).ticks = [] := not_not.mp hticks
      have hmem : p ∈ (if (bulkRound cfg (bulk c.name) c fc).asked = true then
            c :: (bulkLoop cfg bulk ps (bulkRound cfg (bulk c.name) c fc).controller).asked
          else (bulkLoop cfg bulk ps (bulkRound cfg (bulk c.name) c fc).controller).asked) ↔
          (p = c ∧ (bulkRound cfg (bulk c.name) c fc).asked = true) ∨
          p ∈ (bulkLoop cfg bulk ps (bulkRound cfg (bulk c.name) c fc).controller).asked := by
        split
        · rename_i hasked
          simp [hasked]
        · rename_i hasked
          simp [hasked]
      rw [hmem, ih]
      constructor
      · rintro (⟨rfl, hasked⟩ | ⟨fc', h, hasked⟩)
        · exact ⟨fc, Reaches.here p ps fc, hasked⟩
        · exact ⟨fc', Reaches.next hno h, hasked⟩
      · rintro ⟨fc', h, hasked⟩
        cases h with
        | here => exact .inl ⟨rfl, hasked⟩
        | next _ h => exact .inr ⟨fc', h, hasked⟩

end Asked

/-! ## 4. All histories -/

/-- The providers that an action consults are enabled. -/
def Respects (cfg : BreakerConfig) (fc : FailoverController) (a : ControllerAction) : Prop :=
  ∀ p ∈ a.consulted cfg fc, fc.enabled p.name = true

/-- **The condition.** Every provider that the bulk loop comes to, connected and admitted by its
    breaker, is enabled. -/
def EnabledAlong (cfg : BreakerConfig) (fc : FailoverController) : ControllerAction → Prop
  | .fetchBulk call => ∀ p fc', Reaches cfg call.bulk fc.providers fc p fc' →
      ((fc'.circuitBreakers p.name).canExecute cfg (call.bulk p.name).checkedAt).1 = true →
      fc'.isConnected p.name = true → fc.enabled p.name = true
  | _ => True

/-- **One action** consults enabled providers exactly when it meets the condition. -/
theorem respects_iff {cfg : BreakerConfig} {fc : FailoverController} {a : ControllerAction} :
    Respects cfg fc a ↔ EnabledAlong cfg fc a := by
  cases a with
  | fetchBulk call =>
    have hsplit : Respects cfg fc (.fetchBulk call) ↔
        ∀ p ∈ (bulkLoop cfg call.bulk fc.providers fc).asked, fc.enabled p.name = true := by
      refine List.forall_mem_append.trans (and_iff_left ?_)
      intro p hp
      have henabled : (bulkLoop cfg call.bulk fc.providers fc).controller.enabled = fc.enabled :=
        (bulkLoop_switches call.bulk fc.providers fc).2
      rw [← henabled]
      exact fetchEach_consulted_enabled p hp
    rw [hsplit]
    constructor
    · intro h p fc' hreach hallowed hconn
      exact h p (mem_bulkLoop_asked.2 ⟨fc', hreach, bulkRound_asked.2 ⟨hallowed, hconn⟩⟩)
    · intro h p hp
      obtain ⟨fc', hreach, hasked⟩ := mem_bulkLoop_asked.1 hp
      obtain ⟨hallowed, hconn⟩ := bulkRound_asked.1 hasked
      exact h p fc' hreach hallowed hconn
  | fetchQuote req env => exact iff_of_true cascade_fetched_enabled trivial
  | registerProvider p => exact iff_of_true (fun p hp => by cases hp) trivial
  | setEnabled name enabled => exact iff_of_true (fun p hp => by cases hp) trivial
  | connection name c => exact iff_of_true (fun p hp => by cases hp) trivial

/-- **A disabled provider is never consulted in exactly those histories** in which no bulk loop comes
    to one that is disabled, connected and admitted. -/
theorem disabled_never_consulted_iff (cfg : BreakerConfig) (actions : List ControllerAction) :
    StepsMeet (ControllerAction.step cfg) (Respects cfg) {} actions ↔
      StepsMeet (ControllerAction.step cfg) (EnabledAlong cfg) {} actions :=
  stepsMeet_congr (J := fun _ => True) (fun _ _ _ _ _ => trivial) (fun _ _ _ => respects_iff) trivial

/-- Groww answers RELIANCE in bulk. -/
def relianceBulk : BulkCall where
  symbols := ["RELIANCE"]
  bulk := fun _ =>
    { checkedAt := 0, startedAt := 0, endedAt := 0
      fetch := .ticks [{ symbol := "RELIANCE", exchange := .NSE, ltp := 2450, source := "groww" }] }
  single := fun _ _ => { checkedAt := 0, startedAt := 0, fetch := .exception "timeout", endedAt := 0 }

/-- Groww is connected, switched off, and asked. -/
theorem disabled_bulk_consulted :
    ¬ StepsMeet (ControllerAction.step (.ofArgs {})) (Respects (.ofArgs {})) {}
      [.registerProvider growwProvider, .connection "groww" true, .setEnabled "groww" false,
        .fetchBulk relianceBulk] := by
  intro h
  have hlast := (((h.2 _ rfl).2 _ rfl).2 _ rfl).1 growwProvider
  revert hlast
  decide

end BharatTicker
