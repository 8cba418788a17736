/-
  File:      BharatTicker/CircuitBreaker/Recovery.lean
  Subject:   HOW A HALF_OPEN EPISODE ENDS. What the success counter counts, and where the slots of
             the probes go.

  `_success_count` is cleared when the circuit closes or is reset, and only then: neither a failed
  probe nor a new episode clears it, and a success counts whoever admitted the call. A slot of
  `_half_open_calls` is given back only by leaving the episode, and a cancelled call records
  nothing.

  * `CallInv`, `CountInv`, `SplitInv`, `AccountInv` -- the invariants, each kept move by move;
  * `recovery_confirmed_iff` -- a closing is confirmed by `half_open_max_calls` successes of its own
    episode exactly when every success counted towards it is one of them;
  * `halfOpen_admits` -- a HALF_OPEN breaker at rest admits exactly when the episode's calls that
    succeeded or were cancelled have not used up the slots; so it always does where no probe is
    cancelled.
-/
import BharatTicker.CircuitBreaker.Admission

namespace BharatTicker

open Basis

-- the concrete runs below compute with rationals
unseal Rat.add Rat.mul Rat.sub Rat.inv

variable {cfg : BreakerConfig}

/-! ## 1. The calls of a history are older than the next one -/

structure CallInv (s : BreakerSystem) : Prop where
  fresh : ∀ c ∈ s.inFlight, c < s.nextCall
  past : ∀ e ∈ s.history, ∀ c, e.call? = some c → c < s.nextCall

theorem callInv_cons {s s' : BreakerSystem} {e : BreakerEvent} (hI : CallInv s)
    (hf : s'.inFlight.Sublist s.inFlight) (hn : s'.nextCall = s.nextCall)
    (hh : s'.history = e :: s.history) (he : ∀ c, e.call? = some c → c < s.nextCall) :
    CallInv s' := by
  refine ⟨fun c hc => ?_, fun e' he' c hc => ?_⟩
  · rw [hn]
    exact hI.fresh c (hf.subset hc)
  · rw [hn]
    rw [hh] at he'
    rcases List.mem_cons.mp he' with rfl | he'
    · exact he c hc
    · exact hI.past e' he' c hc

theorem callInv_admit {s s' : BreakerSystem} {t : ℚ} {st : CircuitState} (hI : CallInv s)
    (hf : s'.inFlight = s.nextCall :: s.inFlight) (hn : s'.nextCall = s.nextCall + 1)
    (hh : s'.history = .admitted s.nextCall t st :: s.history) : CallInv s' := by
  refine ⟨fun c hc => ?_, fun e he c hc => ?_⟩
  · rw [hn]
    rw [hf] at hc
    rcases List.mem_cons.mp hc with rfl | hc
    · exact Nat.lt_succ_self _
    · exact Nat.lt_succ_of_lt (hI.fresh c hc)
  · rw [hn]
    rw [hh] at he
    rcases List.mem_cons.mp he with rfl | he
    · cases hc
      exact Nat.lt_succ_self _
    · exact Nat.lt_succ_of_lt (hI.past e he c hc)

theorem removeCall_sublist (who : Option Nat) (l : List Nat) : (removeCall who l).Sublist l := by
  cases who with
  | none => exact List.Sublist.refl l
  | some c => exact List.erase_sublist

theorem callInv_move {t : ℚ} {s s' : BreakerSystem} (hI : CallInv s)
    (hm : BreakerMove cfg t s s') : CallInv s' := by
  -- the event of an ending call names a call in flight
  have hend : ∀ {c : Nat}, c ∈ s.inFlight → ∀ c', some c = some c' → c' < s.nextCall :=
    fun hc c' e => Option.some.inj e ▸ hI.fresh _ hc
  cases hm with
  | halfOpen ho hd => exact callInv_cons hI (.refl _) rfl rfl fun c hc => by cases hc
  | admitClosed hs => exact callInv_admit hI rfl rfl rfl
  | admitHalfOpen hs hc => exact callInv_admit hI rfl rfl rfl
  | reject => exact callInv_cons hI (.refl _) rfl rfl fun c hc => by cases hc
  | succeedClosed c hc hs => exact callInv_cons hI List.erase_sublist rfl rfl (hend hc)
  | succeedOpen c hc hs => exact callInv_cons hI List.erase_sublist rfl rfl (hend hc)
  | succeedHalfOpen c hc hs hlt => exact callInv_cons hI List.erase_sublist rfl rfl (hend hc)
  | recover c hc hs hge =>
    let s₁ : BreakerSystem :=
      { s with inFlight := s.inFlight.erase c, history := .succeeded c t .HALF_OPEN :: s.history }
    have h1 : CallInv s₁ := callInv_cons hI List.erase_sublist rfl rfl (hend hc)
    exact callInv_cons h1 (.refl _) rfl rfl fun c hc => by cases hc
  | trip who hw =>
    exact callInv_cons hI (removeCall_sublist who _) rfl rfl fun c e => hI.fresh c (hw c e)
  | failClosed who hw hs hlt =>
    exact callInv_cons hI (removeCall_sublist who _) rfl rfl fun c e => hI.fresh c (hw c e)
  | cancel c hc => exact callInv_cons hI List.erase_sublist rfl rfl (hend hc)
  | reset => exact callInv_cons hI (.refl _) rfl rfl fun c hc => by cases hc

/-- A call read off the history is older than the next one. -/
theorem call_lt {s : BreakerSystem} (hI : CallInv s) {f : BreakerEvent → Option Nat}
    (hf : ∀ e c, f e = some c → e.call? = some c) {l : List BreakerEvent}
    (hl : l.Sublist s.history) {c : Nat} (hc : c ∈ l.filterMap f) : c < s.nextCall := by
  obtain ⟨e, he, hec⟩ := List.mem_filterMap.mp hc
  exact hI.past e (hl.subset he) c (hf e c hec)

theorem countedSuccess_call (e : BreakerEvent) (c : Nat) (h : e.countedSuccess? = some c) :
    e.call? = some c := by
  unfold BreakerEvent.countedSuccess? at h
  split at h
  · exact h
  · cases h

theorem cancelledCall_call (e : BreakerEvent) (c : Nat) (h : e.cancelledCall? = some c) :
    e.call? = some c := by
  unfold BreakerEvent.cancelledCall? at h
  split at h
  · exact h
  · cases h

/-! ## 2. What the success counter counts -/

structure CountInv (cfg : BreakerConfig) (s : BreakerSystem) : Prop where
  count : (counted s.history).length = s.breaker.successCount
  lt : s.breaker.successCount < cfg.halfOpenMaxCalls

theorem countInv_move {t : ℚ} {s s' : BreakerSystem} (hI : CountInv cfg s)
    (hm : BreakerMove cfg t s s') : CountInv cfg s' := by
  obtain ⟨hc, hlt⟩ := hI
  cases hm with
  | succeedHalfOpen c hc' hs hlt' => exact ⟨congrArg (· + 1) hc, hlt'⟩
  | recover c hc' hs hge => exact ⟨rfl, cfg.halfOpenMaxCalls_pos⟩
  | reset => exact ⟨rfl, cfg.halfOpenMaxCalls_pos⟩
  | halfOpen ho hd => exact ⟨hc, hlt⟩
  | admitClosed hs => exact ⟨hc, hlt⟩
  | admitHalfOpen hs hc' => exact ⟨hc, hlt⟩
  | reject => exact ⟨hc, hlt⟩
  | succeedClosed c hc' hs => exact ⟨hc, hlt⟩
  | succeedOpen c hc' hs => exact ⟨hc, hlt⟩
  | trip who hw => exact ⟨hc, hlt⟩
  | failClosed who hw hs hlt' => exact ⟨hc, hlt⟩
  | cancel c hc' => exact ⟨hc, hlt⟩

/-! ## 3. The successes carried into an episode are not its own -/

/-- In HALF_OPEN the counted successes are those of the episode and older ones, and no older one
    is of a call the episode admitted. -/
def SplitInv (s : BreakerSystem) : Prop :=
  s.breaker.state = .HALF_OPEN →
    ∃ older, counted s.history = episodeSuccesses s.history ++ older ∧
      ∀ c ∈ older, c ∉ probes s.history

theorem splitInv_move {t : ℚ} {s s' : BreakerSystem} (hC : CallInv s) (hI : SplitInv s)
    (hm : BreakerMove cfg t s s') : SplitInv s' := by
  cases hm with
  | halfOpen ho hd => exact fun _ => ⟨counted s.history, rfl, fun c _ => List.not_mem_nil⟩
  | admitHalfOpen hs hc =>
    intro _
    obtain ⟨older, he, hno⟩ := hI hs
    refine ⟨older, he, fun c hc hp => ?_⟩
    rcases List.mem_cons.mp hp with rfl | hp
    · -- the new call is younger than every counted one
      have hmem : s.nextCall ∈ counted s.history := he ▸ List.mem_append_right _ hc
      exact Nat.lt_irrefl _ (call_lt hC countedSuccess_call (List.takeWhile_sublist _) hmem)
    · exact hno c hc hp
  | succeedHalfOpen c hc hs hlt =>
    intro _
    obtain ⟨older, he, hno⟩ := hI hs
    exact ⟨older, congrArg (c :: ·) he, hno⟩
  | reject => exact hI
  | cancel c hc => exact hI
  | admitClosed hs => exact hI
  | succeedClosed c hc hs => exact hI
  | succeedOpen c hc hs => exact fun h => by simp [hs] at h
  | recover c hc hs hge => exact fun h => by cases h
  | trip who hw => exact fun h => by cases h
  | failClosed who hw hs hlt => exact fun h => by simp [hs] at h
  | reset => exact fun h => by cases h

/-! ## 4. Closings -/

/-- What holds of a closing over the history before it (its own success included). -/
def ConfirmedIff (cfg : BreakerConfig) (e : BreakerEvent) (pre : List BreakerEvent) : Prop :=
  ∀ t, e = .closed t →
    (cfg.halfOpenMaxCalls ≤ (ownSuccesses pre).length ↔ ∀ c ∈ counted pre, c ∈ probes pre)

/-- `n` counted entries, the first ones from `epi`, the others not in `own`: `n` of `epi` are in
    `own` exactly when all are. -/
theorem all_own_iff {epi older own : List Nat} {n : Nat} (hn : (epi ++ older).length = n)
    (hno : ∀ c ∈ older, c ∉ own) :
    n ≤ (epi.filter fun c => c ∈ own).length ↔ ∀ c ∈ epi ++ older, c ∈ own := by
  rw [List.length_append] at hn
  have hle := List.length_filter_le (fun c => decide (c ∈ own)) epi
  constructor
  · intro h
    have hold : older = [] := List.eq_nil_of_length_eq_zero (by omega)
    have hlen : (epi.filter fun c => decide (c ∈ own)).length = epi.length := by omega
    have hepi := List.length_filter_eq_length_iff.mp hlen
    intro c hc
    rw [hold, List.append_nil] at hc
    simpa using hepi c hc
  · intro h
    have hold : older = [] := List.eq_nil_iff_forall_not_mem.mpr fun c hc =>
      hno c hc (h c (List.mem_append_right _ hc))
    have hepi : (epi.filter fun c => c ∈ own) = epi := List.filter_eq_self.mpr fun c hc =>
      decide_eq_true (h c (List.mem_append_left _ hc))
    rw [hepi]
    simp [hold] at hn
    omega

theorem confirmedIff_other {e : BreakerEvent} {pre : List BreakerEvent} (h : ∀ t, e ≠ .closed t) :
    ConfirmedIff cfg e pre := fun t he => absurd he (h t)

theorem closings_move {t : ℚ} {s s' : BreakerSystem} (hN : CountInv cfg s) (hS : SplitInv s)
    (hI : Along (ConfirmedIff cfg) s.history) (hm : BreakerMove cfg t s s') :
    Along (ConfirmedIff cfg) s'.history := by
  cases hm with
  | recover c hc hs hge =>
    refine ⟨fun t' _ => ?_, confirmedIff_other (by simp), hI⟩
    obtain ⟨older, he, hno⟩ := hS hs
    have hcount : counted (.succeeded c t .HALF_OPEN :: s.history) =
        (c :: episodeSuccesses s.history) ++ older := congrArg (c :: ·) he
    have hlen : ((c :: episodeSuccesses s.history) ++ older).length = cfg.halfOpenMaxCalls := by
      have h1 := hN.count
      have h2 := hN.lt
      rw [he] at h1
      simp only [List.cons_append, List.length_cons]
      omega
    rw [hcount]
    exact all_own_iff hlen hno
  | halfOpen ho hd => exact ⟨confirmedIff_other (by simp), hI⟩
  | admitClosed hs => exact ⟨confirmedIff_other (by simp), hI⟩
  | admitHalfOpen hs hc => exact ⟨confirmedIff_other (by simp), hI⟩
  | reject => exact ⟨confirmedIff_other (by simp), hI⟩
  | succeedClosed c hc hs => exact ⟨confirmedIff_other (by simp), hI⟩
  | succeedOpen c hc hs => exact ⟨confirmedIff_other (by simp), hI⟩
  | succeedHalfOpen c hc hs hlt => exact ⟨confirmedIff_other (by simp), hI⟩
  | trip who hw => exact ⟨confirmedIff_other (by simp), hI⟩
  | failClosed who hw hs hlt => exact ⟨confirmedIff_other (by simp), hI⟩
  | cancel c hc => exact ⟨confirmedIff_other (by simp), hI⟩
  | reset => exact ⟨confirmedIff_other (by simp), hI⟩

/-! ## 5. Where the slots of an episode are -/

/-- In HALF_OPEN every call the episode admitted has succeeded, was cancelled, or is in flight. -/
def AccountInv (s : BreakerSystem) : Prop :=
  s.breaker.state = .HALF_OPEN →
    (probes s.history).length = (ownSuccesses s.history).length +
      (ownCancelled s.history).length + (s.inFlight.filter fun c => c ∈ probes s.history).length

theorem length_filter_cons (c : Nat) (l : List Nat) (p : Nat → Bool) :
    ((c :: l).filter p).length = (l.filter p).length + if p c then 1 else 0 := by
  rw [List.filter_cons]
  split <;> rfl

/-- Taking out one call: the calls left, and the call itself if it passes the filter. -/
theorem filter_erase_length {l : List Nat} {c : Nat} (hc : c ∈ l) (p : Nat → Bool) :
    (l.filter p).length = ((l.erase c).filter p).length + if p c then 1 else 0 := by
  rw [((List.perm_cons_erase hc).filter p).length_eq, length_filter_cons]

/-- A younger call does not change which older ones pass. -/
theorem filter_mem_cons (own : List Nat) {l : List Nat} {n : Nat} (h : ∀ c ∈ l, c < n) :
    (l.filter fun c => c ∈ n :: own) = l.filter fun c => c ∈ own := by
  refine List.filter_congr fun c hc => ?_
  have hne : c ≠ n := Nat.ne_of_lt (h c hc)
  simp [hne]

theorem accountInv_move {t : ℚ} {s s' : BreakerSystem} (hC : CallInv s) (hI : AccountInv s)
    (hm : BreakerMove cfg t s s') : AccountInv s' := by
  cases hm with
  | halfOpen ho hd =>
    intro _
    show 0 = 0 + 0 + (s.inFlight.filter fun c => c ∈ ([] : List Nat)).length
    simp
  | admitHalfOpen hs hc =>
    intro _
    have hsub : (episode s.history).Sublist s.history := List.takeWhile_sublist _
    have h1 := filter_mem_cons (probes s.history) fun c hc => call_lt hC countedSuccess_call hsub hc
    have h2 := filter_mem_cons (probes s.history) fun c hc => call_lt hC cancelledCall_call hsub hc
    have h3 := filter_mem_cons (probes s.history) hC.fresh
    have h := hI hs
    show (s.nextCall :: probes s.history).length =
      ((episodeSuccesses s.history).filter fun c => c ∈ s.nextCall :: probes s.history).length +
      ((episodeCancelled s.history).filter fun c => c ∈ s.nextCall :: probes s.history).length +
      ((s.nextCall :: s.inFlight).filter fun c => c ∈ s.nextCall :: probes s.history).length
    rw [List.filter_cons_of_pos (by simp), h3]
    unfold episodeSuccesses episodeCancelled
    rw [h1, h2, List.length_cons, List.length_cons, h]
    rfl
  | succeedHalfOpen c hc hs hlt =>
    intro _
    have h := hI hs
    rw [filter_erase_length hc] at h
    show (probes s.history).length =
      ((c :: episodeSuccesses s.history).filter fun c => c ∈ probes s.history).length +
      (ownCancelled s.history).length +
      ((s.inFlight.erase c).filter fun c => c ∈ probes s.history).length
    rw [h, length_filter_cons]
    unfold ownSuccesses
    omega
  | reject => exact hI
  | cancel c hc =>
    intro hs
    have h := hI hs
    rw [filter_erase_length hc] at h
    rw [show s.breaker.state = .HALF_OPEN from hs]
    show (probes s.history).length = (ownSuccesses s.history).length +
      ((c :: episodeCancelled s.history).filter fun c => c ∈ probes s.history).length +
      ((s.inFlight.erase c).filter fun c => c ∈ probes s.history).length
    rw [h, length_filter_cons]
    unfold ownCancelled
    omega
  | admitClosed hs => exact fun h => by simp [hs] at h
  | succeedClosed c hc hs => exact fun h => by simp [hs] at h
  | succeedOpen c hc hs => exact fun h => by simp [hs] at h
  | recover c hc hs hge => exact fun h => by cases h
  | trip who hw => exact fun h => by cases h
  | failClosed who hw hs hlt => exact fun h => by simp [hs] at h
  | reset => exact fun h => by cases h

/-! ## 6. Runs that cancel no probe -/

/-- The event does not cancel, in HALF_OPEN, a call the episode admitted. -/
def SparesProbe (e : BreakerEvent) (pre : List BreakerEvent) : Prop :=
  ∀ c, e.cancelledCall? = some c → c ∉ probes pre

def SpareInv (s : BreakerSystem) : Prop :=
  Along SparesProbe s.history → ownCancelled s.history = []

theorem spareInv_move {t : ℚ} {s s' : BreakerSystem} (hC : CallInv s) (hI : SpareInv s)
    (hm : BreakerMove cfg t s s') : SpareInv s' := by
  cases hm with
  | halfOpen ho hd => exact fun _ => rfl
  | admitHalfOpen hs hc =>
    intro hA
    have hsub : (episode s.history).Sublist s.history := List.takeWhile_sublist _
    have h2 := filter_mem_cons (probes s.history) fun c hc => call_lt hC cancelledCall_call hsub hc
    exact h2.trans (hI hA.2)
  | cancel c hc =>
    intro hA
    unfold ownCancelled
    rw [episodeCancelled_cons, probes_cons]
    cases hst : s.breaker.state with
    | HALF_OPEN =>
      have hno : c ∉ probes s.history := hA.1 c (by rw [hst]; rfl)
      have hf : ((c :: episodeCancelled s.history).filter fun c => c ∈ probes s.history) =
          ownCancelled s.history := List.filter_cons_of_neg (by simpa using hno)
      exact hf.trans (hI hA.2)
    | CLOSED => exact hI hA.2
    | OPEN => exact hI hA.2
  | recover c hc hs hge => exact fun hA => hI hA.2.2
  | admitClosed hs => exact fun hA => hI hA.2
  | reject => exact fun hA => hI hA.2
  | succeedClosed c hc hs => exact fun hA => hI hA.2
  | succeedOpen c hc hs => exact fun hA => hI hA.2
  | succeedHalfOpen c hc hs hlt => exact fun hA => hI hA.2
  | trip who hw => exact fun hA => hI hA.2
  | failClosed who hw hs hlt => exact fun hA => hI hA.2
  | reset => exact fun hA => hI hA.2

/-! ## 7. Every state a run reaches -/

structure RecoveryInv (cfg : BreakerConfig) (s : BreakerSystem) : Prop where
  call : CallInv s
  count : CountInv cfg s
  split : SplitInv s
  account : AccountInv s
  spare : SpareInv s
  closings : Along (ConfirmedIff cfg) s.history

theorem recoveryInv_move {t : ℚ} {s s' : BreakerSystem} (hI : RecoveryInv cfg s)
    (hm : BreakerMove cfg t s s') : RecoveryInv cfg s' where
  call := callInv_move hI.call hm
  count := countInv_move hI.count hm
  split := splitInv_move hI.call hI.split hm
  account := accountInv_move hI.call hI.account hm
  spare := spareInv_move hI.call hI.spare hm
  closings := closings_move hI.count hI.split hI.closings hm

theorem recoveryInv_run {acts : List BreakerAction} {s : BreakerSystem}
    (hr : run (BreakerSystem.step cfg) {} acts = some s) : RecoveryInv cfg s := by
  refine breaker_invariant (fun _ _ _ => recoveryInv_move) ?_ hr
  exact {
    call := ⟨fun c hc => absurd hc List.not_mem_nil, fun e he => absurd he List.not_mem_nil⟩
    count := ⟨rfl, cfg.halfOpenMaxCalls_pos⟩
    split := fun h => by cases h
    account := fun h => by cases h
    spare := fun _ => rfl
    closings := trivial }

/-- **When a recovery is confirmed by its own probes**: at every closing of every run, at least
    `half_open_max_calls` calls admitted in the episode have succeeded in it if and only if every
    success counted since the circuit last closed or was reset is of such a call. -/
theorem recovery_confirmed_iff (cfg : BreakerConfig) (acts : List BreakerAction) (s : BreakerSystem)
    (hr : run (BreakerSystem.step cfg) {} acts = some s) (post : List BreakerEvent) (t : ℚ)
    (pre : List BreakerEvent) (hclose : s.history = post ++ .closed t :: pre) :
    cfg.halfOpenMaxCalls ≤ (ownSuccesses pre).length ↔ ∀ c ∈ counted pre, c ∈ probes pre :=
  along_iff.1 (recoveryInv_run hr).closings post _ pre hclose t rfl

theorem recovery_confirmed_iff_recovered :
    testCb.halfOpenMaxCalls ≤ (ownSuccesses recovered.history.tail).length ↔
      ∀ c ∈ counted recovered.history.tail, c ∈ probes recovered.history.tail :=
  recovery_confirmed_iff testCb recoveryActs recovered (by decide) [] 6 _ (by decide)

/-- Two episodes: a probe succeeds and the next one fails, then a single probe succeeds. -/
def carryActs : List BreakerAction :=
  [.execute 0, .finish 0 .failure 1, .execute 2, .finish 1 .success 3, .execute 4,
    .finish 2 .failure 5, .execute 6, .finish 3 .success 7]

/-- The success of the first episode is still counted: with two probes asked for, the circuit
    closes on the one success of its own episode. -/
theorem carried_success_closes :
    ∃ s pre, run (BreakerSystem.step testCb) {} carryActs = some s ∧
      s.history = .closed 7 :: pre ∧ (ownSuccesses pre).length = 1 ∧ testCb.halfOpenMaxCalls = 2 :=
  ⟨(run (BreakerSystem.step testCb) {} carryActs).getD {},
    ((run (BreakerSystem.step testCb) {} carryActs).getD {}).history.tail,
    by decide, by decide, by decide, rfl⟩

/-- The successes of an episode's own calls are among the counted ones. -/
theorem ownSuccesses_lt {s : BreakerSystem} (hI : RecoveryInv cfg s)
    (hs : s.breaker.state = .HALF_OPEN) : (ownSuccesses s.history).length < cfg.halfOpenMaxCalls := by
  obtain ⟨older, he, _⟩ := hI.split hs
  have h1 := hI.count.count
  have h2 := hI.count.lt
  have h3 : (ownSuccesses s.history).length ≤ (episodeSuccesses s.history).length :=
    List.length_filter_le _ _
  rw [he, List.length_append] at h1
  omega

/-- **When a HALF_OPEN breaker at rest admits the next call**: exactly when the calls its episode
    admitted that succeeded or were cancelled are fewer than `half_open_max_calls`; hence always in
    a run that cancels no call in the HALF_OPEN episode that admitted it. -/
theorem halfOpen_admits (cfg : BreakerConfig) (acts : List BreakerAction) (s : BreakerSystem)
    (hr : run (BreakerSystem.step cfg) {} acts = some s) (hs : s.breaker.state = .HALF_OPEN)
    (hrest : s.inFlight = []) (now : ℚ) :
    ((s.breaker.canExecute cfg now).1 = true ↔
      (ownSuccesses s.history).length + (ownCancelled s.history).length < cfg.halfOpenMaxCalls) ∧
    (Along SparesProbe s.history → (s.breaker.canExecute cfg now).1 = true) := by
  have hI : RecoveryInv cfg s := recoveryInv_run hr
  have hslots : (probes s.history).length = s.breaker.halfOpenCalls := (probeInv_run hr).exact hs
  have hacc := hI.account hs
  rw [hrest, List.filter_nil, List.length_nil, Nat.add_zero, hslots] at hacc
  have hiff : (s.breaker.canExecute cfg now).1 = true ↔
      (ownSuccesses s.history).length + (ownCancelled s.history).length < cfg.halfOpenMaxCalls := by
    rw [CircuitBreaker.canExecute_halfOpen hs, decide_eq_true_iff, hacc]
  refine ⟨hiff, fun hA => hiff.mpr ?_⟩
  rw [hI.spare hA, List.length_nil, Nat.add_zero]
  exact ownSuccesses_lt hI hs

/-- One failure, then one probe that succeeds: HALF_OPEN, nothing in flight. -/
def halfwayActs : List BreakerAction :=
  [.execute 0, .finish 0 .failure 1, .execute 2, .finish 1 .success 3]

def halfway : BreakerSystem := (run (BreakerSystem.step testCb) {} halfwayActs).getD {}

theorem halfOpen_admits_halfway :
    ((halfway.breaker.canExecute testCb 4).1 = true ↔
      (ownSuccesses halfway.history).length + (ownCancelled halfway.history).length <
        testCb.halfOpenMaxCalls) ∧
    (Along SparesProbe halfway.history → (halfway.breaker.canExecute testCb 4).1 = true) :=
  halfOpen_admits testCb halfwayActs halfway (by decide) (by decide)
    (by decide) 4

/-- One failure, then two probes whose tasks are cancelled. -/
def leakActs : List BreakerAction :=
  [.execute 0, .finish 0 .failure 1, .execute 2, .finish 1 .cancelled 3, .execute 4,
    .finish 2 .cancelled 5]

/-- The cancelled probes keep their slots: nothing is in flight, and no later call is admitted. -/
theorem cancelled_probes_wedge :
    ∃ s, run (BreakerSystem.step testCb) {} leakActs = some s ∧ s.breaker.state = .HALF_OPEN ∧
      s.inFlight = [] ∧ ∀ now, (s.breaker.canExecute testCb now).1 = false := by
  refine ⟨(run (BreakerSystem.step testCb) {} leakActs).getD {}, by decide,
    by decide, by decide, fun now => ?_⟩
  rw [CircuitBreaker.canExecute_halfOpen (by decide)]
  decide

end BharatTicker
