/-
  File:      BharatTicker/CircuitBreaker/Admission.lean
  Subject:   WHEN A BREAKER ADMITS: after the recovery timeout, a bounded number of probes, and
             never CLOSED at or above the failure threshold.

  * `FailureInv` -- outside CLOSED the breaker's `_last_failure_time` is the newest failure of the
    history, and in HALF_OPEN the timeout has passed since then (needs a clock that does not run
    backwards);
  * `ProbeInv` -- in HALF_OPEN `_half_open_calls` is the number of probes of the episode;
  * `admission_safe` -- the three properties over every run.
-/
import BharatTicker.CircuitBreaker.System

namespace BharatTicker

open Basis

-- the concrete runs below compute with rationals
unseal Rat.add Rat.mul Rat.sub Rat.inv

variable {cfg : BreakerConfig}

/-! ## 1. After the timeout -/

/-- An admission outside CLOSED comes more than the timeout after the newest failure before it. -/
def AdmittedLate (cfg : BreakerConfig) (e : BreakerEvent) (pre : List BreakerEvent) : Prop :=
  ∀ c t st, e = .admitted c t st → st ≠ .CLOSED →
    ∃ tf, lastFailure pre = some tf ∧ cfg.recoveryTimeout < t - tf

structure FailureInv (cfg : BreakerConfig) (now : ℚ) (s : BreakerSystem) : Prop where
  late : Along (AdmittedLate cfg) s.history
  newest : s.breaker.state ≠ .CLOSED → lastFailure s.history = some s.breaker.lastFailureTime
  due : s.breaker.state = .HALF_OPEN → cfg.recoveryTimeout < now - s.breaker.lastFailureTime

theorem admittedLate_other {e : BreakerEvent} {pre : List BreakerEvent}
    (h : ∀ c t st, e ≠ .admitted c t st) : AdmittedLate cfg e pre :=
  fun c t st he => absurd he (h c t st)

theorem failureInv_later {t t' : ℚ} {s : BreakerSystem} (hle : t ≤ t') (h : FailureInv cfg t s) :
    FailureInv cfg t' s :=
  ⟨h.late, h.newest, fun hs => lt_of_lt_of_le (h.due hs) (by linarith)⟩

theorem failureInv_move {t : ℚ} {s s' : BreakerSystem} (hI : FailureInv cfg t s)
    (hm : BreakerMove cfg t s s') : FailureInv cfg t s' := by
  obtain ⟨hlate, hnew, hdue⟩ := hI
  cases hm with
  | halfOpen ho hd =>
    have hn : lastFailure s.history = some s.breaker.lastFailureTime := hnew (by simp [ho])
    exact ⟨⟨admittedLate_other (by simp), hlate⟩, fun _ => hn, fun _ => hd⟩
  | admitClosed hs =>
    refine ⟨⟨?_, hlate⟩, fun hne => absurd hs hne, fun h => by simp [hs] at h⟩
    intro c t' st e hst
    cases e
    exact absurd rfl hst
  | admitHalfOpen hs hc =>
    have hn : lastFailure s.history = some s.breaker.lastFailureTime := hnew (by simp [hs])
    refine ⟨⟨?_, hlate⟩, fun _ => hn, hdue⟩
    intro c t' st e _
    cases e
    exact ⟨_, hn, hdue hs⟩
  | reject => exact ⟨⟨admittedLate_other (by simp), hlate⟩, hnew, hdue⟩
  | succeedClosed c hc hs =>
    exact ⟨⟨admittedLate_other (by simp), hlate⟩, hnew, hdue⟩
  | succeedOpen c hc hs => exact ⟨⟨admittedLate_other (by simp), hlate⟩, hnew, hdue⟩
  | succeedHalfOpen c hc hs hlt =>
    exact ⟨⟨admittedLate_other (by simp), hlate⟩, hnew, hdue⟩
  | recover c hc hs hge =>
    exact ⟨⟨admittedLate_other (by simp), admittedLate_other (by simp), hlate⟩,
      fun h => absurd rfl h, fun h => by cases h⟩
  | trip who hw =>
    exact ⟨⟨admittedLate_other (by simp), hlate⟩, fun _ => rfl, fun h => by cases h⟩
  | failClosed who hw hs hlt =>
    exact ⟨⟨admittedLate_other (by simp), hlate⟩, fun h => absurd hs h,
      fun h => by simp [hs] at h⟩
  | cancel c hc => exact ⟨⟨admittedLate_other (by simp), hlate⟩, hnew, hdue⟩
  | reset =>
    exact ⟨⟨admittedLate_other (by simp), hlate⟩, fun h => absurd rfl h, fun h => by cases h⟩

/-! ## 2. The number of probes of an episode -/

structure ProbeInv (cfg : BreakerConfig) (s : BreakerSystem) : Prop where
  bounded : Along (fun e pre => (probes (e :: pre)).length ≤ cfg.halfOpenMaxCalls) s.history
  exact : s.breaker.state = .HALF_OPEN → (probes s.history).length = s.breaker.halfOpenCalls
  le : (probes s.history).length ≤ cfg.halfOpenMaxCalls

/-- An event that is neither a transition nor a probe changes no count of probes. -/
theorem probeInv_quiet {s s' : BreakerSystem} {e : BreakerEvent} (hI : ProbeInv cfg s)
    (hh : s'.history = e :: s.history) (h1 : e.isHalfOpened = false) (h2 : e.probe? = none)
    (hs : s'.breaker.state = .HALF_OPEN → s.breaker.state = .HALF_OPEN ∧
      s'.breaker.halfOpenCalls = s.breaker.halfOpenCalls) : ProbeInv cfg s' := by
  have hp : probes (e :: s.history) = probes s.history := by simp [probes_cons, h1, h2]
  have hle : (probes (e :: s.history)).length ≤ cfg.halfOpenMaxCalls := by
    rw [hp]
    exact hI.le
  refine ⟨?_, fun h => ?_, ?_⟩
  · rw [hh]
    exact ⟨hle, hI.bounded⟩
  · rw [hh, hp, (hs h).2]
    exact hI.exact (hs h).1
  · rw [hh]
    exact hle

theorem probeInv_move {t : ℚ} {s s' : BreakerSystem} (hI : ProbeInv cfg s)
    (hm : BreakerMove cfg t s s') : ProbeInv cfg s' := by
  cases hm with
  | halfOpen ho hd => exact ⟨⟨Nat.zero_le _, hI.bounded⟩, fun _ => rfl, Nat.zero_le _⟩
  | admitClosed hs => exact probeInv_quiet hI rfl rfl rfl fun h => by simp [hs] at h
  | admitHalfOpen hs hc =>
    have hlen : (probes (.admitted s.nextCall t .HALF_OPEN :: s.history)).length =
        s.breaker.halfOpenCalls + 1 := congrArg (· + 1) (hI.exact hs)
    have hle := hlen.trans_le hc
    exact ⟨⟨hle, hI.bounded⟩, fun _ => hlen, hle⟩
  | reject => exact probeInv_quiet hI rfl rfl rfl fun h => ⟨h, rfl⟩
  | succeedClosed c hc hs => exact probeInv_quiet hI rfl rfl rfl fun h => ⟨h, rfl⟩
  | succeedOpen c hc hs => exact probeInv_quiet hI rfl rfl rfl fun h => ⟨h, rfl⟩
  | succeedHalfOpen c hc hs hlt => exact probeInv_quiet hI rfl rfl rfl fun h => ⟨h, rfl⟩
  | recover c hc hs hge =>
    -- two events: the success, and the closing it brings
    let s₁ : BreakerSystem := { s with history := .succeeded c t .HALF_OPEN :: s.history }
    have h1 : ProbeInv cfg s₁ := probeInv_quiet hI rfl rfl rfl fun h => ⟨h, rfl⟩
    exact probeInv_quiet h1 rfl rfl rfl fun h => by cases h
  | trip who hw => exact probeInv_quiet hI rfl rfl rfl fun h => by cases h
  | failClosed who hw hs hlt => exact probeInv_quiet hI rfl rfl rfl fun h => by simp [hs] at h
  | cancel c hc => exact probeInv_quiet hI rfl rfl rfl fun h => ⟨h, rfl⟩
  | reset => exact probeInv_quiet hI rfl rfl rfl fun h => by cases h

theorem probeInv_start : ProbeInv cfg {} := ⟨trivial, (fun h => by cases h), Nat.zero_le _⟩

/-- **Every history of a run**: the probe invariant. -/
theorem probeInv_run {acts : List BreakerAction} {s : BreakerSystem}
    (hr : run (BreakerSystem.step cfg) {} acts = some s) : ProbeInv cfg s :=
  breaker_invariant (fun _ _ _ => probeInv_move) probeInv_start hr

/-- The probes of a stretch without a transition are among the probes of its episode. -/
theorem probe_stretch_le {seg pre : List BreakerEvent} (h : ∀ e ∈ seg, e.isHalfOpened = false) :
    (seg.filterMap BreakerEvent.probe?).length ≤ (probes (seg ++ pre)).length := by
  induction seg with
  | nil => simp
  | cons e seg ih =>
    have ih := ih fun e' he' => h e' (List.mem_cons_of_mem _ he')
    rw [List.cons_append, probes_cons, h e List.mem_cons_self]
    rw [filterMap_toList, if_neg Bool.false_ne_true, List.length_append, List.length_append]
    omega

/-! ## 3. The failure count while CLOSED -/

theorem closed_count_move {t : ℚ} {s s' : BreakerSystem}
    (hI : s.breaker.state = .CLOSED → s.breaker.failureCount < cfg.failureThreshold)
    (hm : BreakerMove cfg t s s') :
    s'.breaker.state = .CLOSED → s'.breaker.failureCount < cfg.failureThreshold := by
  cases hm with
  | halfOpen ho hd => exact fun h => by cases h
  | recover c hc hs hge => exact fun _ => cfg.failureThreshold_pos
  | trip who hw => exact fun h => by cases h
  | failClosed who hw hs hlt => exact fun _ => hlt
  | reset => exact fun _ => cfg.failureThreshold_pos
  | succeedClosed c hc hs => exact fun h => lt_of_le_of_lt (Nat.sub_le _ _) (hI h)
  | admitClosed hs => exact hI
  | admitHalfOpen hs hc => exact hI
  | reject => exact hI
  | succeedOpen c hc hs => exact hI
  | succeedHalfOpen c hc hs hlt => exact hI
  | cancel c hc => exact hI

/-! ## 4. The three properties -/

/-- **Admission safety of a breaker**, over every run whose clock does not run backwards: a call
    admitted outside CLOSED starts more than the timeout after the most recent failure; between two
    OPEN-to-HALF_OPEN transitions at most `half_open_max_calls` calls are admitted in HALF_OPEN; and
    a CLOSED breaker is below its threshold. -/
theorem admission_safe (cfg : BreakerConfig) (acts : List BreakerAction)
    (hmono : (acts.map BreakerAction.time).Pairwise (· ≤ ·)) (s : BreakerSystem)
    (hr : run (BreakerSystem.step cfg) {} acts = some s) :
    (∀ (post : List BreakerEvent) (c : Nat) (t : ℚ) (st : CircuitState) (pre : List BreakerEvent),
      s.history = post ++ .admitted c t st :: pre → st ≠ .CLOSED →
        ∃ tf, lastFailure pre = some tf ∧ cfg.recoveryTimeout < t - tf) ∧
    (∀ post seg pre : List BreakerEvent, s.history = post ++ seg ++ pre →
      (∀ e ∈ seg, e.isHalfOpened = false) →
        (seg.filterMap BreakerEvent.probe?).length ≤ cfg.halfOpenMaxCalls) ∧
    (s.breaker.state = .CLOSED → s.breaker.failureCount < cfg.failureThreshold) := by
  refine ⟨?_, ?_, ?_⟩
  · have h0 : ∀ t, FailureInv cfg t {} := fun t => ⟨trivial, fun h => absurd rfl h, fun h => by cases h⟩
    have hI : ∃ t, FailureInv cfg t s :=
      breaker_invariant_clocked (fun _ _ _ => failureInv_later) (fun _ _ _ => failureInv_move) h0
        hmono hr
    obtain ⟨t, hI⟩ := hI
    exact fun post c t st pre h hst => along_iff.1 hI.late post _ pre h c t st rfl hst
  · intro post seg pre h hseg
    cases seg with
    | nil => simp
    | cons e seg =>
      have hb := along_iff.1 (probeInv_run hr).bounded post e (seg ++ pre) (by simpa using h)
      exact le_trans (probe_stretch_le hseg) hb
  · exact breaker_invariant (fun _ _ _ => closed_count_move) (fun _ => cfg.failureThreshold_pos) hr

/-- The breaker of the recovery test: threshold 1, timeout 0.05 s, two probes. -/
def testCb : BreakerConfig := BreakerConfig.ofArgs {} (some 1) (some (1 / 20)) (some 2)

/-- One failure, then two probes (and a call too many) that succeed. -/
def recoveryActs : List BreakerAction :=
  [.execute 0, .finish 0 .failure 1, .execute 2, .execute 3, .execute 4, .finish 1 .success 5,
    .finish 2 .success 6]

/-- Where they lead. -/
def recovered : BreakerSystem := (run (BreakerSystem.step testCb) {} recoveryActs).getD {}

theorem admission_safe_recovered :
    (∀ (post : List BreakerEvent) (c : Nat) (t : ℚ) (st : CircuitState) (pre : List BreakerEvent),
      recovered.history = post ++ .admitted c t st :: pre → st ≠ .CLOSED →
        ∃ tf, lastFailure pre = some tf ∧ testCb.recoveryTimeout < t - tf) ∧
    (∀ post seg pre : List BreakerEvent, recovered.history = post ++ seg ++ pre →
      (∀ e ∈ seg, e.isHalfOpened = false) →
        (seg.filterMap BreakerEvent.probe?).length ≤ testCb.halfOpenMaxCalls) ∧
    (recovered.breaker.state = .CLOSED →
      recovered.breaker.failureCount < testCb.failureThreshold) :=
  admission_safe testCb recoveryActs (by decide) recovered (by decide)

end BharatTicker
