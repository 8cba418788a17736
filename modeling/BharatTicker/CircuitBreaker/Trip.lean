/-
  File:      BharatTicker/CircuitBreaker/Trip.lean
  Subject:   WHEN A CLOSED BREAKER TRIPS. The failure count of a CLOSED breaker goes up with every
             failure and down with every success, and not below zero.

  * `Completion`, `recordAll` -- the calls that end, in order, and the breaker after them;
  * `Surges` -- a block of completions, up to the newest, with `threshold` more failures than
    successes;
  * `recordAll_closed_iff`, `trips_at_first_surge` -- the breaker leaves CLOSED with the first such
    block, and counts the greatest excess of failures until then;
  * `run_closed_iff` -- so does the breaker under overlapping calls, whatever else is read or
    started in between.
-/
import BharatTicker.Basis.Walk
import BharatTicker.CircuitBreaker.System

namespace BharatTicker

open Basis

/-! ## 1. Completions -/

/-- A completed call that is recorded: a success, or a failure at its time. -/
inductive Completion where
  | success
  | failure (t : ℚ)
  deriving DecidableEq, Repr

namespace Completion

def isSuccess : Completion → Bool
  | .success => true
  | .failure _ => false

/-- What a completion adds to the excess of failures. -/
def drift : Completion → ℤ
  | .success => -1
  | .failure _ => 1

end Completion

def successes (cs : List Completion) : ℕ := cs.countP fun c => c.isSuccess

def failures (cs : List Completion) : ℕ := cs.countP fun c => !c.isSuccess

/-- By how much the failures outnumber the successes. -/
def excess (cs : List Completion) : ℤ := failures cs - successes cs

/-- Some block of completions that ends with the newest one has `threshold` more failures than
    successes, or even more. -/
def Surges (threshold : ℕ) (cs : List Completion) : Prop :=
  ∃ block, block <:+ cs ∧ (threshold : ℤ) ≤ excess block

namespace CircuitBreaker

variable (cfg : BreakerConfig)

/-- `record_success` or `record_failure`. -/
def record (cb : CircuitBreaker) : Completion → CircuitBreaker
  | .success => cb.recordSuccess cfg
  | .failure t => cb.recordFailure cfg t

/-- The breaker after the completions, one after another. -/
def recordAll (cb : CircuitBreaker) (cs : List Completion) : CircuitBreaker :=
  cs.foldl (record cfg) cb

end CircuitBreaker

theorem excess_eq_sum (cs : List Completion) : excess cs = (cs.map Completion.drift).sum := by
  unfold excess failures successes
  induction cs with
  | nil => rfl
  | cons c cs ih =>
    rw [List.map_cons, List.sum_cons, ← ih]
    cases c <;> simp [Completion.isSuccess, Completion.drift] <;> ring

/-- The sums of the last drifts are the excesses of the blocks up to the newest completion. -/
theorem mem_suffixSums_drift {cs : List Completion} {x : ℤ} :
    x ∈ suffixSums (cs.map Completion.drift) ↔ ∃ block, block <:+ cs ∧ excess block = x := by
  constructor
  · intro hx
    obtain ⟨s, hs, rfl⟩ := hx
    obtain ⟨block, hblock, rfl⟩ := List.suffix_map_iff.mp hs
    exact ⟨block, hblock, excess_eq_sum block⟩
  · intro hex
    obtain ⟨block, hblock, rfl⟩ := hex
    exact ⟨_, hblock.map Completion.drift, (excess_eq_sum block).symm⟩

/-- A surge: the walk of the drifts, reflected at zero, is at the threshold. -/
theorem surges_iff {threshold : ℕ} {cs : List Completion} :
    Surges threshold cs ↔ (threshold : ℤ) ≤ reflectedWalk (cs.map Completion.drift) := by
  rw [le_reflectedWalk_iff]
  constructor
  · intro hex
    obtain ⟨block, hblock, hle⟩ := hex
    exact ⟨_, hblock.map Completion.drift, (excess_eq_sum block) ▸ hle⟩
  · intro hex
    obtain ⟨s, hs, hle⟩ := hex
    obtain ⟨block, hblock, rfl⟩ := List.suffix_map_iff.mp hs
    exact ⟨block, hblock, (excess_eq_sum block).symm ▸ hle⟩

/-! ## 2. The count -/

section Count

variable {cfg : BreakerConfig} {cb : CircuitBreaker} {cs : List Completion}

theorem recordAll_concat (cs : List Completion) (c : Completion) :
    cb.recordAll cfg (cs ++ [c]) = (cb.recordAll cfg cs).record cfg c := List.foldl_concat ..

theorem recordAll_append (cs cs' : List Completion) :
    cb.recordAll cfg (cs ++ cs') = (cb.recordAll cfg cs).recordAll cfg cs' := List.foldl_append ..

/-- A failure keeps a breaker CLOSED exactly when it stays below the threshold. -/
theorem recordFailure_state_closed {t : ℚ} (h : cb.state = .CLOSED) :
    (cb.recordFailure cfg t).state = .CLOSED ↔ cb.failureCount + 1 < cfg.failureThreshold := by
  by_cases hlt : cb.failureCount + 1 < cfg.failureThreshold
  · rw [CircuitBreaker.recordFailure_closed h hlt]
    exact iff_of_true h hlt
  · rw [CircuitBreaker.recordFailure_trip fun _ => Nat.le_of_not_lt hlt]
    exact iff_of_false nofun hlt

/-- One completion at a CLOSED breaker whose count is below the threshold: the count takes one step of
    the reflected walk, and the breaker stays CLOSED exactly when that is below the threshold too. -/
theorem record_closed (h : cb.state = .CLOSED) (hlt : cb.failureCount < cfg.failureThreshold)
    (c : Completion) :
    ((cb.record cfg c).failureCount : ℤ) = max 0 (cb.failureCount + c.drift) ∧
      ((cb.record cfg c).state = .CLOSED ↔
        (cb.record cfg c).failureCount < cfg.failureThreshold) := by
  cases c with
  | success =>
    have e : cb.record cfg .success = { cb with failureCount := cb.failureCount - 1 } :=
      CircuitBreaker.recordSuccess_closed h
    rw [e]
    dsimp only [Completion.drift]
    exact ⟨by omega, iff_of_true h (by omega)⟩
  | failure t =>
    have hcount : (cb.record cfg (.failure t)).failureCount = cb.failureCount + 1 :=
      CircuitBreaker.recordFailure_failureCount t cb
    rw [hcount]
    refine ⟨?_, recordFailure_state_closed h⟩
    dsimp only [Completion.drift]
    omega

/-- Completions alone do not close a breaker that is OPEN. -/
theorem recordAll_open (h : cb.state = .OPEN) : (cb.recordAll cfg cs).state = .OPEN := by
  induction cs generalizing cb with
  | nil => exact h
  | cons c cs ih =>
    refine ih ?_
    cases c with
    | success => rw [CircuitBreaker.record, CircuitBreaker.recordSuccess_open h, h]
    | failure t =>
      rw [CircuitBreaker.record, CircuitBreaker.recordFailure_trip fun h' => by rw [h] at h'; cases h']

/-- A CLOSED breaker is CLOSED or OPEN after completions alone. -/
theorem recordAll_open_of_ne (h : cb.state = .CLOSED)
    (hne : (cb.recordAll cfg cs).state ≠ .CLOSED) : (cb.recordAll cfg cs).state = .OPEN := by
  induction cs generalizing cb with
  | nil => exact absurd h hne
  | cons c cs ih =>
    change ((cb.record cfg c).recordAll cfg cs).state ≠ .CLOSED at hne
    change ((cb.record cfg c).recordAll cfg cs).state = .OPEN
    by_cases hc : (cb.record cfg c).state = .CLOSED
    · exact ih hc hne
    · refine recordAll_open ?_
      cases c with
      | success =>
        refine absurd ?_ hc
        rw [CircuitBreaker.record, CircuitBreaker.recordSuccess_closed h, h]
      | failure t =>
        have hge : ¬ cb.failureCount + 1 < cfg.failureThreshold := fun hlt =>
          hc ((recordFailure_state_closed h).mpr hlt)
        rw [CircuitBreaker.record, CircuitBreaker.recordFailure_trip fun _ => Nat.le_of_not_lt hge]

/-- **Below the threshold the count is the reflected walk**, and the breaker stays CLOSED exactly as long
    as the walk is below it. -/
theorem recordAll_walk (h : cb.state = .CLOSED) (h0 : cb.failureCount = 0) :
    ((cb.recordAll cfg cs).state = .CLOSED ↔
        ∀ pre, pre <+: cs →
          reflectedWalk (pre.map Completion.drift) < (cfg.failureThreshold : ℤ)) ∧
      ((cb.recordAll cfg cs).state = .CLOSED →
        ((cb.recordAll cfg cs).failureCount : ℤ) = reflectedWalk (cs.map Completion.drift)) := by
  induction cs using List.reverseRecOn with
  | nil =>
    have hpos : (0 : ℤ) < cfg.failureThreshold := by exact_mod_cast cfg.failureThreshold_pos
    refine ⟨iff_of_true h fun pre hpre => ?_, fun _ => congrArg Nat.cast h0⟩
    rw [List.prefix_nil.mp hpre]
    exact hpos
  | append_singleton cs c ih =>
    obtain ⟨hiff, hcount⟩ := ih
    have hwalk : reflectedWalk ((cs ++ [c]).map Completion.drift) =
        max 0 (reflectedWalk (cs.map Completion.drift) + c.drift) := by
      rw [List.map_append, List.map_singleton, reflectedWalk_concat]
    by_cases hcl : (cb.recordAll cfg cs).state = .CLOSED
    · have hbelow := hiff.mp hcl
      have hlt : (cb.recordAll cfg cs).failureCount < cfg.failureThreshold := by
        have := hbelow cs List.prefix_rfl
        rw [← hcount hcl] at this
        exact_mod_cast this
      obtain ⟨hstep, hstay⟩ := record_closed hcl hlt c
      rw [← recordAll_concat, hcount hcl, ← hwalk] at hstep
      rw [← recordAll_concat] at hstay
      refine ⟨?_, fun _ => hstep⟩
      rw [hstay, ← Int.ofNat_lt, hstep]
      constructor
      · intro hnew pre hpre
        rcases List.prefix_concat_iff.mp hpre with rfl | hpre
        · exact hnew
        · exact hbelow pre hpre
      · exact fun hall => hall _ List.prefix_rfl
    · have hopen : (cb.recordAll cfg (cs ++ [c])).state = .OPEN := by
        rw [recordAll_append]
        exact recordAll_open (recordAll_open_of_ne h hcl)
      have hne : ¬ (cb.recordAll cfg (cs ++ [c])).state = .CLOSED := by
        rw [hopen]
        exact nofun
      refine ⟨iff_of_false hne fun hall => hcl (hiff.mpr fun pre hpre => ?_), fun hc => absurd hc hne⟩
      exact hall pre (hpre.trans (List.prefix_append cs [c]))

/-- **A breaker is still CLOSED exactly when there was no surge yet.** -/
theorem recordAll_closed_iff (h : cb.state = .CLOSED) (h0 : cb.failureCount = 0) :
    (cb.recordAll cfg cs).state = .CLOSED ↔
      ∀ pre, pre <+: cs → ¬ Surges cfg.failureThreshold pre := by
  rw [(recordAll_walk h h0).1]
  refine forall_congr' fun pre => imp_congr_right fun _ => ?_
  rw [surges_iff, not_le]

end Count

/-! ## 3. The trip -/

/-- **The exact trip condition.** From CLOSED with nothing counted, a breaker leaves CLOSED with the
    first completion at which some block of completions that ends there has `failureThreshold` more
    failures than successes. Until then its count is the greatest excess of failures over the blocks
    that end at the newest completion, the empty one included. -/
theorem trips_at_first_surge (cfg : BreakerConfig) (cb : CircuitBreaker) (h : cb.state = .CLOSED)
    (h0 : cb.failureCount = 0) (cs : List Completion) :
    (∀ c, (cb.recordAll cfg cs).state = .CLOSED ∧ (cb.recordAll cfg (cs ++ [c])).state ≠ .CLOSED ↔
        (∀ pre, pre <+: cs → ¬ Surges cfg.failureThreshold pre) ∧
          Surges cfg.failureThreshold (cs ++ [c])) ∧
      ((cb.recordAll cfg cs).state = .CLOSED →
        IsGreatest {x : ℤ | ∃ block, block <:+ cs ∧ excess block = x}
          (cb.recordAll cfg cs).failureCount) := by
  constructor
  · intro c
    rw [recordAll_closed_iff h h0]
    refine and_congr_right fun hpre => ?_
    rw [Ne, recordAll_closed_iff h h0]
    constructor
    · intro hne
      by_contra hno
      refine hne fun pre hp => ?_
      rcases List.prefix_concat_iff.mp hp with rfl | hp
      · exact hno
      · exact hpre pre hp
    · exact fun hs hall => hall _ List.prefix_rfl hs
  · intro hcl
    rw [(recordAll_walk h h0).2 hcl]
    have hset : {x : ℤ | ∃ block, block <:+ cs ∧ excess block = x} =
        suffixSums (cs.map Completion.drift) := Set.ext fun x => mem_suffixSums_drift.symm
    rw [hset]
    exact isGreatest_reflectedWalk _

/-- With a threshold of three: two failures, a success and a failure do not trip, one failure more
    does. -/
theorem trips_at_first_surge_three :
    ((({} : CircuitBreaker).recordAll (.ofArgs {} (some 3))
        [.failure 1, .failure 2, .success, .failure 3]).state = .CLOSED ∧
      (({} : CircuitBreaker).recordAll (.ofArgs {} (some 3))
        ([.failure 1, .failure 2, .success, .failure 3] ++ [.failure 4])).state ≠ .CLOSED) ∧
    Surges 3 ([.failure 1, .failure 2, .success, .failure 3] ++ [.failure 4]) := by
  have htrip := (trips_at_first_surge (.ofArgs {} (some 3)) {} rfl rfl
    [.failure 1, .failure 2, .success, .failure 3]).1 (.failure 4)
  have hrun : (({} : CircuitBreaker).recordAll (.ofArgs {} (some 3))
        [.failure 1, .failure 2, .success, .failure 3]).state = .CLOSED ∧
      (({} : CircuitBreaker).recordAll (.ofArgs {} (some 3))
        ([.failure 1, .failure 2, .success, .failure 3] ++ [.failure 4])).state ≠ .CLOSED := by
    decide
  exact ⟨hrun, (htrip.mp hrun).2⟩

/-! ## 4. Overlapping calls -/

/-- What an action records. -/
def BreakerAction.completion? : BreakerAction → Option Completion
  | .finish _ .success _ => some .success
  | .finish _ .failure t | .recordFailure t => some (.failure t)
  | _ => none

def BreakerAction.isReset : BreakerAction → Bool
  | .reset _ => true
  | _ => false

section Overlap

variable {cfg : BreakerConfig} {s s' : BreakerSystem} {acts : List BreakerAction}

/-- At a CLOSED breaker an action does what it records, and nothing else. -/
theorem step_breaker_closed {a : BreakerAction} (h : s.breaker.state = .CLOSED)
    (ha : a.isReset = false) (hs : s.step cfg a = some s') :
    s'.breaker = s.breaker.recordAll cfg a.completion?.toList := by
  have hread : ∀ t, s.breaker.stateAt cfg t = s.breaker := fun t =>
    CircuitBreaker.stateAt_of_not_open (by simp [h])
  cases a with
  | execute t =>
    cases hs
    simp [BreakerSystem.execute, BreakerSystem.enterCall, BreakerSystem.read, hread t,
      CircuitBreaker.enter_closed h, BreakerAction.completion?, CircuitBreaker.recordAll]
  | finish c how t =>
    obtain ⟨-, hs⟩ := Option.ite_none_right_eq_some.mp hs
    cases how <;> cases hs <;> rfl
  | recordFailure t =>
    cases hs
    rfl
  | reset t => cases ha
  | read t =>
    cases hs
    exact hread t

/-- **The breaker under overlapping calls**: it has been CLOSED all along exactly when the completions
    of the run, one after another, leave it CLOSED. -/
theorem run_closed_iff (hacts : ∀ a ∈ acts, a.isReset = false) (h : s.breaker.state = .CLOSED)
    (hr : run (BreakerSystem.step cfg) s acts = some s') :
    Always (BreakerSystem.step cfg) (fun s => s.breaker.state = .CLOSED) s acts ↔
      (s.breaker.recordAll cfg (acts.filterMap BreakerAction.completion?)).state = .CLOSED := by
  induction acts generalizing s with
  | nil => exact Iff.rfl
  | cons a acts ih =>
    obtain ⟨s₁, h₁, h₂⟩ := run_cons.1 hr
    have hb := step_breaker_closed h (hacts a List.mem_cons_self) h₁
    have hcs : (a :: acts).filterMap BreakerAction.completion? =
        a.completion?.toList ++ acts.filterMap BreakerAction.completion? := by
      cases hc : a.completion? with
      | none => exact List.filterMap_cons_none hc
      | some c => exact List.filterMap_cons_some hc
    have hrest : Always (BreakerSystem.step cfg) (fun s => s.breaker.state = .CLOSED) s (a :: acts) ↔
        Always (BreakerSystem.step cfg) (fun s => s.breaker.state = .CLOSED) s₁ acts := by
      constructor
      · exact fun hall => hall.2 s₁ h₁
      · refine fun hall => ⟨h, fun s₂ hs₂ => ?_⟩
        rw [h₁] at hs₂
        cases hs₂
        exact hall
    rw [hrest, hcs, recordAll_append, ← hb]
    by_cases hcl : s₁.breaker.state = .CLOSED
    · exact ih (fun a' ha' => hacts a' (List.mem_cons_of_mem a ha')) hcl h₂
    · refine iff_of_false (fun hall => hcl hall.start) fun hend => ?_
      rw [hb] at hcl
      rw [hb, recordAll_open (recordAll_open_of_ne h hcl)] at hend
      cases hend

/-- So it trips with the first surge of the completions, whatever is started or read in between. -/
theorem run_closed_iff_surges (hacts : ∀ a ∈ acts, a.isReset = false)
    (hr : run (BreakerSystem.step cfg) {} acts = some s') :
    Always (BreakerSystem.step cfg) (fun s => s.breaker.state = .CLOSED) {} acts ↔
      ∀ pre, pre <+: acts.filterMap BreakerAction.completion? →
        ¬ Surges cfg.failureThreshold pre :=
  (run_closed_iff hacts rfl hr).trans (recordAll_closed_iff rfl rfl)

end Overlap

end BharatTicker
