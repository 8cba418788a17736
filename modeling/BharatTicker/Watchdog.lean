/-
  File:      BharatTicker/Watchdog.lean
  Subject:   THE EVENT-LOOP WATCHDOG (`utils/watchdog.py`).

  Two threads: the watchdog schedules a beat on the event loop, sleeps, and measures how old the last
  executed beat is; the event loop executes the scheduled beats in their order. Between these steps any
  time passes. Times are exact rationals on the monotonic clock. A sleep does not end early; one that is
  longer than the platform can represent raises, and the thread ends. `since` is a ghost: the newest
  scheduling, or the start where there was none.

  * `WatchdogEnv`, `startEventLoopWatchdog` -- the settings, and what they make of the environment;
  * `Watchdog`, `step` -- the two threads;
  * `Healthy`, `Punctual` -- the loop executes its beats within a second, the polls are not late;
  * `Safe` -- the inequality between the periods;
  * `Beating`, `step_beating`, `run_beating` -- the invariant where it holds, over any run;
  * `watchdog_spares_iff` -- no healthy process is killed exactly where it holds.
-/
import BharatTicker.Basis.FloatValue
import BharatTicker.Basis.Run
import BharatTicker.MarketData
import BharatTicker.Provider

namespace BharatTicker

open Basis

-- the concrete runs below compute with rationals
unseal Rat.add Rat.mul Rat.sub Rat.inv

/-! ## 1. The settings -/

/-- The environment: `none` is a variable that is not set. Of the two periods it has what `float` reads,
    `none` where that raises. -/
structure WatchdogEnv where
  enabled : Option String := none
  intervalS : Option (Option FloatValue) := none
  wedgeS : Option (Option FloatValue) := none

/-- `_env_bool`. -/
def envBool (v : Option String) (default : Bool) : Bool :=
  match v with
  | none => default
  | some v => lower (strip v) ∈ ["1", "true", "yes", "on"].map String.toList

structure WatchdogConfig where
  intervalS : FloatValue
  wedgeS : FloatValue
  deriving DecidableEq, Repr

/-- `max(floor, float(os.environ.get(name, default)))`; `none`: it raises. -/
def envPeriod (v : Option (Option FloatValue)) (default floor : ℚ) : Option FloatValue :=
  (v.getD (some (.finite default))).map (FloatValue.max (.finite floor))

/-- `start_event_loop_watchdog` up to the thread. It raises (`none`), is disabled (`some none`), or has
    its two periods. -/
def startEventLoopWatchdog (env : WatchdogEnv) : Option (Option WatchdogConfig) :=
  if !envBool env.enabled true then some none
  else
    (envPeriod env.intervalS 10 2).bind fun intervalS =>
      (envPeriod env.wedgeS 60 20).map fun wedgeS => some ⟨intervalS, wedgeS⟩

/-! ## 2. The two threads -/

inductive WatchdogThread where
  /-- Before its first beat. -/
  | starting
  | sleeping (wakesAt : ℚ)
  /-- It has returned, or its sleep raised. -/
  | ended
  /-- `os._exit(1)`. -/
  | killed
  deriving DecidableEq, Repr

/-- `last_beat`, the beats that the loop has not executed yet, by the times they were scheduled at, and
    the thread. -/
structure Watchdog where
  clock : ℚ
  lastBeat : ℚ
  pending : List ℚ := []
  thread : WatchdogThread := .starting
  since : ℚ
  deriving DecidableEq, Repr

inductive WatchdogAction where
  /-- The thread schedules its first beat, unless the loop is closed, and sleeps. -/
  | prime (t : ℚ) (closed : Bool)
  /-- The loop executes the oldest beat. -/
  | beat (t : ℚ)
  /-- The thread reads the clock; it exits, or schedules a beat at `u`. -/
  | poll (t u : ℚ) (closed : Bool)
  deriving DecidableEq, Repr

def WatchdogAction.time : WatchdogAction → ℚ
  | .prime t _ | .beat t | .poll t _ _ => t

namespace Watchdog

/-- `last_beat` as the watchdog starts. -/
def init (now : ℚ) : Watchdog where
  clock := now
  lastBeat := now
  since := now

/-- `time.sleep(interval_s)`, from `t` on. `sleepMax` is the longest sleep of the platform. -/
def sleep (sleepMax : ℚ) (cfg : WatchdogConfig) (t : ℚ) : WatchdogThread :=
  match cfg.intervalS with
  | .finite q => if q ≤ sleepMax then .sleeping (t + q) else .ended
  | _ => .ended

/-- `loop.call_soon_threadsafe(_beat)` on a loop that is not closed. -/
def schedule (t : ℚ) (s : Watchdog) : Watchdog :=
  { s with clock := t, pending := s.pending ++ [t], since := t }

/-- One cycle of the thread after its sleep. -/
def cycle (sleepMax : ℚ) (cfg : WatchdogConfig) (t u : ℚ) (closed : Bool) (s : Watchdog) : Watchdog :=
  let stale := t - s.lastBeat
  if cfg.wedgeS.lt (.finite stale) then { s with clock := t, thread := .killed }
  else if closed then { s with clock := u, thread := .ended }
  else { s.schedule u with thread := sleep sleepMax cfg u }

/-- One step of a thread, on a clock that does not run backwards. -/
def step (sleepMax : ℚ) (cfg : WatchdogConfig) (s : Watchdog) : WatchdogAction → Option Watchdog
  | .prime t closed =>
    if s.thread = .starting ∧ s.clock ≤ t then
      -- a closed loop raises, and the exception is swallowed
      some { (if closed then { s with clock := t } else s.schedule t) with
        thread := sleep sleepMax cfg t }
    else none
  | .beat t =>
    match s.pending with
    | [] => none
    | _ :: rest =>
      if s.thread ≠ .killed ∧ s.clock ≤ t then
        some { s with clock := t, lastBeat := t, pending := rest }
      else none
  | .poll t u closed =>
    match s.thread with
    | .sleeping wakesAt =>
      if wakesAt ≤ t ∧ s.clock ≤ t ∧ t ≤ u then some (s.cycle sleepMax cfg t u closed) else none
    | _ => none

end Watchdog

/-! ## 3. Healthy runs -/

/-- Nothing happens while a beat is overdue: the loop executes each within a second. -/
def Healthy (s : Watchdog) (a : WatchdogAction) : Prop := ∀ x ∈ s.pending, a.time ≤ x + 1

/-- A poll comes at most `late` after the interval that follows the last scheduling. -/
def Punctual (late : ℚ) (cfg : WatchdogConfig) (s : Watchdog) : WatchdogAction → Prop
  | .poll t _ _ => ∀ q, cfg.intervalS = .finite q → t ≤ s.since + q + late
  | _ => True

/-- The interval and the lateness of a poll are within the wedge, or the thread cannot sleep at all. -/
def WatchdogConfig.Safe (sleepMax late : ℚ) (cfg : WatchdogConfig) : Prop :=
  ∀ q, cfg.intervalS = .finite q → q ≤ sleepMax → cfg.wedgeS.lt (.finite (q + late)) = false

/-- The invariant: between two polls there is at most the one beat that was scheduled last, and the
    thread sleeps the interval out. -/
structure Beating (sleepMax : ℚ) (cfg : WatchdogConfig) (s : Watchdog) : Prop where
  past : s.since ≤ s.clock
  /-- The last scheduling is executed, or the only one to execute. -/
  beats : s.pending = [] ∧ s.since ≤ s.lastBeat ∨ s.pending = [s.since] ∧ s.thread ≠ .starting
  slept : ∀ w, s.thread = .sleeping w →
    ∃ q, cfg.intervalS = .finite q ∧ q ≤ sleepMax ∧ s.since + q ≤ w
  alive : s.thread ≠ .killed

section Runs

variable {sleepMax late : ℚ} {cfg : WatchdogConfig} {s s' : Watchdog} {a : WatchdogAction}

theorem envPeriod_floor {v : Option (Option FloatValue)} {default floor q : ℚ}
    (h : envPeriod v default floor = some (.finite q)) : floor ≤ q := by
  obtain ⟨x, -, hx⟩ := Option.map_eq_some_iff.mp h
  exact FloatValue.max_eq_finite hx

/-- The periods of an accepted environment. -/
theorem start_periods {env : WatchdogEnv} (h : startEventLoopWatchdog env = some (some cfg)) :
    envPeriod env.intervalS 10 2 = some cfg.intervalS ∧ envPeriod env.wedgeS 60 20 = some cfg.wedgeS := by
  unfold startEventLoopWatchdog at h
  split at h
  · cases h
  · obtain ⟨intervalS, hi, h⟩ := Option.bind_eq_some_iff.mp h
    obtain ⟨wedgeS, hw, h⟩ := Option.map_eq_some_iff.mp h
    cases h
    exact ⟨hi, hw⟩

/-- The interval is at least two seconds. -/
theorem interval_floor {env : WatchdogEnv} (h : startEventLoopWatchdog env = some (some cfg)) {q : ℚ}
    (hq : cfg.intervalS = .finite q) : 2 ≤ q :=
  envPeriod_floor ((start_periods h).1.trans (congrArg some hq))

/-- The thread sleeps for the interval, or ends. -/
theorem sleep_cases (sleepMax : ℚ) (cfg : WatchdogConfig) (t : ℚ) :
    (∃ q, cfg.intervalS = .finite q ∧ q ≤ sleepMax ∧
      Watchdog.sleep sleepMax cfg t = .sleeping (t + q)) ∨
    Watchdog.sleep sleepMax cfg t = .ended := by
  unfold Watchdog.sleep
  split
  · rename_i q hq
    by_cases hle : q ≤ sleepMax
    · exact .inl ⟨q, hq, hle, if_pos hle⟩
    · exact .inr (if_neg hle)
  · exact .inr rfl

/-- After a scheduling the thread sleeps from then on. -/
theorem beating_sleep {t : ℚ} (h : s.since ≤ t) (hclock : s.clock = t)
    (hbeats : s.pending = [] ∧ s.since ≤ s.lastBeat ∨ s.pending = [s.since]) :
    Beating sleepMax cfg { s with thread := Watchdog.sleep sleepMax cfg t } := by
  have hpast : s.since ≤ s.clock := by
    rw [hclock]
    exact h
  rcases sleep_cases sleepMax cfg t with ⟨q, hq, hle, e⟩ | e
  · rw [e]
    refine ⟨hpast, hbeats.imp id fun hp => ⟨hp, by simp⟩, fun w hw => ?_, by simp⟩
    cases hw
    exact ⟨q, hq, hle, add_le_add_left h q⟩
  · rw [e]
    exact ⟨hpast, hbeats.imp id fun hp => ⟨hp, by simp⟩, fun w hw => (by cases hw), by simp⟩

/-- A poll finds the beat of the last cycle executed, after the last scheduling. -/
theorem Beating.polled (h : Beating sleepMax cfg s)
    (hfloor : ∀ q, cfg.intervalS = .finite q → 2 ≤ q) {t w : ℚ} (hth : s.thread = .sleeping w)
    (hw : w ≤ t) (hHealthy : ∀ x ∈ s.pending, t ≤ x + 1) :
    s.pending = [] ∧ s.since ≤ s.lastBeat := by
  rcases h.beats with hb | hb
  · exact hb
  · obtain ⟨q, hq, -, hsince⟩ := h.slept w hth
    have hover : t ≤ s.since + 1 := hHealthy s.since (by rw [hb.1]; exact List.mem_singleton_self _)
    have := hfloor q hq
    linarith

theorem cycle_of_fresh {t u : ℚ} {closed : Bool}
    (h : cfg.wedgeS.lt (.finite (t - s.lastBeat)) = false) :
    s.cycle sleepMax cfg t u closed =
      if closed then { s with clock := u, thread := .ended }
      else { s.schedule u with thread := Watchdog.sleep sleepMax cfg u } := by
  simp only [Watchdog.cycle, h, Bool.false_eq_true, if_false]

/-- **One step of a healthy process keeps the invariant, the periods being safe.** -/
theorem step_beating (hfloor : ∀ q, cfg.intervalS = .finite q → 2 ≤ q) (hsafe : cfg.Safe sleepMax late)
    (h : Beating sleepMax cfg s) (hHealthy : Healthy s a) (hlate : Punctual late cfg s a)
    (hs : s.step sleepMax cfg a = some s') : Beating sleepMax cfg s' := by
  cases a with
  | prime t closed =>
    obtain ⟨⟨hth, ht⟩, rfl⟩ : (s.thread = .starting ∧ s.clock ≤ t) ∧ _ = s' := by
      simpa [Watchdog.step] using hs
    rcases h.beats with hb | hb
    · cases closed with
      | false =>
        exact beating_sleep (s := s.schedule t) (le_refl t) rfl
          (.inr (by show s.pending ++ [t] = [t]; rw [hb.1]; rfl))
      | true => exact beating_sleep (s := { s with clock := t }) (h.past.trans ht) rfl (.inl hb)
    · exact absurd hth hb.2
  | beat t =>
    rcases h.beats with hb | hb
    · simp [Watchdog.step, hb.1] at hs
    · obtain ⟨⟨-, ht⟩, rfl⟩ : (s.thread ≠ .killed ∧ s.clock ≤ t) ∧ _ = s' := by
        simpa [Watchdog.step, hb.1] using hs
      exact ⟨h.past.trans ht, .inl ⟨rfl, h.past.trans ht⟩, h.slept, h.alive⟩
  | poll t u closed =>
    cases hth : s.thread with
    | sleeping w =>
      obtain ⟨⟨hw, ht, hu⟩, rfl⟩ :
          (w ≤ t ∧ s.clock ≤ t ∧ t ≤ u) ∧ s.cycle sleepMax cfg t u closed = s' := by
        simpa [Watchdog.step, hth] using hs
      obtain ⟨q, hq, hmax, -⟩ := h.slept w hth
      obtain ⟨hnone, hbeat⟩ := h.polled hfloor hth hw hHealthy
      -- the beat is no older than the last scheduling, and the poll is not late
      have hstale : cfg.wedgeS.lt (.finite (t - s.lastBeat)) = false := by
        refine Bool.eq_false_iff.mpr fun hlt => ?_
        have hle : t - s.lastBeat ≤ q + late := by
          have := hlate q hq
          linarith
        exact Bool.false_ne_true ((hsafe q hq hmax).symm.trans (FloatValue.lt_finite_mono hlt hle))
      have hpast : s.since ≤ u := h.past.trans (ht.trans hu)
      rw [cycle_of_fresh hstale]
      cases closed with
      | true =>
        exact ⟨hpast, .inl ⟨hnone, hbeat⟩, fun w hw => (by cases hw), fun hk => (by cases hk)⟩
      | false =>
        exact beating_sleep (s := s.schedule u) (le_refl u) rfl
          (.inr (by show s.pending ++ [u] = [u]; rw [hnone]; rfl))
    | starting => simp [Watchdog.step, hth] at hs
    | ended => simp [Watchdog.step, hth] at hs
    | killed => simp [Watchdog.step, hth] at hs

theorem beating_init (now : ℚ) : Beating sleepMax cfg (.init now) where
  past := le_refl now
  beats := .inl ⟨rfl, le_refl now⟩
  slept _ h := by cases h
  alive h := by cases h

theorem run_beating (hfloor : ∀ q, cfg.intervalS = .finite q → 2 ≤ q) (hsafe : cfg.Safe sleepMax late)
    {now : ℚ} {acts : List WatchdogAction}
    (hr : run (Watchdog.step sleepMax cfg) (.init now) acts = some s)
    (hHealthy : StepsMeet (Watchdog.step sleepMax cfg) Healthy (.init now) acts)
    (hlate : StepsMeet (Watchdog.step sleepMax cfg) (Punctual late cfg) (.init now) acts) :
    Beating sleepMax cfg s :=
  run_invariant_meet
    (fun _ _ _ hI hC hs => step_beating hfloor hsafe hI hC.1 hC.2 hs)
    (beating_init now) (hHealthy.and hlate) hr

/-- Where the periods are not safe, the first poll can kill a process that has executed its beat at
    once. -/
theorem exists_killed {q : ℚ} (hq : cfg.intervalS = .finite q) (h2 : 2 ≤ q) (hmax : q ≤ sleepMax)
    (h0 : 0 ≤ late) (hwedge : cfg.wedgeS.lt (.finite (q + late)) = true) :
    ∃ acts s, run (Watchdog.step sleepMax cfg) (.init 0) acts = some s ∧
      StepsMeet (Watchdog.step sleepMax cfg) Healthy (.init 0) acts ∧
      StepsMeet (Watchdog.step sleepMax cfg) (Punctual late cfg) (.init 0) acts ∧
      s.thread = .killed := by
  let primed : Watchdog := ⟨0, 0, [0], .sleeping (0 + q), 0⟩
  let beaten : Watchdog := ⟨0, 0, [], .sleeping (0 + q), 0⟩
  let killed : Watchdog := ⟨q + late, 0, [], .killed, 0⟩
  have h₁ : Watchdog.step sleepMax cfg (.init 0) (.prime 0 false) = some primed := by
    simp [Watchdog.step, Watchdog.init, Watchdog.schedule, Watchdog.sleep, hq, hmax, primed]
  have h₂ : Watchdog.step sleepMax cfg primed (.beat 0) = some beaten := by
    simp [Watchdog.step, primed, beaten]
  have h₃ : Watchdog.step sleepMax cfg beaten (.poll (q + late) (q + late) false) = some killed := by
    have hpos : 0 ≤ q + late := by linarith
    simp [Watchdog.step, Watchdog.cycle, beaten, killed, hwedge, h0, hpos]
  refine ⟨[.prime 0 false, .beat 0, .poll (q + late) (q + late) false], killed, ?_, ?_, ?_, rfl⟩
  · simp [run, h₁, h₂, h₃]
  · refine ⟨fun x hx => (by cases hx), fun s₁ hs₁ => ?_⟩
    cases h₁.symm.trans hs₁
    refine ⟨fun x hx => ?_, fun s₂ hs₂ => ?_⟩
    · rw [List.mem_singleton.mp hx]
      exact zero_le_one
    · cases h₂.symm.trans hs₂
      exact ⟨fun x hx => (by cases hx), fun s₃ _ => trivial⟩
  · refine ⟨trivial, fun s₁ hs₁ => ?_⟩
    cases h₁.symm.trans hs₁
    refine ⟨trivial, fun s₂ hs₂ => ?_⟩
    cases h₂.symm.trans hs₂
    refine ⟨fun q' hq' => ?_, fun s₃ _ => trivial⟩
    cases hq.symm.trans hq'
    show q + late ≤ 0 + q + late
    linarith

/-! ## 4. Which periods are safe -/

/-- **No healthy process is killed exactly where the interval, with the lateness of a poll, is within
    the wedge.** -/
theorem watchdog_spares_iff {env : WatchdogEnv}
    (haccepted : startEventLoopWatchdog env = some (some cfg)) (hlate : 0 ≤ late) :
    (∀ now acts s, run (Watchdog.step sleepMax cfg) (.init now) acts = some s →
      StepsMeet (Watchdog.step sleepMax cfg) Healthy (.init now) acts →
      StepsMeet (Watchdog.step sleepMax cfg) (Punctual late cfg) (.init now) acts →
      s.thread ≠ .killed) ↔ cfg.Safe sleepMax late := by
  have hfloor := fun q => interval_floor (q := q) haccepted
  refine ⟨fun h q hq hmax => ?_, fun hsafe now acts s hr hHealthy hPunctual => ?_⟩
  · refine Bool.eq_false_iff.mpr fun hwedge => ?_
    obtain ⟨acts, s, hr, hHealthy, hPunctual, hkilled⟩ :=
      exists_killed hq (hfloor q hq) hmax hlate hwedge
    exact h 0 acts s hr hHealthy hPunctual hkilled
  · exact (run_beating hfloor hsafe hr hHealthy hPunctual).alive

/-- The wedge is at least twenty seconds, so an interval well below that is always safe. -/
theorem safe_of_interval_le {env : WatchdogEnv} (haccepted : startEventLoopWatchdog env = some (some cfg))
    (h : ∀ q, cfg.intervalS = .finite q → q + late ≤ 20) : cfg.Safe sleepMax late := by
  intro q hq _
  obtain ⟨x, -, hx⟩ := Option.map_eq_some_iff.mp (start_periods haccepted).2
  rw [← hx]
  exact FloatValue.not_max_lt x (h q hq)

instance (s : Watchdog) (a : WatchdogAction) : Decidable (Healthy s a) :=
  inferInstanceAs (Decidable (∀ x ∈ s.pending, a.time ≤ x + 1))

instance (late : ℚ) (cfg : WatchdogConfig) (s : Watchdog) : ∀ a, Decidable (Punctual late cfg s a)
  | .prime _ _ | .beat _ => .isTrue trivial
  | .poll t _ _ =>
    match h : cfg.intervalS with
    | .finite q => decidable_of_iff (t ≤ s.since + q + late)
        ⟨fun hle q' e => by rw [h] at e; cases e; exact hle, fun hle => hle q h⟩
    | .infinity _ | .nan => .isTrue fun q' e => by rw [h] at e; cases e

/-- Beats that are executed within a second, and polls that are late. -/
def lateRun : List WatchdogAction :=
  [.prime 0 false, .beat 1, .poll 50 51 false, .beat 52, .poll 65 65 false]

/-- The default periods, with polls that are late by up to fifty seconds. -/
theorem watchdog_spares_default :
    ∃ s, run (Watchdog.step 9223372036 ⟨.finite 10, .finite 60⟩) (.init 0) lateRun = some s ∧
      s.thread ≠ .killed := by
  have haccepted : startEventLoopWatchdog {} = some (some ⟨.finite 10, .finite 60⟩) := by decide
  have hsafe : WatchdogConfig.Safe 9223372036 50 ⟨.finite 10, .finite 60⟩ := by
    intro q hq _
    cases hq
    decide
  have hr : run (Watchdog.step 9223372036 ⟨.finite 10, .finite 60⟩) (.init 0) lateRun =
      some ⟨65, 52, [65], .sleeping 75, 65⟩ := by decide
  exact ⟨_, hr, (watchdog_spares_iff haccepted (by norm_num)).mpr hsafe 0 lateRun _ hr (by decide)
    (by decide)⟩

/-- With `WATCHDOG_INTERVAL_S=120` the first poll kills a process that has executed its beat at once. -/
theorem watchdog_kills_healthy :
    startEventLoopWatchdog { intervalS := some (some (.finite 120)) } =
      some (some ⟨.finite 120, .finite 60⟩) ∧
    ∃ s, run (Watchdog.step 9223372036 ⟨.finite 120, .finite 60⟩) (.init 0)
        [.prime 0 false, .beat 0, .poll 120 120 false] = some s ∧
      StepsMeet (Watchdog.step 9223372036 ⟨.finite 120, .finite 60⟩) Healthy (.init 0)
        [.prime 0 false, .beat 0, .poll 120 120 false] ∧
      s.thread = .killed := by
  refine ⟨by decide, ⟨120, 0, [], .killed, 0⟩, by decide, by decide, rfl⟩

end Runs

end BharatTicker
