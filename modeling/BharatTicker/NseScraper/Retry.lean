/-
  File:      BharatTicker/NseScraper/Retry.lean
  Subject:   THE RETRY OF A BLOCKED REQUEST (`fetch_quote`, `_refresh_cookies`): does the home page answer
             again between the 403 and the retry?

  * `HomeSince`, `RetriedFresh` -- what the retry is meant to do;
  * `RefreshesBlocked` -- the condition on a step;
  * `RefreshInv` -- the invariant: a call that refreshes after its 403 has requested the home page;
  * `Quiet`, `resume_quiet`, `step_cases` -- what a step does to the log;
  * `retry_after_refresh` -- all interleavings.
-/
import BharatTicker.NseScraper

namespace BharatTicker

open Basis

-- the concrete runs below compute with rationals
unseal Rat.add Rat.mul Rat.sub Rat.inv

/-! ## 1. What the retry is meant to do -/

/-- The home page was requested since the call was blocked. -/
def HomeSince (i : ℕ) (log : List ScraperEvent) : Prop :=
  .home ∈ log.takeWhile fun e => e ≠ .blocked i

/-- Every retry left after the home page was requested again. -/
def RetriedFresh (s : NSEScraper) : Prop :=
  Along (fun e before => ∀ i, e = .quote i .retry → HomeSince i before) s.log

/-- Where a blocked call gets the lock, the cookies are as old as the interval, or the home page was
    requested since, by another call; or there is no session to retry on. -/
def RefreshesBlocked (cfg : ScraperSettings) (s : NSEScraper) : ScraperAction → Prop
  | .lock i t _ =>
    s.tasks i = .refreshing .waiting (.quote .retry) → s.session = true →
      (cfg.refreshInterval : ℚ) ≤ t - s.lastCookieRefresh ∨ HomeSince i s.log
  | _ => True

/-- The call has requested the home page, to retry afterwards. -/
def ScraperPhase.refreshes : ScraperPhase → Bool
  | .refreshing .home (.quote .retry) | .refreshing .playwright (.quote .retry) => true
  | _ => false

/-- The invariant. -/
def RefreshInv (s : NSEScraper) : Prop := ∀ i, (s.tasks i).refreshes = true → HomeSince i s.log

section Retry

variable {cfg : ScraperSettings} {s s' : NSEScraper} {a : ScraperAction} {i : ℕ} {t u : ℚ}
  {next : ScraperPoint} {log : List ScraperEvent} {e : ScraperEvent}

theorem homeSince_cons (h : e ≠ .blocked i) (hlog : HomeSince i log) : HomeSince i (e :: log) := by
  unfold HomeSince
  rw [List.takeWhile_cons, if_pos (decide_eq_true h)]
  exact List.mem_cons_of_mem _ hlog

theorem homeSince_home (i : ℕ) (log : List ScraperEvent) : HomeSince i (.home :: log) := by
  unfold HomeSince
  rw [List.takeWhile_cons, if_pos (decide_eq_true fun h => by cases h)]
  exact List.mem_cons_self

/-! ## 2. What a step does to the log -/

/-- A step of one call that has no retry and no 403 in it. -/
structure Quiet (i : ℕ) (s s' : NSEScraper) : Prop where
  others : ∀ j, j ≠ i → s'.tasks j = s.tasks j
  phase : (s'.tasks i).refreshes = true → (s.tasks i).refreshes = true ∨ HomeSince i s'.log
  log : s'.log = s.log ∨
    ∃ e, s'.log = e :: s.log ∧ (∀ j, e ≠ .blocked j) ∧ ∀ j, e ≠ .quote j .retry

theorem Quiet.keeps (h : Quiet i s s') (hinv : RefreshInv s) : RefreshInv s' := by
  have hlog : ∀ j, HomeSince j s.log → HomeSince j s'.log := by
    intro j hj
    rcases h.log with e | ⟨e, he, hb, -⟩
    · rw [e]
      exact hj
    · rw [he]
      exact homeSince_cons (hb j) hj
  intro j hj
  by_cases hji : j = i
  · subst hji
    rcases h.phase hj with hold | hnew
    · exact hlog j (hinv j hold)
    · exact hnew
  · rw [h.others j hji] at hj
    exact hlog j (hinv j hj)

theorem Quiet.retried (h : Quiet i s s') : RetriedFresh s' ↔ RetriedFresh s := by
  unfold RetriedFresh
  rcases h.log with e | ⟨e, he, -, hq⟩
  · rw [e]
  · rw [he]
    exact and_iff_right fun j hj => absurd hj (hq j)

/-- Only the phases and the log count in the state before the step. -/
theorem Quiet.congr {s₁ : NSEScraper} (h : Quiet i s₁ s') (ht : s₁.tasks = s.tasks) (hl : s₁.log = s.log) :
    Quiet i s s' where
  others j hj := by
    rw [← ht]
    exact h.others j hj
  phase := by
    rw [← ht]
    exact h.phase
  log := by
    rw [← hl]
    exact h.log

theorem setTask_self (s : NSEScraper) (i : ℕ) (phase : ScraperPhase) :
    (s.setTask i phase).tasks i = phase := by
  show Function.update s.tasks i phase i = phase
  exact Function.update_self ..

/-- The call moves to a phase in which it has not requested the home page for its retry. -/
theorem quiet_setTask (phase : ScraperPhase) (hp : phase.refreshes = false) (s : NSEScraper) :
    Quiet i s (s.setTask i phase) where
  others j hj := Function.update_of_ne hj _ _
  phase h := by
    rw [setTask_self, hp] at h
    cases h
  log := .inl rfl

theorem quiet_send (event : ScraperEvent) (phase : ScraperPhase) (failed : ScraperResult)
    (hp : phase.refreshes = false) (hb : ∀ j, event ≠ .blocked j) (hq : ∀ j, event ≠ .quote j .retry)
    (s : NSEScraper) : Quiet i s (s.send i event phase failed) := by
  unfold NSEScraper.send
  split
  · have h := quiet_setTask (i := i) phase hp s
    refine ⟨h.others, fun hr => ?_, .inr ⟨event, rfl, hb, hq⟩⟩
    rw [show ({ s.setTask i phase with log := event :: s.log } : NSEScraper).tasks i = phase from
      setTask_self s i phase, hp] at hr
    cases hr
  · exact quiet_setTask _ rfl s

theorem sendQuote_quiet {attempt : QuoteAttempt} (ha : attempt ≠ .retry) (s : NSEScraper) :
    Quiet i s (s.sendQuote i attempt) :=
  quiet_send _ _ _ rfl (fun j h => by cases h) (fun j h => ha (by cases h; rfl)) s

theorem sendStatus_quiet (s : NSEScraper) : Quiet i s (s.sendStatus i) :=
  quiet_send _ _ _ rfl (fun j h => by cases h) (fun j h => by cases h) s

theorem ensureQuote_quiet {attempt : QuoteAttempt} (ha : attempt ≠ .retry) (s : NSEScraper) :
    Quiet i s (s.ensureQuote cfg i attempt u) := by
  unfold NSEScraper.ensureQuote
  dsimp only
  split
  · exact quiet_setTask _ rfl s
  · exact sendQuote_quiet ha s

/-- Where a call does not go on to its retry, its way from a refresh to its next wait is quiet. -/
theorem resume_quiet (hnext : next ≠ .quote .retry) (s : NSEScraper) :
    Quiet i s (s.resume cfg i u next) := by
  cases next with
  | connected after =>
    have hconn : Quiet i { s with isConnected := true } (s.resume cfg i u (.connected after)) := by
      cases after with
      | nothing => exact quiet_setTask _ rfl _
      | fetchQuote => exact ensureQuote_quiet (by decide) _
      | rotateSession => exact ensureQuote_quiet (by decide) _
    exact hconn.congr rfl rfl
  | quote attempt => exact sendQuote_quiet (fun h => hnext (congrArg _ h)) s
  | status => exact sendStatus_quiet s

theorem rotate_quiet (s : NSEScraper) (i : ℕ) : Quiet i s (s.rotate i) :=
  (quiet_setTask _ rfl
    { s with session := true, lastCookieRefresh := 0, isConnected := false }).congr rfl rfl

/-- A retry leaves: of a call that has refreshed, or that gets the lock while the cookies are fresh. -/
structure Retries (cfg : ScraperSettings) (s s' : NSEScraper) (a : ScraperAction) (i : ℕ) : Prop where
  sent : ∃ s₁ : NSEScraper, s₁.tasks = s.tasks ∧ s₁.log = s.log ∧ s₁.session = s.session ∧
    s' = s₁.sendQuote i .retry
  cause : (s.tasks i).refreshes = true ∧ RefreshesBlocked cfg s a ∨
    ∃ t u, a = .lock i t u ∧ s.tasks i = .refreshing .waiting (.quote .retry) ∧
      t - s.lastCookieRefresh < cfg.refreshInterval

/-- The first quote request of a call is blocked. -/
structure Blocks (s s' : NSEScraper) (i : ℕ) : Prop where
  others : ∀ j, j ≠ i → s'.tasks j = s.tasks j
  phase : (s'.tasks i).refreshes = false
  log : s'.log = .blocked i :: s.log

/-- A refresh that has returned: the call sends its retry, or goes on quietly. -/
theorem resume_cases (a : ScraperAction) (hC : RefreshesBlocked cfg s a)
    (hphase : next = .quote .retry → (s.tasks i).refreshes = true) (s₁ : NSEScraper)
    (ht : s₁.tasks = s.tasks) (hl : s₁.log = s.log) (hsession : s₁.session = s.session) :
    Quiet i s (s₁.resume cfg i u next) ∨ Retries cfg s (s₁.resume cfg i u next) a i := by
  by_cases hnext : next = .quote .retry
  · have hr := hphase hnext
    subst hnext
    exact .inr ⟨⟨s₁, ht, hl, hsession, rfl⟩, .inl ⟨hr, hC⟩⟩
  · exact .inl ((resume_quiet hnext s₁).congr ht hl)

theorem locked_cases (hphase : s.tasks i = .refreshing .waiting next) :
    Quiet i s (s.locked cfg i next t u) ∧ RefreshesBlocked cfg s (.lock i t u) ∨
      Retries cfg s (s.locked cfg i next t u) (.lock i t u) i := by
  have hC : ¬ (next = .quote .retry ∧ t - s.lastCookieRefresh < cfg.refreshInterval ∧ s.session = true) →
      RefreshesBlocked cfg s (.lock i t u) := by
    intro hnot htask hsession
    rw [hphase] at htask
    refine .inl (not_lt.mp fun hlt => hnot ⟨?_, hlt, hsession⟩)
    cases htask
    rfl
  unfold NSEScraper.locked
  by_cases hfresh : t - s.lastCookieRefresh < cfg.refreshInterval
  · rw [if_pos hfresh]
    by_cases hnext : next = .quote .retry
    · subst hnext
      exact .inr ⟨⟨s, rfl, rfl, rfl, rfl⟩, .inr ⟨t, u, rfl, hphase, hfresh⟩⟩
    · exact .inl ⟨resume_quiet hnext s, hC fun h => hnext h.1⟩
  · rw [if_neg hfresh]
    refine .inl ⟨?_, hC fun h => hfresh h.2.1⟩
    split
    · refine ⟨fun j hj => Function.update_of_ne hj _ _, fun _ => .inr (homeSince_home i s.log), ?_⟩
      exact .inr ⟨.home, rfl, fun j h => (by cases h), fun j h => (by cases h)⟩
    · exact quiet_setTask _ rfl s

/-- The home page has answered. -/
theorem homeAnswered_cases (hphase : s.tasks i = .refreshing .home next) (answer : ScraperAnswer) :
    Quiet i s (s.homeAnswered cfg i next t u answer) ∨
      Retries cfg s (s.homeAnswered cfg i next t u answer) (.home i answer t u) i := by
  have hr : next = .quote .retry → (s.tasks i).refreshes = true := by
    intro e
    rw [hphase, e]
    rfl
  cases answer with
  | raised => exact .inl ((quiet_setTask _ rfl { s with lock := none }).congr rfl rfl)
  | response status usable =>
    unfold NSEScraper.homeAnswered
    dsimp only
    split
    · exact resume_cases (s := s) (.home i (.response status usable) t u) trivial hr _ rfl rfl rfl
    · split
      · refine .inl ⟨fun j hj => Function.update_of_ne hj _ _, fun h => .inl ?_, .inl rfl⟩
        -- the browser takes over, for the same call
        rw [setTask_self] at h
        rw [hphase]
        cases next with
        | quote attempt =>
          cases attempt with
          | retry => rfl
          | first => exact h
          | rotated => exact h
        | connected after => exact h
        | status => exact h
      · exact resume_cases (s := s) (.home i (.response status usable) t u) trivial hr _ rfl rfl rfl

/-- A quote request is answered: a first one that is blocked, or anything else. -/
theorem quoted_cases (attempt : QuoteAttempt) (answer : ScraperAnswer) :
    Quiet i s (s.quoted cfg i attempt answer) ∨ Blocks s (s.quoted cfg i attempt answer) i := by
  cases answer with
  | raised => exact .inl (quiet_setTask _ rfl s)
  | response status usable =>
    unfold NSEScraper.quoted
    dsimp only
    split
    · cases attempt with
      | first =>
        refine .inr ⟨fun j hj => Function.update_of_ne hj _ _, ?_, rfl⟩
        show ((s.setTask i (.refreshing .waiting (.quote .retry))).tasks i).refreshes = false
        rw [setTask_self]
        rfl
      | retry =>
        dsimp only
        split
        · split
          · exact .inl (quiet_setTask _ rfl s)
          · exact .inl (rotate_quiet s i)
        · exact .inl (quiet_setTask _ rfl s)
      | rotated => exact .inl (quiet_setTask _ rfl s)
    · split
      · exact .inl (quiet_setTask _ rfl s)
      · exact .inl (quiet_setTask _ rfl s)

/-- **What a step does to the log.** -/
theorem next_cases (h : s.next cfg a = some s') :
    ∃ i, (Quiet i s s' ∨ Blocks s s' i) ∧ RefreshesBlocked cfg s a ∨ Retries cfg s s' a i := by
  cases a with
  | connect i t =>
    obtain ⟨-, h⟩ := Option.ite_none_right_eq_some.mp h
    cases h
    refine ⟨i, .inl ⟨.inl ?_, trivial⟩⟩
    split
    · exact quiet_setTask _ rfl s
    · exact (quiet_setTask _ rfl { s with session := true }).congr rfl rfl
  | fetchQuote i t =>
    obtain ⟨-, h⟩ := Option.ite_none_right_eq_some.mp h
    cases h
    refine ⟨i, .inl ⟨.inl ?_, trivial⟩⟩
    split
    · exact ensureQuote_quiet (by decide) s
    · exact (quiet_setTask _ rfl { s with session := true }).congr rfl rfl
  | healthCheck i t =>
    obtain ⟨-, h⟩ := Option.ite_none_right_eq_some.mp h
    cases h
    refine ⟨i, .inl ⟨.inl ?_, trivial⟩⟩
    split
    · exact quiet_setTask _ rfl s
    · split
      · exact quiet_setTask _ rfl s
      · exact sendStatus_quiet s
  | disconnect t =>
    cases h
    exact ⟨0, .inl ⟨.inl ⟨fun _ _ => rfl, .inl, .inl rfl⟩, trivial⟩⟩
  | lock i t u =>
    simp only [NSEScraper.next] at h
    split at h
    · rename_i next hphase
      obtain ⟨-, h⟩ := Option.ite_none_right_eq_some.mp h
      cases h
      exact ⟨i, (locked_cases hphase).imp (fun h => ⟨.inl h.1, h.2⟩) id⟩
    · cases h
  | home i answer t u =>
    simp only [NSEScraper.next] at h
    split at h
    · rename_i next hphase
      cases h
      exact ⟨i, (homeAnswered_cases hphase answer).imp (fun h => ⟨.inl h, trivial⟩) id⟩
    · cases h
  | playwright i ok t u =>
    simp only [NSEScraper.next] at h
    split at h
    · rename_i next hphase
      cases h
      let s₁ : NSEScraper :=
        { s with lock := none, lastCookieRefresh := if ok then t else s.lastCookieRefresh }
      refine ⟨i, (resume_cases (s := s) (.playwright i ok t u) trivial ?_ s₁ rfl rfl rfl).imp
        (fun h => ⟨.inl h, trivial⟩) id⟩
      intro e
      rw [hphase, e]
      rfl
    · cases h
  | quoted i answer t =>
    simp only [NSEScraper.next] at h
    split at h
    · cases h
      exact ⟨i, .inl ⟨quoted_cases _ answer, trivial⟩⟩
    · cases h
  | closed i t =>
    obtain ⟨-, h⟩ := Option.ite_none_right_eq_some.mp h
    cases h
    exact ⟨i, .inl ⟨.inl (rotate_quiet s i), trivial⟩⟩
  | checked i answer t =>
    obtain ⟨-, h⟩ := Option.ite_none_right_eq_some.mp h
    cases h
    exact ⟨i, .inl ⟨.inl (quiet_setTask _ rfl s), trivial⟩⟩

/-! ## 3. One step -/

theorem Blocks.keeps (h : Blocks s s' i) (hinv : RefreshInv s) : RefreshInv s' := by
  intro j hj
  by_cases hji : j = i
  · subst hji
    rw [h.phase] at hj
    cases hj
  · rw [h.others j hji] at hj
    rw [h.log]
    exact homeSince_cons (fun e => hji (by cases e; rfl)) (hinv j hj)

theorem Blocks.retried (h : Blocks s s' i) : RetriedFresh s' ↔ RetriedFresh s := by
  unfold RetriedFresh
  rw [h.log]
  exact and_iff_right fun j hj => by cases hj

theorem Retries.keeps (h : Retries cfg s s' a i) (hinv : RefreshInv s) : RefreshInv s' := by
  obtain ⟨s₁, ht, hl, -, rfl⟩ := h.sent
  intro j hj
  unfold NSEScraper.sendQuote NSEScraper.send at hj ⊢
  split at hj
  · rename_i hsession
    rw [if_pos hsession]
    by_cases hji : j = i
    · subst hji
      rw [show ({ s₁.setTask j (.quoting .retry) with log := .quote j .retry :: s₁.log } :
        NSEScraper).tasks j = .quoting .retry from setTask_self s₁ j _] at hj
      cases hj
    · refine homeSince_cons (fun e => by cases e) ?_
      rw [hl]
      refine hinv j ?_
      rw [← ht]
      rw [show ({ s₁.setTask i (.quoting .retry) with log := .quote i .retry :: s₁.log } :
        NSEScraper).tasks j = s₁.tasks j from Function.update_of_ne hji _ _] at hj
      exact hj
  · rename_i hsession
    rw [if_neg hsession]
    have hquiet := quiet_setTask (i := i) (.done (.providerError none)) rfl s₁
    exact (hquiet.congr ht hl).keeps hinv j hj

/-- A retry that leaves is one after a request of the home page, exactly where the condition holds. -/
theorem Retries.retried (h : Retries cfg s s' a i) (hinv : RefreshInv s) :
    RetriedFresh s' ↔ RetriedFresh s ∧ RefreshesBlocked cfg s a := by
  obtain ⟨s₁, ht, hl, hsame, rfl⟩ := h.sent
  by_cases hsession : s.session = true
  · have hlog : (s₁.sendQuote i .retry).log = .quote i .retry :: s.log := by
      unfold NSEScraper.sendQuote NSEScraper.send
      rw [if_pos (hsame.trans hsession), ← hl]
    unfold RetriedFresh
    rw [hlog]
    show (∀ j, ScraperEvent.quote i .retry = .quote j .retry → HomeSince j s.log) ∧ _ ↔ _
    have hself : (∀ j, ScraperEvent.quote i .retry = .quote j .retry → HomeSince j s.log) ↔
        HomeSince i s.log :=
      ⟨fun h => h i rfl, fun h j e => by cases e; exact h⟩
    rw [hself, and_comm]
    refine and_congr_right fun _ => ?_
    rcases h.cause with ⟨hr, hC⟩ | ⟨t, u, rfl, hphase, hfresh⟩
    · exact iff_of_true (hinv i hr) hC
    · exact ⟨fun hh _ _ => .inr hh,
        fun hC => (hC hphase hsession).resolve_left (not_le.mpr hfresh)⟩
  · have hlog : (s₁.sendQuote i .retry).log = s.log := by
      unfold NSEScraper.sendQuote NSEScraper.send
      rw [if_neg (by rw [hsame]; exact hsession)]
      exact hl
    unfold RetriedFresh
    rw [hlog]
    refine (and_iff_left ?_).symm
    rcases h.cause with ⟨-, hC⟩ | ⟨t, u, rfl, -, -⟩
    · exact hC
    · exact fun _ h => absurd h hsession

/-- **One step**: the invariant, and what it needs for the retries. -/
theorem step_refresh (hinv : RefreshInv s) (hs : s.step cfg a = some s') :
    RefreshInv s' ∧ (RetriedFresh s' ↔ RetriedFresh s ∧ RefreshesBlocked cfg s a) := by
  obtain ⟨-, hs⟩ := Option.ite_none_right_eq_some.mp hs
  obtain ⟨s₁, h₁, rfl⟩ := Option.map_eq_some_iff.mp hs
  -- the clock is in neither
  show RefreshInv s₁ ∧ (RetriedFresh s₁ ↔ _)
  obtain ⟨i, ⟨h | h, hC⟩ | h⟩ := next_cases h₁
  · exact ⟨h.keeps hinv, h.retried.trans (and_iff_left hC).symm⟩
  · exact ⟨h.keeps hinv, h.retried.trans (and_iff_left hC).symm⟩
  · exact ⟨h.keeps hinv, h.retried hinv⟩

/-! ## 4. All interleavings -/

/-- **A retry leaves after a new request of the home page exactly where the blocked call does not find the
    cookies fresh**, whatever the calls before and beside it have left. -/
theorem retry_after_refresh {now : ℚ} {acts : List ScraperAction}
    (hr : run (NSEScraper.step cfg) (.init now) acts = some s) :
    Always (NSEScraper.step cfg) RetriedFresh (.init now) acts ↔
      StepsMeet (NSEScraper.step cfg) (RefreshesBlocked cfg) (.init now) acts := by
  have hstart : RefreshInv (.init now) := fun _ h => by cases h
  have hnone : RetriedFresh (.init now) := trivial
  have h := always_iff_meet (I := RetriedFresh) (J := RefreshInv) (C := RefreshesBlocked cfg)
    (fun _ _ _ hI hs => (step_refresh hI hs).1)
    (fun _ _ _ hI hok hs => (step_refresh hI hs).2.trans (and_iff_right hok)) hstart hr
  rw [h]
  exact and_iff_right hnone

end Retry

instance (i : ℕ) (log : List ScraperEvent) : Decidable (HomeSince i log) :=
  inferInstanceAs (Decidable (_ ∈ _))

instance (cfg : ScraperSettings) (s : NSEScraper) : ∀ a, Decidable (RefreshesBlocked cfg s a)
  | .lock i t _ => inferInstanceAs (Decidable (s.tasks i = .refreshing .waiting (.quote .retry) →
      s.session = true →
      (cfg.refreshInterval : ℚ) ≤ t - s.lastCookieRefresh ∨ HomeSince i s.log))
  | .connect _ _ | .fetchQuote _ _ | .healthCheck _ _ | .disconnect _ | .home _ _ _ _
  | .playwright _ _ _ _ | .quoted _ _ _ | .closed _ _ | .checked _ _ _ => .isTrue trivial

/-- A call that connects, and whose first request is blocked `wait` seconds later. -/
def blockedRun (wait : ℚ) (rest : List ScraperAction) : List ScraperAction :=
  [.fetchQuote 0 1000, .lock 0 1000 1000, .home 0 (.response 200) 1001 1001,
    .quoted 0 (.response 403) (1001 + wait)] ++ rest

/-- After two minutes the cookies are requested again. -/
theorem retry_refreshes_stale :
    Always (NSEScraper.step {}) RetriedFresh (.init 1000)
      (blockedRun 120 [.lock 0 1121 1121, .home 0 (.response 200) 1122 1122]) := by
  exact (retry_after_refresh rfl).mpr (by decide)

/-- After one second the retry leaves with the cookies that were blocked. -/
theorem retry_without_refresh :
    ∃ s, run (NSEScraper.step {}) (.init 1000) (blockedRun 1 [.lock 0 1002 1002]) = some s ∧
      s.log = [.quote 0 .retry, .blocked 0, .quote 0 .first, .home] ∧ ¬ RetriedFresh s := by
  refine ⟨_, rfl, by decide, fun h => ?_⟩
  have hhome := h.1 0 rfl
  revert hhome
  decide

end BharatTicker
