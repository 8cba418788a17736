/-
  File:      BharatTicker/Bhavcopy/Budget.lean
  Subject:   HOW OFTEN THE ARCHIVE HOST IS ASKED. With nothing loaded, attempts are two minutes apart.
             With a file loaded, the hour counts from that file: a refresh that downloads nothing
             leaves the loader due, and the next call asks again at once.

  * `Contacts`, `Apart`, `KeepsBudget` -- a call that contacts the host, and the budget of all that
    follow it;
  * `nseOpens`, `bseOpens` -- the tries of a walk in which the host is asked;
  * `WalkSpec`, `nseWalk_spec`, `bseWalk_spec` -- what a walk does, said once;
  * `Settled`, `settled_step`, `settled_contact` -- the invariant: a contact is accounted for;
  * `Refreshes`, `contacts_again`, `keepsBudget_iff` -- one call, in all continuations;
  * `refresh_budget_iff` -- all sequences; `stale_file_asked_each_minute` -- Monday's file on Tuesday.
-/
import BharatTicker.Bhavcopy.Forward

namespace BharatTicker

open Basis

-- the concrete runs below compute with rationals
unseal Rat.add Rat.mul Rat.sub Rat.inv

namespace Bhavcopy

/-! ## 1. The budget -/

/-- The call contacts the host: it asks for a file. With nothing loaded every attempt counts, since
    the first of the BSE loader opens its session at the host. -/
def Contacts (walk : ℕ → List DayTry → Bhavcopy → Bhavcopy) (s : Bhavcopy) (call : LoadCall) :
    Prop :=
  ¬ s.idle call.calledAt ∧
    (s.rows = [] ∨ (s.ensureLoaded walk call).downloads ≠ s.downloads)

/-- An hour apart if a file is loaded at the second call, two minutes if none is. -/
def Apart (s₂ : Bhavcopy) (c₁ c₂ : LoadCall) : Prop :=
  (s₂.rows ≠ [] → 3600 ≤ c₂.calledAt - c₁.calledAt) ∧
    (s₂.rows = [] → 120 ≤ c₂.calledAt - c₁.calledAt)

/-- However the sequence goes on: a later call that contacts the host starts late enough after this
    one, if this one does. -/
def KeepsBudget (walk : ℕ → List DayTry → Bhavcopy → Bhavcopy) (s : Bhavcopy) (c₁ : LoadCall) :
    Prop :=
  Contacts walk s c₁ → ∀ s₁, step walk s c₁ = some s₁ → ∀ mid s₂ c₂ s₃,
    run (step walk) s₁ mid = some s₂ → step walk s₂ c₂ = some s₃ → Contacts walk s₂ c₂ →
    Apart s₂ c₁ c₂

/-- When the call is over. -/
def endedAt (call : LoadCall) : ℚ := call.times.getLastD call.calledAt

/-! ## 2. What a walk does -/

/-- The day at which the NSE loop ends. -/
def loadedDay (s : Bhavcopy) : Option ℤ := if s.rows = [] then none else s.loadedDate

/-- The tries before the one that is at day `loaded`. -/
def triesBefore (loaded : Option ℤ) : ℕ → List DayTry → List DayTry
  | _, [] => []
  | back, t :: tries =>
    if loaded = some (istDay t.askedAt - back) then [] else t :: triesBefore loaded (back + 1) tries

/-- The tries in which the NSE loop asks the host, until one succeeds. -/
def nseOpens (s : Bhavcopy) (tries : List DayTry) : List DayTry := triesBefore s.loadedDay 0 tries

/-- The BSE loop asks in all of them. -/
def bseOpens (_ : Bhavcopy) (tries : List DayTry) : List DayTry := tries

theorem loadedDay_eq_some {s : Bhavcopy} {day : ℤ} :
    s.loadedDay = some day ↔ s.loadedDate = some day ∧ s.rows ≠ [] := by
  unfold loadedDay
  by_cases h : s.rows = []
  · simp [h]
  · simp [h]

/-- One walk: it asks in the open tries, takes the first of their files, and without one changes
    nothing of what is loaded. -/
structure WalkSpec (content : HttpResponse → Option BhavRows) (opens : List DayTry)
    (tries : List DayTry) (s s' : Bhavcopy) : Prop where
  attempt : s'.lastAttempt = s.lastAttempt
  asks : ∃ asked, s'.downloads = s.downloads ++ asked ∧ (asked = [] ↔ opens = [])
  loads : (∃ t ∈ opens, t.response.bind content ≠ none) →
    s'.rows ≠ [] ∧ ∃ t ∈ tries, s'.loadedAt = t.answeredAt
  fails : (∀ t ∈ opens, t.response.bind content = none) →
    s'.rows = s.rows ∧ s'.loadedAt = s.loadedAt ∧ s'.loadedDate = s.loadedDate

section Walks

variable {content : HttpResponse → Option BhavRows} {s s' : Bhavcopy} {t : DayTry}
  {opens tries : List DayTry} {back : ℕ} {day : ℤ} {rows : BhavRows}

theorem bseRows_ne_nil {resp : HttpResponse} (h : bseRows resp = some rows) : rows ≠ [] := by
  obtain ⟨-, h⟩ := Option.ite_none_left_eq_some.mp h
  obtain ⟨table, -, h⟩ := Option.bind_eq_some_iff.mp h
  exact orNone_ne_nil h

/-- A loop that ends before its first request. -/
theorem walkSpec_stop : WalkSpec content [] tries s s where
  attempt := rfl
  asks := ⟨[], (List.append_nil _).symm, iff_of_true rfl rfl⟩
  loads := fun h => by
    obtain ⟨t, ht, -⟩ := h
    cases ht
  fails := fun _ => ⟨rfl, rfl, rfl⟩

/-- The first open try downloads a file. -/
theorem walkSpec_load (hrows : rows ≠ []) (ht : t.response.bind content = some rows) :
    WalkSpec content (t :: opens) (t :: tries) s ((s.asked day t).load day rows t) where
  attempt := rfl
  asks := ⟨[(day, t.response)], rfl, by simp⟩
  loads := fun _ => ⟨hrows, t, List.mem_cons_self, rfl⟩
  fails := fun h => by
    have hnone := h t List.mem_cons_self
    rw [ht] at hnone
    cases hnone

/-- The first open try downloads nothing, and the loop goes on. -/
theorem walkSpec_miss (ht : t.response.bind content = none)
    (h : WalkSpec content opens tries (s.asked day t) s') :
    WalkSpec content (t :: opens) (t :: tries) s s' where
  attempt := h.attempt
  asks := by
    obtain ⟨asked, hasked, -⟩ := h.asks
    exact ⟨(day, t.response) :: asked, by rw [hasked]; simp [Bhavcopy.asked], by simp⟩
  loads := fun hex => by
    obtain ⟨u, hu, hfile⟩ := hex
    rcases List.mem_cons.mp hu with rfl | hu
    · exact absurd ht hfile
    · obtain ⟨hrows, v, hv, hat⟩ := h.loads ⟨u, hu, hfile⟩
      exact ⟨hrows, v, List.mem_cons_of_mem t hv, hat⟩
  fails := fun hall => h.fails fun u hu => hall u (List.mem_cons_of_mem t hu)

theorem nseWalk_spec :
    WalkSpec nseRows (triesBefore s.loadedDay back tries) tries s (nseWalk back tries s) := by
  induction tries generalizing back s with
  | nil => exact walkSpec_stop
  | cons t tries ih =>
    unfold nseWalk triesBefore
    dsimp only
    by_cases hstop : s.loadedDate = some (istDay t.askedAt - back) ∧ s.rows ≠ []
    · rw [if_pos hstop, if_pos (loadedDay_eq_some.2 hstop)]
      exact walkSpec_stop
    · rw [if_neg hstop, if_neg fun h => hstop (loadedDay_eq_some.1 h)]
      cases ht : t.response.bind nseRows with
      | some rows =>
        obtain ⟨resp, -, hresp⟩ := Option.bind_eq_some_iff.mp ht
        exact walkSpec_load (nseRows_ne_nil hresp) ht
      | none => exact walkSpec_miss ht (ih (s := s.asked (istDay t.askedAt - back) t))

theorem bseWalk_spec : WalkSpec bseRows tries tries s (bseWalk back tries s) := by
  induction tries generalizing back s with
  | nil => exact walkSpec_stop
  | cons t tries ih =>
    unfold bseWalk
    dsimp only
    cases ht : t.response.bind bseRows with
    | some rows =>
      obtain ⟨resp, -, hresp⟩ := Option.bind_eq_some_iff.mp ht
      exact walkSpec_load (bseRows_ne_nil hresp) ht
    | none => exact walkSpec_miss ht ih

end Walks

/-! ## 3. A contact is accounted for -/

section Attempts

variable {content : HttpResponse → Option BhavRows}
  {walk : ℕ → List DayTry → Bhavcopy → Bhavcopy} {opens : Bhavcopy → List DayTry → List DayTry}
  {s s' : Bhavcopy} {call : LoadCall} {a : ℚ}

/-- A loader is known by what its walk does. -/
structure LoaderSpec (content : HttpResponse → Option BhavRows)
    (opens : Bhavcopy → List DayTry → List DayTry)
    (walk : ℕ → List DayTry → Bhavcopy → Bhavcopy) : Prop where
  walks : ∀ s tries, WalkSpec content (opens s tries) tries s (walk 0 tries s)
  attempted : ∀ s t tries, opens { s with lastAttempt := t } tries = opens s tries

/-- One attempt: nothing is due, or the walk is made. -/
theorem step_attempt (hloader : LoaderSpec content opens walk) (hs : step walk s call = some s') :
    (s.idle call.calledAt ∧ s' = { s with now := s'.now }) ∨
      (¬ s.idle call.calledAt ∧ WalkSpec content (opens s (call.tries.take 8)) (call.tries.take 8)
        { s with lastAttempt := call.calledAt } s') := by
  obtain ⟨-, e⟩ := Option.ite_none_right_eq_some.mp hs
  by_cases hidle : s.idle call.calledAt
  · refine .inl ⟨hidle, ?_⟩
    cases e
    simp only [ensureLoaded, if_pos hidle]
  · obtain ⟨h1, h2, h3, h4⟩ :=
      hloader.walks { s with lastAttempt := call.calledAt } (call.tries.take 8)
    rw [hloader.attempted] at h2 h3 h4
    refine .inr ⟨hidle, ?_⟩
    cases e
    simp only [ensureLoaded, if_neg hidle]
    exact ⟨h1, h2, h3, h4⟩

/-- The host is contacted where something is due and a day is open. -/
theorem contacts_iff (hloader : LoaderSpec content opens walk) :
    Contacts walk s call ↔
      ¬ s.idle call.calledAt ∧ (s.rows = [] ∨ opens s (call.tries.take 8) ≠ []) := by
  unfold Contacts ensureLoaded
  refine and_congr_right fun hdue => or_congr_right ?_
  rw [if_neg hdue]
  obtain ⟨asked, hasked, hiff⟩ :=
    (hloader.walks { s with lastAttempt := call.calledAt } (call.tries.take 8)).asks
  rw [hasked, hloader.attempted] at *
  rw [Ne, List.append_right_eq_self, hiff]

/-- The readings of the clock in one attempt. -/
theorem step_times (hs : step walk s call = some s') :
    s.now ≤ call.calledAt ∧ (∀ t ∈ call.tries, call.calledAt ≤ t.answeredAt) ∧
      call.calledAt ≤ s'.now ∧ s'.now = endedAt call := by
  obtain ⟨hsorted, -, -, -, hnow⟩ := step_eq hs
  obtain ⟨hfirst, htimes⟩ := List.pairwise_cons.mp hsorted
  have hlater : ∀ x ∈ call.times, call.calledAt ≤ x := by
    intro x hx
    rcases List.mem_cons.mp hx with rfl | hx
    · exact le_refl _
    · exact (List.pairwise_cons.mp htimes).1 x hx
  have hend : s'.now = endedAt call := by
    rw [hnow]
    unfold endedAt LoadCall.times
    rw [List.getLastD_cons, List.getLastD_cons]
  refine ⟨hfirst _ List.mem_cons_self, fun t ht => hlater _ ?_, ?_, hend⟩
  · exact List.mem_cons_of_mem _ (List.mem_flatMap.mpr ⟨t, ht, by simp⟩)
  · have hlast : s'.now ∈ call.times := by
      rw [hend]
      unfold endedAt LoadCall.times
      rw [List.getLastD_cons]
      exact List.getLastD_mem_cons
    exact hlater _ hlast

/-- A contact at `a` is accounted for: the next one is due no earlier than if it came from `a`. -/
structure Settled (a : ℚ) (s : Bhavcopy) : Prop where
  past : a ≤ s.now
  empty : s.rows = [] → a ≤ s.lastAttempt
  loaded : s.rows ≠ [] → a ≤ s.loadedAt

/-- An attempt that is made at or after `a`, and does not refresh in vain what was loaded. -/
theorem settled_walk (hle : a ≤ call.calledAt) (hs : step walk s call = some s')
    {tries : List DayTry} (hspec : WalkSpec content tries (call.tries.take 8)
      { s with lastAttempt := call.calledAt } s')
    (hrows : s.rows ≠ [] → (∀ t ∈ tries, t.response.bind content = none) → a ≤ s.loadedAt) :
    Settled a s' := by
  obtain ⟨-, hanswered, hover, -⟩ := step_times hs
  refine ⟨hle.trans hover, fun _ => ?_, fun hne => ?_⟩
  · rw [hspec.attempt]
    exact hle
  · by_cases hfile : ∃ t ∈ tries, t.response.bind content ≠ none
    · obtain ⟨-, t, ht, hat⟩ := hspec.loads hfile
      rw [hat]
      exact hle.trans (hanswered t (List.mem_of_mem_take ht))
    · have hnone : ∀ t ∈ tries, t.response.bind content = none := fun t ht =>
        not_not.mp fun h => hfile ⟨t, ht, h⟩
      obtain ⟨hsame, hat, -⟩ := hspec.fails hnone
      rw [hat]
      rw [hsame] at hne
      exact hrows hne hnone

/-- **Every attempt keeps a contact accounted for.** -/
theorem settled_step (hloader : LoaderSpec content opens walk) (h : Settled a s)
    (hs : step walk s call = some s') : Settled a s' := by
  obtain ⟨hnow, -, hover, -⟩ := step_times hs
  rcases step_attempt hloader hs with ⟨-, e⟩ | ⟨-, hspec⟩
  · rw [e]
    exact ⟨(h.past.trans hnow).trans hover, h.empty, h.loaded⟩
  · exact settled_walk (h.past.trans hnow) hs hspec fun hne _ => h.loaded hne

/-- A contact that is accounted for is far enough from the next. -/
theorem apart_of_settled {c₁ c₂ : LoadCall} (h : Settled c₁.calledAt s)
    (hdue : ¬ s.idle c₂.calledAt) : Apart s c₁ c₂ := by
  unfold idle at hdue
  push Not at hdue
  constructor
  · intro hne
    have := hdue.1 hne
    have := h.loaded hne
    linarith
  · intro hnil
    have := hdue.2 hnil
    have := h.empty hnil
    linarith

/-! ## 4. The condition -/

/-- **The condition.** A refresh that asks the host downloads a file, or takes an hour itself. -/
def Refreshes (content : HttpResponse → Option BhavRows)
    (opens : Bhavcopy → List DayTry → List DayTry) (s : Bhavcopy) (call : LoadCall) : Prop :=
  s.rows ≠ [] → ¬ s.idle call.calledAt → opens s (call.tries.take 8) ≠ [] →
    (∃ t ∈ opens s (call.tries.take 8), t.response.bind content ≠ none) ∨
      3600 ≤ endedAt call - call.calledAt

/-- **A contact is accounted for, if it meets the condition.** -/
theorem settled_contact (hloader : LoaderSpec content opens walk) (hc : Contacts walk s call)
    (hcond : Refreshes content opens s call) (hs : step walk s call = some s') :
    Settled call.calledAt s' ∨ 3600 ≤ s'.now - call.calledAt := by
  obtain ⟨-, -, -, hend⟩ := step_times hs
  obtain ⟨hdue, hopen⟩ := (contacts_iff hloader).mp hc
  obtain ⟨-, hspec⟩ := (step_attempt hloader hs).resolve_left fun h => hdue h.1
  rcases hopen with hnil | hopen
  · exact .inl (settled_walk (le_refl _) hs hspec fun hne => absurd hnil hne)
  · by_cases hfile : s.rows = [] ∨ ∃ t ∈ opens s (call.tries.take 8), t.response.bind content ≠ none
    · refine .inl (settled_walk (le_refl _) hs hspec fun hne hnone => ?_)
      obtain ⟨t, ht, hsome⟩ := hfile.resolve_left hne
      exact absurd (hnone t ht) hsome
    · rw [not_or] at hfile
      rw [hend]
      exact .inr ((hcond hfile.1 hdue hopen).resolve_left hfile.2)

/-- A call that is made at `t`, and over at once. -/
def callAt (t : ℚ) : LoadCall := ⟨t, [⟨t, none, t⟩]⟩

/-- The next call can be made as soon as this one is over. -/
theorem step_callAt (s : Bhavcopy) : ∃ s', step walk s (callAt s.now) = some s' := by
  refine ⟨_, if_pos ?_⟩
  show [s.now, s.now, s.now, s.now].Pairwise (· ≤ ·)
  simp

/-- **After a refresh in vain** the next call contacts the host, where a day is open. -/
theorem contacts_again (hloader : LoaderSpec content opens walk) (hs : step walk s call = some s')
    (hne : s.rows ≠ []) (hdue : ¬ s.idle call.calledAt) (hrows : s'.rows = s.rows)
    (hat : s'.loadedAt = s.loadedAt) (hagain : opens s' (callAt s'.now).tries ≠ []) :
    Contacts walk s' (callAt s'.now) := by
  obtain ⟨-, -, hover, -⟩ := step_times hs
  have hne' : s'.rows ≠ [] := by
    rw [hrows]
    exact hne
  refine (contacts_iff hloader).mpr ⟨?_, .inr hagain⟩
  unfold idle at hdue ⊢
  push Not at hdue ⊢
  have hhour := hdue.1 hne
  refine ⟨fun _ => ?_, fun hnil => absurd hnil hne'⟩
  rw [hat]
  show 3600 ≤ s'.now - s.loadedAt
  linarith

/-- **Time does not run backwards** over a sequence of calls. -/
theorem run_now_le {calls : List LoadCall} (hr : run (step walk) s calls = some s') :
    s.now ≤ s'.now := by
  refine run_invariant (I := fun s' => s.now ≤ s'.now) (fun s₁ c s₂ h hs => ?_) (le_refl _) hr
  obtain ⟨h₁, -, h₂, -⟩ := step_times hs
  exact (h.trans h₁).trans h₂

/-- **One call, in all continuations.** Where a refresh in vain leaves a day open for the next call,
    a call keeps the budget exactly when it meets the condition. -/
theorem keepsBudget_iff (hloader : LoaderSpec content opens walk)
    (hs : step walk s call = some s')
    (hagain : opens s (call.tries.take 8) ≠ [] → s'.rows = s.rows →
      s'.loadedDate = s.loadedDate → ∀ t, s'.now = t.askedAt → opens s' [t] ≠ []) :
    KeepsBudget walk s call ↔ Refreshes content opens s call := by
  constructor
  · intro hkeeps hne hdue hopen
    by_contra hvain
    rw [not_or, not_le] at hvain
    have hnone : ∀ t ∈ opens s (call.tries.take 8), t.response.bind content = none := fun t ht =>
      not_not.mp fun h => hvain.1 ⟨t, ht, h⟩
    obtain ⟨-, hspec⟩ := (step_attempt hloader hs).resolve_left fun h => hdue h.1
    obtain ⟨hrows, hat, hdate⟩ := hspec.fails hnone
    have hcontact := contacts_again hloader hs hne hdue hrows hat (hagain hopen hrows hdate _ rfl)
    obtain ⟨s₂, hs₂⟩ : ∃ s₂, step walk s' (callAt s'.now) = some s₂ := step_callAt s'
    have happart : 3600 ≤ s'.now - call.calledAt :=
      (hkeeps ((contacts_iff hloader).mpr ⟨hdue, .inr hopen⟩) s' hs [] s' (callAt s'.now) s₂ rfl hs₂
        hcontact).1 (hrows ▸ hne)
    obtain ⟨-, -, -, hend⟩ := step_times hs
    rw [← hend] at hvain
    exact absurd happart (not_le.mpr hvain.2)
  · intro hcond hc s₁ hs₁ mid s₂ c₂ s₃ hmid hs₂ hc₂
    rw [hs] at hs₁
    cases hs₁
    rcases settled_contact hloader hc hcond hs with hsettled | hlong
    · exact apart_of_settled (run_invariant (fun _ _ _ h hs => settled_step hloader h hs) hsettled
        hmid) hc₂.1
    · have hnow := run_now_le hmid
      have hlater := (step_times hs₂).1
      constructor
      · intro _
        linarith
      · intro _
        linarith

end Attempts

/-! ## 5. Both loaders -/

theorem nse_loaderSpec : LoaderSpec nseRows nseOpens nseWalk :=
  ⟨fun _ _ => nseWalk_spec, fun _ _ _ => rfl⟩

theorem bse_loaderSpec : LoaderSpec bseRows bseOpens bseWalk :=
  ⟨fun _ _ => bseWalk_spec, fun _ _ _ => rfl⟩

section Loaders

variable {s s' : Bhavcopy} {call : LoadCall}

/-- The NSE loop asks for a day only if the current one is not loaded, and no later one is. -/
theorem nseOpens_again (hinv : NseInv s) (hs : nseStep s call = some s')
    (hopen : nseOpens s (call.tries.take 8) ≠ []) (hrows : s'.rows = s.rows)
    (hdate : s'.loadedDate = s.loadedDate) (t : DayTry) (ht : s'.now = t.askedAt) :
    nseOpens s' [t] ≠ [] := by
  obtain ⟨hsorted, -, -, -, hnow⟩ := step_eq hs
  obtain ⟨hbounds, -, -⟩ := times_bounds hsorted
  have hday : s'.loadedDay = s.loadedDay := by
    unfold loadedDay
    rw [hrows, hdate]
  intro hclosed
  have hloaded : s.loadedDay = some (istDay t.askedAt) := by
    rw [← hday]
    simpa [nseOpens, triesBefore] using hclosed
  -- the loaded day is neither after the state's nor before that of the walk
  cases htries : call.tries.take 8 with
  | nil =>
    rw [htries] at hopen
    exact hopen rfl
  | cons u tries =>
    have hmem : u ∈ call.tries := List.mem_of_mem_take (by rw [htries]; exact List.mem_cons_self)
    have hle : istDay t.askedAt ≤ istDay s.now := hinv.dated _ (loadedDay_eq_some.1 hloaded).1
    have h1 : istDay s.now ≤ istDay u.askedAt := istDay_mono (hbounds u hmem).1
    have h2 : istDay u.askedAt ≤ istDay t.askedAt := by
      rw [← ht, hnow]
      exact istDay_mono (hbounds u hmem).2
    have hu : istDay u.askedAt = istDay t.askedAt := by omega
    rw [htries] at hopen
    refine hopen ?_
    simp [nseOpens, triesBefore, hloaded, hu]

end Loaders

/-! ## 6. All sequences -/

/-- **Two calls that contact the archive host are far enough apart, if no refresh is in vain.** Over
    all sequences of attempts at non-decreasing times: every call keeps the budget with all calls
    after it exactly when every refresh that asks the host downloads a file, or takes an hour. -/
theorem refresh_budget_iff (nseCalls bseCalls : List LoadCall) (nse bse : Bhavcopy)
    (hnse : run nseStep {} nseCalls = some nse) (hbse : run bseStep {} bseCalls = some bse) :
    (StepsMeet nseStep (KeepsBudget nseWalk) {} nseCalls ∧
        StepsMeet bseStep (KeepsBudget bseWalk) {} bseCalls) ↔
      StepsMeet nseStep (Refreshes nseRows nseOpens) {} nseCalls ∧
        StepsMeet bseStep (Refreshes bseRows bseOpens) {} bseCalls := by
  have hinv : NseInv {} := ⟨.inl ⟨rfl, rfl⟩, fun day h => by cases h⟩
  refine and_congr ?_ ?_
  · refine stepsMeet_congr_run (J := NseInv) (fun _ _ _ h hs => nseStep_inv h hs) ?_ hinv hnse
    intro s call s' h hs
    exact keepsBudget_iff nse_loaderSpec hs (nseOpens_again h hs)
  · refine stepsMeet_congr_run (J := fun _ => True) (fun _ _ _ _ _ => trivial) ?_ trivial hbse
    intro s call s' _ hs
    exact keepsBudget_iff bse_loaderSpec hs fun _ _ _ t _ => List.cons_ne_nil t []

/-- The same stock in the file of the NSE. -/
def relianceNse : HttpResponse where
  statusCode := 200
  text := "SYMBOL,SERIES,CLOSE_PRICE"
  table := some [[("SYMBOL", "RELIANCE"), ("SERIES", "EQ"), ("CLOSE_PRICE", "2450")]]

theorem refresh_budget_evening :
    StepsMeet nseStep (KeepsBudget nseWalk) {} [mondayLoad 19 [some relianceNse]] ∧
      StepsMeet bseStep (KeepsBudget bseWalk) {} eveningLoads := by
  have hnse : (run nseStep {} [mondayLoad 19 [some relianceNse]]).isSome = true := by decide +kernel
  have hbse : (run bseStep {} eveningLoads).isSome = true := by decide +kernel
  obtain ⟨nse, hn⟩ := Option.isSome_iff_exists.mp hnse
  obtain ⟨bse, hb⟩ := Option.isSome_iff_exists.mp hbse
  refine (refresh_budget_iff [mondayLoad 19 [some relianceNse]] eveningLoads nse bse hn hb).mpr
    ⟨⟨fun h => absurd rfl h, fun _ _ => trivial⟩, fun h => absurd rfl h, fun s₁ _ => ?_⟩
  refine ⟨fun _ _ _ => .inl ⟨_, List.mem_singleton_self _, ?_⟩, fun _ _ => trivial⟩
  decide +kernel

/-- Monday's file is loaded; after midnight Tuesday's is asked for, and is not there. -/
def overnightLoads : List LoadCall :=
  [mondayLoad 19 [some relianceNse], mondayLoad 24 [none, none]]

/-- **A stale file is asked for again at once.** The call at midnight contacts the host, and so does
    the one a minute later. -/
theorem stale_file_asked_each_minute :
    ¬ StepsMeet nseStep (KeepsBudget nseWalk) {} overnightLoads := by
  intro h
  have hrun : ∃ s₁ s₂ s₃, nseStep {} (mondayLoad 19 [some relianceNse]) = some s₁ ∧
      nseStep s₁ (mondayLoad 24 [none, none]) = some s₂ ∧
      nseStep s₂ (mondayLoad (24 + 1 / 60) [none, none]) = some s₃ ∧
      Contacts nseWalk s₁ (mondayLoad 24 [none, none]) ∧
      Contacts nseWalk s₂ (mondayLoad (24 + 1 / 60) [none, none]) ∧ s₂.rows ≠ [] :=
    ⟨_, _, _, rfl, rfl, rfl, by unfold Contacts; decide +kernel, by unfold Contacts; decide +kernel,
      by decide +kernel⟩
  obtain ⟨s₁, s₂, s₃, h₁, h₂, h₃, hc₁, hc₂, hrows⟩ := hrun
  have hhour := ((h.2 s₁ h₁).1 hc₁ s₂ h₂ [] s₂ (mondayLoad (24 + 1 / 60) [none, none]) s₃ rfl h₃
    hc₂).1 hrows
  norm_num [mondayLoad, monday] at hhour

end Bhavcopy

end BharatTicker
