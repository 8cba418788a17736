/-
  File:      BharatTicker/Bhavcopy/Forward.lean
  Subject:   END-OF-DAY DATA AND TIME. What is loaded is one file. The NSE loader never goes back to an
             earlier day: its walk meets the loaded day before any earlier one, and ends there. The
             BSE loader walks on, and takes an earlier file when the newer downloads fail.

  * `OneFile` -- the rows are those of one downloaded file, of the loaded date;
  * `EndOfDayLaw` -- a failed refresh changes nothing, and the date does not decrease;
  * `nseWalk_forward`, `nse_law` -- the NSE loader;
  * `RefreshesForward`, `bse_law_iff` -- the BSE loader and its condition;
  * `end_of_day_forward_iff` -- both, over all sequences; `bse_goes_back` -- a transient failure.
-/
import BharatTicker.Bhavcopy

namespace BharatTicker

open Basis

-- the concrete runs below compute with rationals
unseal Rat.add Rat.mul Rat.sub Rat.inv

namespace Bhavcopy

/-! ## 1. The law -/

/-- Nothing is loaded, or the rows are all that is kept of one file, downloaded for the loaded
    date. -/
def OneFile (content : HttpResponse → Option BhavRows) (s : Bhavcopy) : Prop :=
  (s.rows = [] ∧ s.loadedDate = none) ∨
    ∃ day resp, s.loadedDate = some day ∧ (day, some resp) ∈ s.downloads ∧
      content resp = some s.rows

/-- Of one attempt: where every download fails, rows and date stay; the date does not decrease. -/
structure EndOfDayLaw (content : HttpResponse → Option BhavRows)
    (walk : ℕ → List DayTry → Bhavcopy → Bhavcopy) (s : Bhavcopy) (call : LoadCall) : Prop where
  failed : (∀ t ∈ call.tries.take 8, t.response.bind content = none) →
    (s.ensureLoaded walk call).rows = s.rows ∧
      (s.ensureLoaded walk call).loadedDate = s.loadedDate
  forward : ∀ day, s.loadedDate = some day →
    ∃ day', (s.ensureLoaded walk call).loadedDate = some day' ∧ day ≤ day'

section Walks

variable {content : HttpResponse → Option BhavRows} {s : Bhavcopy} {t : DayTry}
  {tries : List DayTry} {back : ℕ} {day : ℤ} {rows : BhavRows}

theorem orNone_ne_nil {rows' : BhavRows} (h : orNone rows = some rows') : rows' ≠ [] := by
  obtain ⟨hne, e⟩ := Option.ite_none_left_eq_some.mp h
  cases e
  exact hne

theorem nseRows_ne_nil {resp : HttpResponse} (h : nseRows resp = some rows) : rows ≠ [] := by
  obtain ⟨-, h⟩ := Option.ite_none_left_eq_some.mp h
  obtain ⟨table, -, h⟩ := Option.bind_eq_some_iff.mp h
  exact orNone_ne_nil h

theorem OneFile.asked (h : OneFile content s) (day : ℤ) (t : DayTry) :
    OneFile content (s.asked day t) := by
  rcases h with h | ⟨d, resp, hd, hmem, hc⟩
  · exact .inl h
  · exact .inr ⟨d, resp, hd, List.mem_append_left _ hmem, hc⟩

theorem oneFile_load (h : t.response.bind content = some rows) :
    OneFile content ((s.asked day t).load day rows t) := by
  obtain ⟨resp, hresp, hc⟩ := Option.bind_eq_some_iff.mp h
  refine .inr ⟨day, resp, rfl, ?_, hc⟩
  rw [← hresp]
  exact List.mem_append_right _ (List.mem_singleton_self _)

theorem nseWalk_oneFile (h : OneFile nseRows s) : OneFile nseRows (nseWalk back tries s) := by
  induction tries generalizing back s with
  | nil => exact h
  | cons t tries ih =>
    unfold nseWalk
    dsimp only
    split
    · exact h
    · split
      · exact oneFile_load ‹_›
      · exact ih (h.asked _ t)

theorem bseWalk_oneFile (h : OneFile bseRows s) : OneFile bseRows (bseWalk back tries s) := by
  induction tries generalizing back s with
  | nil => exact h
  | cons t tries ih =>
    unfold bseWalk
    dsimp only
    split
    · exact oneFile_load ‹_›
    · exact ih (h.asked _ t)

/-- A walk whose downloads all fail leaves what is loaded. -/
theorem nseWalk_failed (h : ∀ t ∈ tries, t.response.bind nseRows = none) :
    (nseWalk back tries s).rows = s.rows ∧ (nseWalk back tries s).loadedDate = s.loadedDate := by
  induction tries generalizing back s with
  | nil => exact ⟨rfl, rfl⟩
  | cons t tries ih =>
    unfold nseWalk
    dsimp only
    rw [h t List.mem_cons_self]
    split
    · exact ⟨rfl, rfl⟩
    · exact ih (s := s.asked _ t) fun u hu => h u (List.mem_cons_of_mem _ hu)

theorem bseWalk_failed (h : ∀ t ∈ tries, t.response.bind bseRows = none) :
    (bseWalk back tries s).rows = s.rows ∧ (bseWalk back tries s).loadedDate = s.loadedDate := by
  induction tries generalizing back s with
  | nil => exact ⟨rfl, rfl⟩
  | cons t tries ih =>
    unfold bseWalk
    dsimp only
    rw [h t List.mem_cons_self]
    exact ih (s := s.asked _ t) fun u hu => h u (List.mem_cons_of_mem _ hu)

/-- **The walk ends at the first file that downloads.** -/
theorem bseWalk_loaded {pre post : List DayTry} (hpre : ∀ u ∈ pre, u.response.bind bseRows = none)
    (ht : t.response.bind bseRows = some rows) :
    (bseWalk back (pre ++ t :: post) s).loadedDate =
      some (istDay t.askedAt - (back + pre.length : ℕ)) := by
  induction pre generalizing back s with
  | nil =>
    simp only [List.nil_append, bseWalk, ht, load, List.length_nil, Nat.add_zero]
  | cons u pre ih =>
    rw [List.cons_append, bseWalk, hpre u List.mem_cons_self, List.length_cons,
      show back + (pre.length + 1) = back + 1 + pre.length by omega]
    exact ih fun v hv => hpre v (List.mem_cons_of_mem _ hv)

/-- **The NSE walk does not pass the loaded day.** Each round goes back by at most one day, so from
    a day that is not before the loaded one it comes to that day itself. -/
theorem nseWalk_forward (hne : s.rows ≠ []) (hday : s.loadedDate = some day)
    (hsorted : (tries.map (·.askedAt)).Pairwise (· ≤ ·))
    (hhead : ∀ t ∈ tries.head?, day ≤ istDay t.askedAt - back) :
    ∃ day', (nseWalk back tries s).loadedDate = some day' ∧ day ≤ day' := by
  induction tries generalizing back s with
  | nil => exact ⟨day, hday, le_refl day⟩
  | cons t tries ih =>
    have hle : day ≤ istDay t.askedAt - back := hhead t rfl
    obtain ⟨hfirst, hrest⟩ := List.pairwise_cons.mp hsorted
    unfold nseWalk
    dsimp only
    by_cases hstop : s.loadedDate = some (istDay t.askedAt - back) ∧ s.rows ≠ []
    · rw [if_pos hstop]
      exact ⟨day, hday, le_refl day⟩
    · rw [if_neg hstop]
      cases t.response.bind nseRows with
      | some rows => exact ⟨_, rfl, hle⟩
      | none =>
        refine ih hne hday hrest fun u hu => ?_
        have hlt : day < istDay t.askedAt - back := by
          refine lt_of_le_of_ne hle fun e => hstop ⟨?_, hne⟩
          rw [hday, e]
        have hmono : istDay t.askedAt ≤ istDay u.askedAt :=
          istDay_mono (hfirst _ (List.mem_map_of_mem (List.mem_of_mem_head? hu)))
        push_cast
        omega

/-- The day that a walk loads is not after the current one. -/
theorem nseWalk_dated (h : ∀ d, s.loadedDate = some d → d ≤ day)
    (htries : ∀ t ∈ tries, istDay t.askedAt ≤ day) :
    ∀ d, (nseWalk back tries s).loadedDate = some d → d ≤ day := by
  induction tries generalizing back s with
  | nil => exact h
  | cons t tries ih =>
    unfold nseWalk
    dsimp only
    split
    · exact h
    · split
      · intro d hd
        cases hd
        have := htries t List.mem_cons_self
        omega
      · exact ih (s := s.asked _ t) h fun u hu => htries u (List.mem_cons_of_mem _ hu)

end Walks

/-! ## 2. One attempt -/

section Attempt

variable {s s' : Bhavcopy} {call : LoadCall}

theorem step_eq {walk : ℕ → List DayTry → Bhavcopy → Bhavcopy} (h : step walk s call = some s') :
    (s.now :: call.times).Pairwise (· ≤ ·) ∧ s'.rows = (s.ensureLoaded walk call).rows ∧
      s'.loadedDate = (s.ensureLoaded walk call).loadedDate ∧
      s'.downloads = (s.ensureLoaded walk call).downloads ∧
      s'.now = call.times.getLastD s.now := by
  obtain ⟨hsorted, e⟩ := Option.ite_none_right_eq_some.mp h
  cases e
  exact ⟨hsorted, rfl, rfl, rfl, rfl⟩

theorem OneFile.congr {content : HttpResponse → Option BhavRows} (h : OneFile content s)
    (hrows : s'.rows = s.rows) (hdate : s'.loadedDate = s.loadedDate)
    (hdownloads : s'.downloads = s.downloads) : OneFile content s' := by
  unfold OneFile
  rw [hrows, hdate, hdownloads]
  exact h

/-- **An attempt leaves one file loaded.** -/
theorem step_oneFile {content : HttpResponse → Option BhavRows}
    {walk : ℕ → List DayTry → Bhavcopy → Bhavcopy}
    (hwalk : ∀ back tries s, OneFile content s → OneFile content (walk back tries s))
    (h : OneFile content s) (hs : step walk s call = some s') : OneFile content s' := by
  obtain ⟨-, hrows, hdate, hdownloads, -⟩ := step_eq hs
  refine OneFile.congr (s := s.ensureLoaded walk call) ?_ hrows hdate hdownloads
  unfold ensureLoaded
  split
  · exact h
  · exact hwalk _ _ _ h

/-- Every reading of the clock is at or after the state's, and at or before the last one. -/
theorem times_bounds (hsorted : (s.now :: call.times).Pairwise (· ≤ ·)) :
    (∀ t ∈ call.tries, s.now ≤ t.askedAt ∧ t.askedAt ≤ call.times.getLastD s.now) ∧
      (call.tries.map (·.askedAt)).Pairwise (· ≤ ·) ∧ s.now ≤ call.times.getLastD s.now := by
  obtain ⟨hfirst, htimes⟩ := List.pairwise_cons.mp hsorted
  have hmem : ∀ t ∈ call.tries, t.askedAt ∈ call.times := fun t ht =>
    List.mem_cons_of_mem _ (List.mem_flatMap.mpr ⟨t, ht, by simp⟩)
  have hlast : ∀ x ∈ call.times, x ≤ call.times.getLastD s.now := by
    intro x hx
    have hne : call.times ≠ [] := List.cons_ne_nil _ _
    rw [List.getLastD_eq_getLast?, List.getLast?_eq_some_getLast hne, Option.getD_some]
    rcases List.mem_iff_append.mp hx with ⟨pre, post, e⟩
    cases post with
    | nil => simp [e]
    | cons y post =>
      refine (List.pairwise_append.mp (e ▸ htimes)).2.1 |> List.pairwise_cons.mp |>.1 _ ?_
      simp only [e]
      rw [List.getLast_append_of_ne_nil _ (List.cons_ne_nil _ _),
        List.getLast_cons (List.cons_ne_nil _ _)]
      exact List.getLast_mem _
  refine ⟨fun t ht => ⟨hfirst _ (hmem t ht), hlast _ (hmem t ht)⟩, ?_, ?_⟩
  · have hflat := (List.pairwise_cons.mp htimes).2
    refine hflat.sublist ?_
    clear hflat hlast hmem htimes hfirst hsorted
    induction call.tries with
    | nil => exact List.Sublist.slnil
    | cons t tries ih => exact (ih.cons t.answeredAt).cons_cons t.askedAt
  · exact (hfirst _ List.mem_cons_self).trans (hlast _ List.mem_cons_self)

/-- What the NSE loader keeps: one file, of a day that is not after the current one. -/
structure NseInv (s : Bhavcopy) : Prop where
  file : OneFile nseRows s
  dated : ∀ day, s.loadedDate = some day → day ≤ istDay s.now

theorem nseStep_inv (h : NseInv s) (hs : nseStep s call = some s') : NseInv s' := by
  refine ⟨step_oneFile (fun _ _ _ => nseWalk_oneFile) h.file hs, ?_⟩
  obtain ⟨hsorted, -, hdate, -, hnow⟩ := step_eq hs
  obtain ⟨hbounds, -, hle⟩ := times_bounds hsorted
  have hold : ∀ d, s.loadedDate = some d → d ≤ istDay s'.now := fun d hd =>
    (h.dated d hd).trans (istDay_mono (hnow ▸ hle))
  rw [hdate]
  unfold ensureLoaded
  split
  · exact hold
  · refine nseWalk_dated (s := { s with lastAttempt := call.calledAt }) hold fun t ht => ?_
    rw [hnow]
    exact istDay_mono (hbounds t (List.mem_of_mem_take ht)).2

/-- **Every attempt of the NSE loader keeps the law.** -/
theorem nse_law (h : NseInv s) (hs : nseStep s call = some s') :
    EndOfDayLaw nseRows nseWalk s call := by
  obtain ⟨hsorted, -⟩ := step_eq hs
  obtain ⟨hbounds, hasked, -⟩ := times_bounds hsorted
  refine ⟨fun hfail => ?_, fun day hday => ?_⟩
  · unfold ensureLoaded
    split
    · exact ⟨rfl, rfl⟩
    · exact nseWalk_failed (s := { s with lastAttempt := call.calledAt }) hfail
  · unfold ensureLoaded
    split
    · exact ⟨day, hday, le_refl day⟩
    · have hne : s.rows ≠ [] := by
        rcases h.file with ⟨-, hnone⟩ | ⟨d, resp, -, -, hc⟩
        · rw [hday] at hnone
          cases hnone
        · exact nseRows_ne_nil hc
      refine nseWalk_forward (s := { s with lastAttempt := call.calledAt }) hne hday
        (hasked.sublist ((List.take_sublist 8 call.tries).map _)) fun t ht => ?_
      have hmem : t ∈ call.tries := List.mem_of_mem_take (List.mem_of_mem_head? ht)
      have hmono := istDay_mono (hbounds t hmem).1
      have := h.dated day hday
      push_cast
      omega

/-- **The condition.** In a refresh, the first download that succeeds is not of a day before the
    loaded one: where the downloads from the loaded day on all fail, so do those of earlier days. -/
def RefreshesForward (s : Bhavcopy) (call : LoadCall) : Prop :=
  ¬ s.idle call.calledAt → ∀ day, s.loadedDate = some day → ∀ pre t post,
    call.tries.take 8 = pre ++ t :: post → (∀ u ∈ pre, u.response.bind bseRows = none) →
    t.response.bind bseRows ≠ none → day ≤ istDay t.askedAt - pre.length

/-- A walk fails throughout, or there is a first download that succeeds. -/
theorem first_download (tries : List DayTry) (content : HttpResponse → Option BhavRows) :
    (∀ t ∈ tries, t.response.bind content = none) ∨
      ∃ pre t post rows, tries = pre ++ t :: post ∧
        (∀ u ∈ pre, u.response.bind content = none) ∧ t.response.bind content = some rows := by
  induction tries with
  | nil => exact .inl fun t ht => by cases ht
  | cons t tries ih =>
    cases ht : t.response.bind content with
    | some rows => exact .inr ⟨[], t, tries, rows, rfl, fun u hu => (by cases hu), ht⟩
    | none =>
      rcases ih with h | ⟨pre, u, post, rows, rfl, hpre, hu⟩
      · exact .inl (List.forall_mem_cons.mpr ⟨ht, h⟩)
      · exact .inr ⟨t :: pre, u, post, rows, rfl, List.forall_mem_cons.mpr ⟨ht, hpre⟩, hu⟩

/-- **An attempt of the BSE loader keeps the law exactly when it meets the condition.** -/
theorem bse_law_iff : EndOfDayLaw bseRows bseWalk s call ↔ RefreshesForward s call := by
  constructor
  · intro h hidle day hday pre t post htries hpre ht
    obtain ⟨rows, ht⟩ := Option.ne_none_iff_exists'.mp ht
    obtain ⟨day', hday', hle⟩ := h.forward day hday
    unfold ensureLoaded at hday'
    rw [if_neg hidle, htries, bseWalk_loaded hpre ht] at hday'
    cases hday'
    rwa [Nat.zero_add] at hle
  · intro h
    refine ⟨fun hfail => ?_, fun day hday => ?_⟩
    · unfold ensureLoaded
      split
      · exact ⟨rfl, rfl⟩
      · exact bseWalk_failed (s := { s with lastAttempt := call.calledAt }) hfail
    · unfold ensureLoaded
      split
      · exact ⟨day, hday, le_refl day⟩
      · rename_i hidle
        rcases first_download (call.tries.take 8) bseRows with
          hfail | ⟨pre, t, post, rows, htries, hpre, ht⟩
        · refine ⟨day, ?_, le_refl day⟩
          rw [(bseWalk_failed hfail).2]
          exact hday
        · refine ⟨istDay t.askedAt - pre.length, ?_, ?_⟩
          · rw [htries, bseWalk_loaded hpre ht, Nat.zero_add]
          · exact h hidle day hday pre t post htries hpre (by rw [ht]; exact Option.some_ne_none _)

end Attempt

/-! ## 3. All sequences -/

/-- **End-of-day data never goes back in time, if no BSE refresh does.** Over all sequences of
    attempts at non-decreasing times: what either loader holds is always one whole file, of its
    date; a failed refresh changes nothing and the date never decreases exactly when every refresh
    of the BSE loader meets the condition. -/
theorem end_of_day_forward_iff (nseCalls bseCalls : List LoadCall) (nse bse : Bhavcopy)
    (hnse : run nseStep {} nseCalls = some nse) (hbse : run bseStep {} bseCalls = some bse) :
    ((Always nseStep (OneFile nseRows) {} nseCalls ∧
        StepsMeet nseStep (EndOfDayLaw nseRows nseWalk) {} nseCalls) ∧
      Always bseStep (OneFile bseRows) {} bseCalls ∧
        StepsMeet bseStep (EndOfDayLaw bseRows bseWalk) {} bseCalls) ↔
      StepsMeet bseStep RefreshesForward {} bseCalls := by
  have hnone : ∀ content, OneFile content {} := fun content => .inl ⟨rfl, rfl⟩
  have hinv : NseInv {} := ⟨hnone nseRows, fun day h => by cases h⟩
  have hN : Always nseStep (OneFile nseRows) {} nseCalls ∧
      StepsMeet nseStep (EndOfDayLaw nseRows nseWalk) {} nseCalls := by
    refine (always_meet_iff (J := NseInv) (C := fun _ _ => True)
      (fun s call s' h hs => nseStep_inv h hs) (fun s call s' h _ hs => ?_) hinv hnse).mpr
      ⟨hnone nseRows, stepsMeet_true _ _⟩
    exact iff_of_true ⟨(nseStep_inv h hs).file, nse_law h hs⟩ trivial
  have hB := always_meet_iff (J := OneFile bseRows) (I := OneFile bseRows)
    (T := EndOfDayLaw bseRows bseWalk) (C := RefreshesForward)
    (fun s call s' h hs => step_oneFile (fun _ _ _ => bseWalk_oneFile) h hs)
    (fun s call s' h _ hs =>
      (and_iff_right (step_oneFile (fun _ _ _ => bseWalk_oneFile) h hs)).trans bse_law_iff)
    (hnone bseRows) hbse
  exact (and_iff_right hN).trans (hB.trans (and_iff_right (hnone bseRows)))

/-- A file of one stock, as the BSE publishes it. -/
def relianceFile (close : String) : HttpResponse where
  statusCode := 200
  text := "TckrSymb,SctySrs,FinInstrmTp,ClsPric"
  table := some
    [[("TckrSymb", "RELIANCE"), ("SctySrs", "A"), ("FinInstrmTp", "STK"), ("ClsPric", close)]]

/-- An attempt on Monday, 5 January 2026. -/
def mondayLoad (hour : ℚ) (responses : List (Option HttpResponse)) : LoadCall where
  calledAt := monday hour 0
  tries := responses.map fun r => ⟨monday hour 0, r, monday hour 0⟩

/-- Monday's file at 19:00, and again at 20:00. -/
def eveningLoads : List LoadCall :=
  [mondayLoad 19 [some (relianceFile "2450")], mondayLoad 20 [some (relianceFile "2450")]]

theorem end_of_day_forward_evening :
    ∃ s, run bseStep {} eveningLoads = some s ∧
      StepsMeet bseStep (EndOfDayLaw bseRows bseWalk) {} eveningLoads := by
  have hrun : (run bseStep {} eveningLoads).map (·.loadedDate) = some (some 20458) := by
    decide +kernel
  obtain ⟨s, hs, -⟩ := Option.map_eq_some_iff.mp hrun
  refine ⟨s, hs, ((end_of_day_forward_iff [] eveningLoads {} s rfl hs).mpr ?_).2.2⟩
  refine ⟨fun _ day h => (by cases h), fun s₁ h₁ => ⟨?_, fun _ _ => trivial⟩⟩
  have hfirst : (bseStep {} (mondayLoad 19 [some (relianceFile "2450")])).map (·.loadedDate) =
      some (some 20458) := by
    decide +kernel
  rw [h₁, Option.map_some, Option.some.injEq] at hfirst
  intro _ day hday pre t post htries _ _
  rw [hfirst] at hday
  cases hday
  obtain ⟨rfl, e⟩ : pre = [] ∧ _ := by
    cases pre with
    | nil => exact ⟨rfl, htries⟩
    | cons u pre => simp [mondayLoad] at htries
  cases e
  decide +kernel

/-- **Monday's data replaced by Friday's.** At 20:00 the download of Monday's file fails, Friday's
    succeeds. -/
theorem bse_goes_back :
    ∃ s, run bseStep {} [mondayLoad 19 [some (relianceFile "2450")],
        mondayLoad 20 [none, none, none, some (relianceFile "2431")]] = some s ∧
      s.loadedDate = some 20455 ∧
      ¬ StepsMeet bseStep (EndOfDayLaw bseRows bseWalk) {}
        [mondayLoad 19 [some (relianceFile "2450")],
          mondayLoad 20 [none, none, none, some (relianceFile "2431")]] := by
  have hrun : (run bseStep {} [mondayLoad 19 [some (relianceFile "2450")],
      mondayLoad 20 [none, none, none, some (relianceFile "2431")]]).map (·.loadedDate) =
      some (some 20455) := by
    decide +kernel
  obtain ⟨s, hs, hdate⟩ := Option.map_eq_some_iff.mp hrun
  refine ⟨s, hs, hdate, fun h => ?_⟩
  obtain ⟨s₁, h₁, -⟩ := run_cons.1 hs
  have hfirst : (bseStep {} (mondayLoad 19 [some (relianceFile "2450")])).map (·.loadedDate) =
      some (some 20458) := by
    decide +kernel
  rw [h₁, Option.map_some, Option.some.injEq] at hfirst
  obtain ⟨day, hday, hle⟩ := (h.2 s₁ h₁).1.forward 20458 hfirst
  have hback : ((bseStep {} (mondayLoad 19 [some (relianceFile "2450")])).map fun s =>
      (s.ensureLoaded bseWalk
        (mondayLoad 20 [none, none, none, some (relianceFile "2431")])).loadedDate) =
      some (some 20455) := by
    decide +kernel
  rw [h₁, Option.map_some, hday, Option.some.injEq, Option.some.injEq] at hback
  omega

end Bhavcopy

end BharatTicker
