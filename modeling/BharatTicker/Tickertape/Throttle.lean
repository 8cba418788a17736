/-
  File:      BharatTicker/Tickertape/Throttle.lean
  Subject:   THE THROTTLE OF `/search`: `_search` and `_get_raw` (`engine/tickertape.py`), by any number
             of resolvers.

  A call of `_search` suspends where it waits for `_search_lock`, where it sleeps out the gap, and where
  it awaits the answer. Between these the tasks take their steps in any order. Every reading of the
  clock has its own time; a sleep does not end early, and nobody cancels a call. `requests` is a ghost:
  what went to upstream, newest first.

  * `SearchPhase`, `SearchRequest`, `SearchThrottle` -- a task, a request, the shared state;
  * `SearchAction`, `step` -- the tasks' steps;
  * `StartsAfter` -- what the throttle promises about two requests;
  * `Throttled`, `send_throttled`, `step_throttled` -- the invariant;
  * `search_throttle` -- any interleaving.
-/
import BharatTicker.Tickertape

namespace BharatTicker

open Basis

-- the concrete runs below compute with rationals
unseal Rat.add Rat.mul Rat.sub Rat.inv

/-! ## 1. The tasks -/

/-- How a request to upstream ends: a response with its body, where that is JSON, or an exception. -/
inductive UpstreamAnswer where
  | response (status : ℕ) (json : Option (List SearchStock))
  | raised
  deriving DecidableEq, Repr

/-- `_get_raw`. -/
def getRaw : UpstreamAnswer → Option ℕ × Option (List SearchStock)
  | .response status json => (some status, if status = 200 then json else none)
  | .raised => (none, none)

/-- A call of `_search`. -/
inductive SearchPhase where
  | idle
  /-- It awaits the lock. -/
  | waiting (text : String)
  /-- It holds the lock and sleeps. -/
  | sleeping (text : String) (wakesAt : ℚ)
  /-- It holds the lock and awaits the answer. -/
  | requesting
  | returned (j : Option (List SearchStock))
  deriving DecidableEq, Repr

/-- A request to upstream: when it ended, and with which status. -/
structure SearchRequest where
  task : ℕ
  text : String
  start : ℚ
  ended : Option (ℚ × Option ℕ) := none
  deriving DecidableEq, Repr

/-- `_search_lock`, `_last_search_ts`, `_search_cooldown_until`, the tasks and the clock. -/
structure SearchThrottle where
  clock : ℚ
  lock : Option ℕ := none
  lastSearchTs : ℚ := 0
  searchCooldownUntil : ℚ := 0
  tasks : ℕ → SearchPhase := fun _ => .idle
  requests : List SearchRequest := []

/-- `_SEARCH_MIN_GAP`. -/
def searchMinGap : ℚ := 6 / 10

/-- `_SEARCH_COOLDOWN_S`. -/
def searchCooldownS : ℚ := 120

/-- The steps of a task, with its readings of the clock in their order. -/
inductive SearchAction where
  /-- `_search` is called and checks the cooldown. -/
  | call (task : ℕ) (text : String) (t : ℚ)
  /-- It gets the lock, checks the cooldown again and reads the gap, and sleeps or sends its request at
      `t`. -/
  | enter (task : ℕ) (rechecked measured t : ℚ)
  /-- The sleep is over: it sends its request. -/
  | wake (task : ℕ) (t : ℚ)
  /-- The answer arrives at `t`; it notes the time, and after a 403 that of the cooldown. -/
  | answered (task : ℕ) (answer : UpstreamAnswer) (t noted parked : ℚ)

namespace SearchThrottle

/-- The globals of the module, a clock that shows `now`. -/
def init (now : ℚ) : SearchThrottle where
  clock := now

variable (s : SearchThrottle)

def setTask (i : ℕ) (phase : SearchPhase) : SearchThrottle :=
  { s with tasks := Function.update s.tasks i phase }

/-- The request of `_get_raw` leaves. -/
def send (i : ℕ) (text : String) (t : ℚ) : SearchThrottle :=
  { s with
    clock := t
    lock := some i
    tasks := Function.update s.tasks i .requesting
    requests := ⟨i, text, t, none⟩ :: s.requests }

/-- The body of `async with`, up to the request. -/
def enter (i : ℕ) (text : String) (rechecked measured t : ℚ) : SearchThrottle :=
  if rechecked < s.searchCooldownUntil then
    { s with clock := t, tasks := Function.update s.tasks i (.returned none) }
  else
    let gap := measured - s.lastSearchTs
    if gap < searchMinGap then
      { s with
        clock := t
        lock := some i
        tasks := Function.update s.tasks i (.sleeping text (t + (searchMinGap - gap))) }
    else s.send i text t

/-- The end of the request that a task has underway. -/
def close (i : ℕ) (t : ℚ) (status : Option ℕ) (r : SearchRequest) : SearchRequest :=
  if r.task = i ∧ r.ended = none then { r with ended := some (t, status) } else r

/-- The rest of `_search`. -/
def answered (i : ℕ) (answer : UpstreamAnswer) (t noted parked : ℚ) : SearchThrottle :=
  let status := (getRaw answer).1
  let j := (getRaw answer).2
  { s with
    clock := parked
    lock := none
    lastSearchTs := noted
    searchCooldownUntil :=
      if status = some 403 then parked + searchCooldownS else s.searchCooldownUntil
    tasks := Function.update s.tasks i (.returned (if status = some 403 then none else j))
    requests := s.requests.map (close i t status) }

/-- One step of a task, on a clock that does not run backwards. -/
def step (s : SearchThrottle) : SearchAction → Option SearchThrottle
  | .call i text t =>
    if s.tasks i = .idle ∧ s.clock ≤ t then
      some ({ s with clock := t }.setTask i
        (if t < s.searchCooldownUntil then .returned none else .waiting text))
    else none
  | .enter i rechecked measured t =>
    match s.tasks i with
    | .waiting text =>
      if s.lock = none ∧ s.clock ≤ rechecked ∧ rechecked ≤ measured ∧ measured ≤ t then
        some (s.enter i text rechecked measured t)
      else none
    | _ => none
  | .wake i t =>
    match s.tasks i with
    | .sleeping text wakesAt =>
      if wakesAt ≤ t ∧ s.clock ≤ t then some (s.send i text t) else none
    | _ => none
  | .answered i answer t noted parked =>
    if s.tasks i = .requesting ∧ s.clock ≤ t ∧ t ≤ noted ∧ noted ≤ parked then
      some (s.answered i answer t noted parked)
    else none

end SearchThrottle

/-! ## 2. What the throttle promises -/

/-- The older request has ended, the newer one starts at least the gap later, and after a 403 not within
    the cooldown. -/
def StartsAfter (newer older : SearchRequest) : Prop :=
  ∃ t status, older.ended = some (t, status) ∧ t + searchMinGap ≤ newer.start ∧
    (status = some 403 → t + searchCooldownS ≤ newer.start)

/-- The task is inside of `async with`. -/
def SearchPhase.inside : SearchPhase → Bool
  | .sleeping _ _ | .requesting => true
  | .idle | .waiting _ | .returned _ => false

/-- The invariant. -/
structure Throttled (s : SearchThrottle) : Prop where
  /-- Who is inside holds the lock. -/
  holder : ∀ i, (s.tasks i).inside = true → s.lock = some i
  /-- A request that has not ended is awaited. -/
  underway : ∀ r ∈ s.requests, r.ended = none → s.tasks r.task = .requesting
  /-- One that has is within the times that are noted. -/
  noted : ∀ r ∈ s.requests, ∀ t status, r.ended = some (t, status) →
    t ≤ s.clock ∧ t ≤ s.lastSearchTs ∧
      (status = some 403 → t + searchCooldownS ≤ s.searchCooldownUntil)
  /-- A sleep ends after the gap, the cooldown being over when it began. -/
  slept : ∀ i text u, s.tasks i = .sleeping text u →
    s.lastSearchTs + searchMinGap ≤ u ∧ s.searchCooldownUntil ≤ s.clock
  spaced : s.requests.Pairwise StartsAfter

section Throttle

variable {s s' : SearchThrottle} {i : ℕ} {text : String} {t : ℚ}

theorem throttled_init (now : ℚ) : Throttled (.init now) where
  holder _ h := by cases h
  underway _ h := by cases h
  noted _ h := by cases h
  slept _ _ _ h := by cases h
  spaced := .nil

theorem Throttled.requester (h : Throttled s) (hi : s.tasks i = .requesting) : s.lock = some i :=
  h.holder i (by rw [hi]; rfl)

theorem Throttled.sleeper {u : ℚ} (h : Throttled s) (hi : s.tasks i = .sleeping text u) :
    s.lock = some i :=
  h.holder i (by rw [hi]; rfl)

/-- A task that takes the lock, which is free for it, is the only one inside. -/
theorem holder_take (h : Throttled s) (hfree : ∀ j, s.lock = some j → j = i) (phase : SearchPhase) :
    ∀ j, (Function.update s.tasks i phase j).inside = true → some i = some j := by
  intro j hj
  by_cases e : j = i
  · rw [e]
  · rw [Function.update_of_ne e] at hj
    exact absurd (hfree j (h.holder j hj)) e

/-- Where the lock is free for `i`, all requests have ended unless `i` awaits one. -/
theorem all_ended (h : Throttled s) (hfree : ∀ j, s.lock = some j → j = i)
    (hnot : s.tasks i ≠ .requesting) : ∀ r ∈ s.requests, r.ended ≠ none := by
  intro r hr hnone
  have hreq := h.underway r hr hnone
  rw [hfree _ (h.requester hreq)] at hreq
  exact hnot hreq

/-- **A request is sent**: by a task with the lock for it, the gap and the cooldown being over. -/
theorem send_throttled (h : Throttled s) (hclock : s.clock ≤ t)
    (hfree : ∀ j, s.lock = some j → j = i) (hnot : s.tasks i ≠ .requesting) (hgap : s.lastSearchTs + searchMinGap ≤ t)
    (hcool : s.searchCooldownUntil ≤ t) : Throttled (s.send i text t) := by
  have hended := all_ended h hfree hnot
  refine ⟨holder_take h hfree .requesting, fun r hr hnone => ?_, fun r hr t' status he => ?_,
    fun j text' u hj => ?_, ?_⟩
  · rcases List.mem_cons.mp hr with rfl | hr
    · exact Function.update_self ..
    · exact absurd hnone (hended r hr)
  · rcases List.mem_cons.mp hr with rfl | hr
    · cases he
    · obtain ⟨hpast, hnoted⟩ := h.noted r hr t' status he
      exact ⟨hpast.trans hclock, hnoted⟩
  · -- nobody sleeps: the only one inside awaits its answer
    have hlock := holder_take h hfree .requesting j (by
      rw [show Function.update s.tasks i .requesting j = .sleeping text' u from hj]
      rfl)
    cases hlock
    have hself : (s.send i text t).tasks i = .requesting := Function.update_self ..
    rw [hself] at hj
    cases hj
  · refine List.pairwise_cons.mpr ⟨fun r hr => ?_, h.spaced⟩
    obtain ⟨⟨t', status⟩, he⟩ := Option.ne_none_iff_exists'.mp (hended r hr)
    obtain ⟨-, hlast, hpark⟩ := h.noted r hr t' status he
    exact ⟨t', status, he, (add_le_add_left hlast _).trans hgap, fun h403 => (hpark h403).trans hcool⟩

/-- A task that is not inside moves on to a phase that is not. -/
theorem move_throttled {phase : SearchPhase} (h : Throttled s) (hclock : s.clock ≤ t)
    (hold : (s.tasks i).inside = false) (hnew : phase.inside = false) :
    Throttled ({ s with clock := t }.setTask i phase) := by
  have hsame : ∀ j, (Function.update s.tasks i phase j).inside = true →
      Function.update s.tasks i phase j = s.tasks j := by
    intro j hj
    by_cases e : j = i
    · rw [e, Function.update_self, hnew] at hj
      cases hj
    · exact Function.update_of_ne e ..
  refine ⟨fun j hj => ?_, fun r hr hnone => ?_, fun r hr t' status he => ?_, fun j text' u hj => ?_,
    h.spaced⟩
  · have hinside : (s.tasks j).inside = true := by
      rw [← hsame j hj]
      exact hj
    exact h.holder j hinside
  · have hreq := h.underway r hr hnone
    have hne : r.task ≠ i := fun e => by
      rw [← e, hreq] at hold
      cases hold
    exact (Function.update_of_ne hne ..).trans hreq
  · obtain ⟨hpast, hnoted⟩ := h.noted r hr t' status he
    exact ⟨hpast.trans hclock, hnoted⟩
  · have hsleep : s.tasks j = .sleeping text' u := by
      rw [← hsame j (by rw [show Function.update s.tasks i phase j = _ from hj]; rfl)]
      exact hj
    obtain ⟨hgap, hcool⟩ := h.slept j text' u hsleep
    exact ⟨hgap, hcool.trans hclock⟩

/-- **A task gets the lock**, and returns, sleeps or sends its request. -/
theorem enter_throttled {rechecked measured : ℚ} (h : Throttled s)
    (hphase : s.tasks i = .waiting text) (hlock : s.lock = none) (hclock : s.clock ≤ rechecked)
    (hmeasured : rechecked ≤ measured) (ht : measured ≤ t) :
    Throttled (s.enter i text rechecked measured t) := by
  have hfree : ∀ j, s.lock = some j → j = i := fun j hj => by
    rw [hlock] at hj
    cases hj
  have hnot : s.tasks i ≠ .requesting := by
    rw [hphase]
    exact nofun
  have hlater : s.clock ≤ t := hclock.trans (hmeasured.trans ht)
  unfold SearchThrottle.enter
  split
  · exact move_throttled h hlater (by rw [hphase]; rfl) rfl
  · rename_i hcool
    rw [not_lt] at hcool
    dsimp only
    split
    · have hholder := holder_take h hfree (.sleeping text (t + (searchMinGap -
        (measured - s.lastSearchTs))))
      refine ⟨hholder, fun r hr hnone => absurd hnone (all_ended h hfree hnot r hr),
        fun r hr t' status he => ?_, fun j text' u hj => ?_, h.spaced⟩
      · obtain ⟨hpast, hnoted⟩ := h.noted r hr t' status he
        exact ⟨hpast.trans hlater, hnoted⟩
      · have hj' : Function.update s.tasks i _ j = .sleeping text' u := hj
        cases hholder j (by rw [hj']; rfl)
        rw [Function.update_self] at hj'
        cases hj'
        refine ⟨?_, hcool.trans (hmeasured.trans ht)⟩
        show s.lastSearchTs + searchMinGap ≤ t + (searchMinGap - (measured - s.lastSearchTs))
        linarith
    · rename_i hgap
      rw [not_lt] at hgap
      exact send_throttled h hlater hfree hnot (by linarith) (by linarith)

/-- When the task that holds the lock returns, nobody is inside. -/
theorem outside_returned (h : Throttled s) (hlock : s.lock = some i) (j : Option (List SearchStock))
    (k : ℕ) : (Function.update s.tasks i (.returned j) k).inside = false := by
  by_cases e : k = i
  · rw [e, Function.update_self]
    rfl
  · rw [Function.update_of_ne e]
    by_contra hin
    have hholder := h.holder k (by simpa using hin)
    rw [hlock] at hholder
    exact e (Option.some.inj hholder).symm

/-- Only the request underway is closed. -/
theorem close_of_ended {r : SearchRequest} {status : Option ℕ} (h : r.ended ≠ none) :
    SearchThrottle.close i t status r = r := if_neg fun hr => h hr.2

/-- A request underway is that of the task which holds the lock, and it is closed. -/
theorem close_ended {r : SearchRequest} {status : Option ℕ} (h : Throttled s)
    (hlock : s.lock = some i) (hr : r ∈ s.requests) :
    (SearchThrottle.close i t status r).ended ≠ none := by
  unfold SearchThrottle.close
  split
  · exact Option.some_ne_none _
  · rename_i hother
    intro hnone
    have hholder := h.requester (h.underway r hr hnone)
    rw [hlock] at hholder
    exact hother ⟨(Option.some.inj hholder).symm, hnone⟩

/-- The promise is about how the older request ended and when the newer one started. -/
theorem close_startsAfter {newer older : SearchRequest} {status : Option ℕ}
    (h : StartsAfter newer older) : StartsAfter (SearchThrottle.close i t status newer)
      (SearchThrottle.close i t status older) := by
  obtain ⟨t', status', he, hstart⟩ := h
  rw [close_of_ended (show older.ended ≠ none by rw [he]; simp)]
  refine ⟨t', status', he, ?_⟩
  unfold SearchThrottle.close
  split
  · exact hstart
  · exact hstart

/-- **The answer arrives**: the request is over, and its times are noted. -/
theorem answered_throttled {answer : UpstreamAnswer} {noted parked : ℚ} (h : Throttled s)
    (hphase : s.tasks i = .requesting) (hclock : s.clock ≤ t) (hnoted : t ≤ noted)
    (hparked : noted ≤ parked) : Throttled (s.answered i answer t noted parked) := by
  have hlock := h.requester hphase
  have hout := outside_returned h hlock
    (if (getRaw answer).1 = some 403 then none else (getRaw answer).2)
  refine ⟨fun j hj => ?_, fun r hr hnone => ?_, fun r hr t' status he => ?_, fun j text' u hj => ?_, ?_⟩
  · exact absurd (hj.symm.trans (hout j)) (by decide)
  · obtain ⟨r, hmem, rfl⟩ := List.mem_map.mp hr
    exact absurd hnone (close_ended h hlock hmem)
  · obtain ⟨r, hmem, rfl⟩ := List.mem_map.mp hr
    unfold SearchThrottle.close at he
    split at he
    · cases he
      refine ⟨hnoted.trans hparked, hnoted, fun h403 => ?_⟩
      show t + searchCooldownS ≤ if (getRaw answer).1 = some 403 then _ else _
      rw [if_pos h403]
      linarith
    · obtain ⟨hpast, hlast, hpark⟩ := h.noted r hmem t' status he
      refine ⟨by show t' ≤ parked; linarith, by show t' ≤ noted; linarith, fun h403 => ?_⟩
      show t' + searchCooldownS ≤ if (getRaw answer).1 = some 403 then _ else _
      split
      · linarith
      · exact hpark h403
  · have hin : SearchPhase.inside (.sleeping text' u) = false :=
      (congrArg SearchPhase.inside hj).symm.trans (hout j)
    cases hin
  · exact List.Pairwise.map _ (fun _ _ => close_startsAfter) h.spaced

/-- **One step of a task.** -/
theorem step_throttled {a : SearchAction} (h : Throttled s) (hs : s.step a = some s') :
    Throttled s' := by
  cases a with
  | call i text t =>
    simp only [SearchThrottle.step] at hs
    split at hs
    · rename_i hcall
      cases hs
      refine move_throttled h hcall.2 (by rw [hcall.1]; rfl) ?_
      split <;> rfl
    · cases hs
  | enter i rechecked measured t =>
    simp only [SearchThrottle.step] at hs
    split at hs
    · rename_i text hphase
      split at hs
      · rename_i hwhen
        cases hs
        exact enter_throttled h hphase hwhen.1 hwhen.2.1 hwhen.2.2.1 hwhen.2.2.2
      · cases hs
    · cases hs
  | wake i t =>
    simp only [SearchThrottle.step] at hs
    split at hs
    · rename_i text wakesAt hphase
      split at hs
      · rename_i hwhen
        cases hs
        obtain ⟨hgap, hcool⟩ := h.slept i text wakesAt hphase
        have hlock := h.sleeper hphase
        refine send_throttled h hwhen.2 (fun j hj => ?_) (by rw [hphase]; exact nofun)
          (hgap.trans hwhen.1) (hcool.trans hwhen.2)
        rw [hlock] at hj
        exact (Option.some.inj hj).symm
      · cases hs
    · cases hs
  | answered i answer t noted parked =>
    simp only [SearchThrottle.step] at hs
    split at hs
    · rename_i hwhen
      cases hs
      exact answered_throttled h hwhen.1 hwhen.2.1 hwhen.2.2.1 hwhen.2.2.2
    · cases hs

end Throttle

/-! ## 3. Any interleaving -/

/-- **The throttle of `/search`**: for any number of resolvers, any answers and any interleaving of their
    steps, every request starts after all those before it have ended, at least the gap later, and at
    least the cooldown after the end of one that was answered with 403. -/
theorem search_throttle {now : ℚ} {as : List SearchAction} {s : SearchThrottle}
    (hr : run SearchThrottle.step (.init now) as = some s) : s.requests.Pairwise StartsAfter :=
  (run_invariant (fun _ _ _ h hs => step_throttled h hs) (throttled_init now) hr).spaced

/-- Two resolvers: the second one sleeps out the gap after the first one's answer. -/
def twoSearches : List SearchAction :=
  [.call 0 "TCS" 10, .call 1 "INFY" 10, .enter 0 10 10 10, .answered 0 (.response 200 (some [])) 11 11 11,
    .enter 1 11 11 11, .wake 1 12]

theorem search_throttle_two :
    ((run SearchThrottle.step (.init 10) twoSearches).getD (.init 10)).requests.Pairwise StartsAfter :=
  @search_throttle 10 twoSearches _ rfl

end BharatTicker
