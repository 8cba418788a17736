/-
  File:      BharatTicker/MarketData/IntradaySeries.lean
  Subject:   THE CACHE OF THE BSE CURVE: `get_intraday_series` (`engine/market_data.py`).

  A call looks at `_intraday_cache` once, when it begins. Where the series there is not young, it asks
  the BSE scraper, at most twice, and stores what it gets; after two failures it returns the series
  that it saw at the start. No lock is held, so the calls of one key overlap as they like, and a call
  may be cancelled wherever it waits. To connect and to fetch is one attempt.

  * `SeriesCall`, `SeriesTask.move`, `IntradayCache.step` -- a call, its steps, and those of all calls;
  * `Newest`, `SeriesTask.Explained` -- where a returned series comes from;
  * `SeriesInv`, `step_seriesInv` -- the invariant;
  * `intraday_series_answers` -- any interleaving.
-/
import BharatTicker.Basis.Run
import BharatTicker.MarketData

namespace BharatTicker

open Basis

universe u

/-! ## 1. A call -/

/-- The arguments of `get_intraday_series`. -/
structure SeriesCall where
  symbol : String
  flag : String := "0"
  deriving DecidableEq, Repr

/-- `f"{symbol.upper()}:{flag}"`, of the canonical symbol. -/
def SeriesCall.key (c : SeriesCall) : String :=
  upper (canonicalSymbol c.symbol) ++ ":" ++ c.flag

/-- `_INTRADAY_TTL_S`. -/
def intradayTtl : ℚ := 45

/-- The pause before a second attempt, and after one that has raised. -/
def seriesPause : ℚ := 4 / 10

/-- How a call has come by what it returns. -/
inductive SeriesEnding where
  /-- From the cache, without asking. -/
  | cached
  | fetched
  /-- `hit[1] if hit else None`. -/
  | fallback
  deriving DecidableEq, Repr

inductive SeriesPhase (α : Type u) where
  /-- It waits for `_controller`. -/
  | controller
  | fetching (attempt : ℕ)
  | resting (attempt : ℕ) (wakes : ℚ)
  | returned (how : SeriesEnding) (series : Option (List α))
  /-- `_controller` has raised, or the call was cancelled. -/
  | raised
  deriving DecidableEq, Repr

/-- A call under way, with the `hit` that it saw. `attempts` is a ghost: when its attempts began,
    newest first. -/
structure SeriesTask (α : Type u) where
  call : SeriesCall
  began : ℚ
  hit : Option (ℚ × List α)
  phase : SeriesPhase α := .controller
  attempts : List ℚ := []
  deriving DecidableEq, Repr

inductive SeriesEvent (α : Type u) where
  /-- `_controller` returns. -/
  | ready
  | failed
  /-- `fetch_intraday_graph` returns. -/
  | answered (series : Option (List α))
  /-- `connect` or `fetch_intraday_graph` raises. -/
  | raised
  | woke
  | cancelled
  deriving DecidableEq, Repr

/-- `p.name == "bse_scraper"` for one of the providers; there are not two of that name
    (`controller_distinct`). -/
def hasBseScraper (settings : ProviderSettings) : Bool :=
  (controller settings).providers.any fun p => p.name = "bse_scraper"

section Task

variable {α : Type u}

/-- The start of a call, up to its first `await`. -/
def SeriesCall.start (c : SeriesCall) (hit : Option (ℚ × List α)) (t : ℚ) : SeriesTask α where
  call := c
  began := t
  hit := hit
  phase :=
    match hit with
    | some h =>
      if t - h.1 < intradayTtl ∧ h.2.isEmpty = false then .returned .cached (some h.2)
      else .controller
    | none => .controller

namespace SeriesTask

/-- The start of an attempt. -/
def fetch (task : SeriesTask α) (attempt : ℕ) (t : ℚ) : SeriesTask α :=
  { task with phase := .fetching attempt, attempts := t :: task.attempts }

/-- After the loop. -/
def giveUp (task : SeriesTask α) : SeriesTask α :=
  { task with phase := .returned .fallback (task.hit.map (·.2)) }

/-- The end of a turn of `for attempt in range(2)`. -/
def next (task : SeriesTask α) (attempt : ℕ) (t : ℚ) : SeriesTask α :=
  if attempt + 1 < 2 then task.fetch (attempt + 1) t else task.giveUp

def rest (task : SeriesTask α) (attempt : ℕ) (t : ℚ) : SeriesTask α :=
  { task with phase := .resting attempt (t + seriesPause) }

/-- What a call does next, and what it stores. -/
def move (scraper : Bool) (task : SeriesTask α) (t : ℚ) :
    SeriesEvent α → Option (SeriesTask α × Option (List α))
  | .ready =>
    match task.phase with
    | .controller => some (if scraper then task.fetch 0 t else task.giveUp, none)
    | _ => none
  | .failed =>
    match task.phase with
    | .controller => some ({ task with phase := .raised }, none)
    | _ => none
  | .answered series =>
    match task.phase with
    | .fetching attempt =>
      match series.filter fun l => l.isEmpty = false with
      | some l => some ({ task with phase := .returned .fetched (some l) }, some l)
      -- nothing: only the first attempt pauses
      | none => some (if attempt = 0 then task.rest attempt t else task.next attempt t, none)
    | _ => none
  | .raised =>
    match task.phase with
    | .fetching attempt => some (task.rest attempt t, none)
    | _ => none
  | .woke =>
    match task.phase with
    | .resting attempt wakes => if wakes ≤ t then some (task.next attempt t, none) else none
    | _ => none
  | .cancelled =>
    match task.phase with
    | .returned .. => none
    | .raised => none
    | _ => some ({ task with phase := .raised }, none)

end SeriesTask

end Task

/-! ## 2. All calls -/

/-- A series that was put into the cache, and by which call. -/
structure StoredSeries (α : Type u) where
  task : ℕ
  key : String
  storedAt : ℚ
  series : List α
  deriving DecidableEq, Repr

/-- `_intraday_cache` and the calls. `stored` is a ghost: what has been put into the cache, newest
    first. -/
structure IntradayCache (α : Type u) where
  clock : ℚ
  cache : String → Option (ℚ × List α) := fun _ => none
  tasks : ℕ → Option (SeriesTask α) := fun _ => none
  stored : List (StoredSeries α) := []

inductive SeriesAction (α : Type u) where
  | call (task : ℕ) (c : SeriesCall) (t : ℚ)
  | event (task : ℕ) (event : SeriesEvent α) (t : ℚ)
  deriving DecidableEq, Repr

namespace IntradayCache

variable {α : Type u}

def setTask (s : IntradayCache α) (i : ℕ) (t : ℚ) (task : SeriesTask α) : IntradayCache α :=
  { s with clock := t, tasks := Function.update s.tasks i (some task) }

/-- `self._intraday_cache[key] = (time.time(), res)`. -/
def store (s : IntradayCache α) (i : ℕ) (key : String) (t : ℚ) (series : List α) :
    IntradayCache α :=
  { s with
    cache := Function.update s.cache key (some (t, series))
    stored := ⟨i, key, t, series⟩ :: s.stored }

/-- A step of a call, on a clock that does not run backwards. -/
def step (settings : ProviderSettings) (s : IntradayCache α) :
    SeriesAction α → Option (IntradayCache α)
  | .call i c t =>
    match s.tasks i with
    | none => if s.clock ≤ t then some (s.setTask i t (c.start (s.cache c.key) t)) else none
    | some _ => none
  | .event i event t =>
    match s.tasks i with
    | some task =>
      if s.clock ≤ t then
        match task.move (hasBseScraper settings) t event with
        | some (task', none) => some (s.setTask i t task')
        | some (task', some series) => some ((s.setTask i t task').store i task.call.key t series)
        | none => none
      else none
    | none => none

end IntradayCache

/-! ## 3. Where a series comes from -/

section Explained

variable {α : Type u} (stored : List (StoredSeries α)) (key : String) (began : ℚ)

/-- The newest series of a key at the beginning of a call. -/
structure Newest (x : StoredSeries α) : Prop where
  mem : x ∈ stored
  keyed : x.key = key
  before : x.storedAt ≤ began
  newest : ∀ y ∈ stored, y.key = key → y.storedAt ≤ x.storedAt ∨ began ≤ y.storedAt

/-- There was none of the key. -/
def NoneStored : Prop := ∀ y ∈ stored, y.key = key → began ≤ y.storedAt

variable (scraper : Bool) (i : ℕ) (task : SeriesTask α)

/-- **What a call returns.** From the cache: the newest series, a young one. Fetched: what it stored
    itself. Otherwise both attempts have failed, or there is no scraper, and it is the newest series
    when the call began, or nothing if there was none. -/
def SeriesTask.Explained : SeriesEnding → Option (List α) → Prop
  | .cached, r => task.attempts = [] ∧ ∃ x, Newest stored task.call.key task.began x ∧
      task.began - x.storedAt < intradayTtl ∧ r = some x.series
  | .fetched, r => ∃ x ∈ stored, x.task = i ∧ x.key = task.call.key ∧ task.began ≤ x.storedAt ∧
      r = some x.series
  | .fallback, r => (∀ x ∈ stored, x.task ≠ i) ∧
      task.attempts.length = (if scraper then 2 else 0) ∧
        ((∃ x, Newest stored task.call.key task.began x ∧ r = some x.series) ∨
          NoneStored stored task.call.key task.began ∧ r = none)

/-- At most two attempts, the second a pause after the first. -/
def SeriesTask.Spaced : Prop :=
  task.attempts.length ≤ 2 ∧
    task.attempts.Pairwise fun newer older => older + seriesPause ≤ newer

/-- No attempt where there was a young series when the call began. -/
def SeriesTask.Needed : Prop :=
  task.attempts ≠ [] → ∀ x ∈ stored, x.key = task.call.key →
    task.began ≤ x.storedAt ∨ intradayTtl ≤ task.began - x.storedAt

end Explained

/-! ### What is stored later changes nothing -/

section Store

variable {α : Type u} {scraper : Bool} {stored : List (StoredSeries α)} {i : ℕ} {key : String}
  {began : ℚ} {task : SeriesTask α} {x y : StoredSeries α}

theorem Newest.store (h : Newest stored key began x) (hlater : began ≤ y.storedAt) :
    Newest (y :: stored) key began x where
  mem := List.mem_cons_of_mem _ h.mem
  keyed := h.keyed
  before := h.before
  newest z hz hkey := by
    rcases List.mem_cons.mp hz with rfl | hz
    · exact .inr hlater
    · exact h.newest z hz hkey

theorem NoneStored.store (h : NoneStored stored key began) (hlater : began ≤ y.storedAt) :
    NoneStored (y :: stored) key began := by
  intro z hz hkey
  rcases List.mem_cons.mp hz with rfl | hz
  · exact hlater
  · exact h z hz hkey

/-- The own series is the only one that a call stores. -/
theorem others_store (h : ∀ x ∈ stored, x.task ≠ i) (hother : y.task ≠ i) :
    ∀ x ∈ y :: stored, x.task ≠ i := by
  intro x hx
  rcases List.mem_cons.mp hx with rfl | hx
  · exact hother
  · exact h x hx

theorem SeriesTask.Explained.store {how : SeriesEnding} {r : Option (List α)}
    (h : task.Explained stored scraper i how r) (hlater : task.began ≤ y.storedAt)
    (hother : y.task ≠ i) : task.Explained (y :: stored) scraper i how r := by
  cases how with
  | cached =>
    obtain ⟨hnone, x, hx, hrest⟩ := h
    exact ⟨hnone, x, hx.store hlater, hrest⟩
  | fetched =>
    obtain ⟨x, hx, hrest⟩ := h
    exact ⟨x, List.mem_cons_of_mem _ hx, hrest⟩
  | fallback =>
    obtain ⟨hown, hlen, ⟨x, hx, hr⟩ | ⟨hnone, hr⟩⟩ := h
    · exact ⟨others_store hown hother, hlen, .inl ⟨x, hx.store hlater, hr⟩⟩
    · exact ⟨others_store hown hother, hlen, .inr ⟨hnone.store hlater, hr⟩⟩

end Store

/-! ## 4. The invariant -/

namespace SeriesTask

section Moves

variable {α : Type u} {scraper : Bool} {task task' : SeriesTask α} {t : ℚ} {event : SeriesEvent α}
  {out : Option (List α)}

/-- The steps of a call. -/
inductive Moves (scraper : Bool) (task : SeriesTask α) (t : ℚ) :
    SeriesEvent α → SeriesTask α → Option (List α) → Prop where
  | ready (h : task.phase = .controller) :
      Moves scraper task t .ready (if scraper then task.fetch 0 t else task.giveUp) none
  | ends {event : SeriesEvent α} (h : ∀ how r, task.phase ≠ .returned how r) :
      Moves scraper task t event { task with phase := .raised } none
  | fetched {attempt : ℕ} {l : List α} (h : task.phase = .fetching attempt) (hl : l ≠ []) :
      Moves scraper task t (.answered (some l))
        { task with phase := .returned .fetched (some l) } (some l)
  | rests {event : SeriesEvent α} {attempt : ℕ} (h : task.phase = .fetching attempt) :
      Moves scraper task t event (task.rest attempt t) none
  | empty {event : SeriesEvent α} {attempt : ℕ} (h : task.phase = .fetching attempt)
      (hlast : attempt ≠ 0) : Moves scraper task t event (task.next attempt t) none
  | wakes {attempt : ℕ} {wakes : ℚ} (h : task.phase = .resting attempt wakes) (hdue : wakes ≤ t) :
      Moves scraper task t .woke (task.next attempt t) none

theorem move_moves (hm : task.move scraper t event = some (task', out)) :
    Moves scraper task t event task' out := by
  cases event with
  | ready =>
    simp only [move] at hm
    split at hm
    · rename_i hphase
      cases hm
      exact .ready hphase
    · cases hm
  | failed =>
    simp only [move] at hm
    split at hm
    · rename_i hphase
      cases hm
      exact .ends fun how r hreturned => by rw [hphase] at hreturned; cases hreturned
    · cases hm
  | answered series =>
    simp only [move] at hm
    split at hm
    · rename_i attempt hphase
      split at hm
      · rename_i l hl
        cases hm
        obtain ⟨rfl, hne⟩ := Option.filter_eq_some_iff.mp hl
        exact .fetched hphase (by simpa using hne)
      · cases hm
        split
        · exact .rests hphase
        · rename_i hlast
          exact .empty hphase hlast
    · cases hm
  | raised =>
    simp only [move] at hm
    split at hm
    · rename_i attempt hphase
      cases hm
      exact .rests hphase
    · cases hm
  | woke =>
    simp only [move] at hm
    split at hm
    · rename_i attempt wakes hphase
      obtain ⟨hdue, hm⟩ := Option.ite_none_right_eq_some.mp hm
      cases hm
      exact .wakes hphase hdue
    · cases hm
  | cancelled =>
    simp only [move] at hm
    split at hm
    · cases hm
    · cases hm
    · rename_i hreturned hraised
      cases hm
      exact .ends hreturned

end Moves

end SeriesTask

namespace IntradayCache

section Invariant

variable {α : Type u}

/-- What the `hit` of a call is: the newest series when it began, if there was one. -/
def HitOf (stored : List (StoredSeries α)) (key : String) (began : ℚ) :
    Option (ℚ × List α) → Prop
  | some h => ∃ x, Newest stored key began x ∧ x.storedAt = h.1 ∧ x.series = h.2
  | none => NoneStored stored key began

/-- The `hit` was too old. -/
def Stale (task : SeriesTask α) : Prop :=
  ∀ h, task.hit = some h → intradayTtl ≤ task.began - h.1

/-- What is known of a call in each phase. -/
def PhaseOk (scraper : Bool) (stored : List (StoredSeries α)) (i : ℕ) (task : SeriesTask α) :
    SeriesPhase α → Prop
  | .controller => Stale task ∧ task.attempts = [] ∧ ∀ x ∈ stored, x.task ≠ i
  | .fetching attempt => Stale task ∧ scraper = true ∧ attempt < 2 ∧
      task.attempts.length = attempt + 1 ∧ ∀ x ∈ stored, x.task ≠ i
  | .resting attempt wakes => Stale task ∧ scraper = true ∧ attempt < 2 ∧
      task.attempts.length = attempt + 1 ∧ (∀ x ∈ stored, x.task ≠ i) ∧
        ∀ a ∈ task.attempts, a + seriesPause ≤ wakes
  | .returned how r => (task.attempts ≠ [] → Stale task) ∧ task.Explained stored scraper i how r
  | .raised => task.attempts ≠ [] → Stale task

structure TaskInv (scraper : Bool) (stored : List (StoredSeries α)) (now : ℚ) (i : ℕ)
    (task : SeriesTask α) : Prop where
  began : task.began ≤ now
  asked : ∀ a ∈ task.attempts, a ≤ now
  spaced : task.Spaced
  hit : HitOf stored task.call.key task.began task.hit
  phase : PhaseOk scraper stored i task task.phase

structure SeriesInv (scraper : Bool) (acts : List (SeriesAction α)) (s : IntradayCache α) : Prop where
  cache : ∀ key, s.cache key =
    (s.stored.find? fun x => x.key = key).map fun x => (x.storedAt, x.series)
  ordered : s.stored.Pairwise fun newer older => older.storedAt ≤ newer.storedAt
  stored : ∀ x ∈ s.stored, x.storedAt ≤ s.clock ∧ x.series ≠ [] ∧
    .event x.task (.answered (some x.series)) x.storedAt ∈ acts ∧
      ∃ c t, .call x.task c t ∈ acts ∧ c.key = x.key
  called : ∀ i task, s.tasks i = some task → .call i task.call task.began ∈ acts
  task : ∀ i task, s.tasks i = some task → TaskInv scraper s.stored s.clock i task
  absent : ∀ i, s.tasks i = none → ∀ x ∈ s.stored, x.task ≠ i

variable {scraper : Bool} {stored : List (StoredSeries α)} {now t : ℚ} {i : ℕ} {key : String}
  {began : ℚ} {task task' : SeriesTask α} {x y : StoredSeries α}

theorem HitOf.store {hit : Option (ℚ × List α)} (h : HitOf stored key began hit)
    (hlater : began ≤ y.storedAt) : HitOf (y :: stored) key began hit := by
  cases hit with
  | none => exact NoneStored.store h hlater
  | some hit =>
    obtain ⟨x, hx, hrest⟩ := h
    exact ⟨x, hx.store hlater, hrest⟩

theorem TaskInv.later (h : TaskInv scraper stored now i task) (hle : now ≤ t) :
    TaskInv scraper stored t i task :=
  ⟨h.began.trans hle, fun a ha => (h.asked a ha).trans hle, h.spaced, h.hit, h.phase⟩

/-- **A call is not affected by what another one stores.** -/
theorem TaskInv.store (h : TaskInv scraper stored now i task) (hlater : now ≤ y.storedAt)
    (hother : y.task ≠ i) : TaskInv scraper (y :: stored) now i task where
  began := h.began
  asked := h.asked
  spaced := h.spaced
  hit := h.hit.store (h.began.trans hlater)
  phase := by
    have hphase := h.phase
    revert hphase
    cases task.phase with
    | controller => exact fun ⟨hstale, hnone, hown⟩ => ⟨hstale, hnone, others_store hown hother⟩
    | fetching attempt =>
      exact fun ⟨hstale, hscraper, hlast, hlen, hown⟩ =>
        ⟨hstale, hscraper, hlast, hlen, others_store hown hother⟩
    | resting attempt wakes =>
      exact fun ⟨hstale, hscraper, hlast, hlen, hown, hrest⟩ =>
        ⟨hstale, hscraper, hlast, hlen, others_store hown hother, hrest⟩
    | returned how r =>
      exact fun ⟨hstale, hexplained⟩ =>
        ⟨hstale, hexplained.store (h.began.trans hlater) hother⟩
    | raised => exact fun hstale => hstale

/-! ### The steps of a call -/

/-- A call that has made an attempt began with a series that was too old. -/
theorem TaskInv.stale (h : TaskInv scraper stored now i task) (hasked : task.attempts ≠ []) :
    Stale task := by
  have hphase := h.phase
  revert hphase
  cases task.phase with
  | controller => exact fun hphase => hphase.1
  | fetching attempt => exact fun hphase => hphase.1
  | resting attempt wakes => exact fun hphase => hphase.1
  | returned how r => exact fun hphase => hphase.1 hasked
  | raised => exact fun hphase => hphase hasked

theorem TaskInv.fetch {attempt : ℕ} (h : TaskInv scraper stored t i task) (hstale : Stale task)
    (hscraper : scraper = true) (hlast : attempt < 2) (hlen : task.attempts.length = attempt)
    (hown : ∀ x ∈ stored, x.task ≠ i) (hpause : ∀ a ∈ task.attempts, a + seriesPause ≤ t) :
    TaskInv scraper stored t i (task.fetch attempt t) where
  began := h.began
  asked a ha := by
    rcases List.mem_cons.mp ha with rfl | ha
    · exact le_refl _
    · exact h.asked a ha
  spaced := by
    refine ⟨?_, List.pairwise_cons.mpr ⟨hpause, h.spaced.2⟩⟩
    show task.attempts.length + 1 ≤ 2
    omega
  hit := h.hit
  phase := ⟨hstale, hscraper, hlast, congrArg (· + 1) hlen, hown⟩

theorem TaskInv.giveUp (h : TaskInv scraper stored t i task) (hstale : Stale task)
    (hlen : task.attempts.length = if scraper then 2 else 0) (hown : ∀ x ∈ stored, x.task ≠ i) :
    TaskInv scraper stored t i task.giveUp where
  began := h.began
  asked := h.asked
  spaced := h.spaced
  hit := h.hit
  phase := by
    refine ⟨fun _ => hstale, hown, hlen, ?_⟩
    have hhit := h.hit
    show (∃ x, Newest stored task.call.key task.began x ∧
      task.hit.map (·.2) = some x.series) ∨ _ ∧ task.hit.map (·.2) = none
    cases hcase : task.hit with
    | none =>
      rw [hcase] at hhit
      exact .inr ⟨hhit, rfl⟩
    | some hit =>
      rw [hcase] at hhit
      obtain ⟨x, hx, -, hseries⟩ := hhit
      exact .inl ⟨x, hx, congrArg some hseries.symm⟩

theorem TaskInv.next {attempt : ℕ} (h : TaskInv scraper stored t i task) (hstale : Stale task)
    (hscraper : scraper = true) (hlast : attempt < 2)
    (hlen : task.attempts.length = attempt + 1) (hown : ∀ x ∈ stored, x.task ≠ i)
    (hpause : attempt = 0 → ∀ a ∈ task.attempts, a + seriesPause ≤ t) :
    TaskInv scraper stored t i (task.next attempt t) := by
  unfold SeriesTask.next
  split
  · rename_i hagain
    exact h.fetch hstale hscraper hagain hlen hown (hpause (by omega))
  · refine h.giveUp hstale ?_ hown
    rw [hscraper, hlen, if_pos rfl]
    omega

/-- **A step that stores nothing keeps what is known of the call.** -/
theorem TaskInv.moves {event : SeriesEvent α} (h : TaskInv scraper stored t i task)
    (hm : task.Moves scraper t event task' none) : TaskInv scraper stored t i task' := by
  have hphase := h.phase
  cases hm with
  | ready hcase =>
    rw [hcase] at hphase
    obtain ⟨hstale, hnone, hown⟩ := hphase
    split
    · rename_i hscraper
      exact h.fetch hstale hscraper (by omega) (by rw [hnone]; rfl) hown (by simp [hnone])
    · rename_i hscraper
      exact h.giveUp hstale (by simp [hnone, hscraper]) hown
  | ends hreturned => exact ⟨h.began, h.asked, h.spaced, h.hit, fun hasked => h.stale hasked⟩
  | rests hcase =>
    rw [hcase] at hphase
    obtain ⟨hstale, hscraper, hlast, hlen, hown⟩ := hphase
    exact ⟨h.began, h.asked, h.spaced, h.hit, hstale, hscraper, hlast, hlen, hown,
      fun a ha => add_le_add (h.asked a ha) (le_refl _)⟩
  | empty hcase hsecond =>
    rw [hcase] at hphase
    obtain ⟨hstale, hscraper, hlast, hlen, hown⟩ := hphase
    exact h.next hstale hscraper hlast hlen hown fun hfirst => absurd hfirst hsecond
  | wakes hcase hdue =>
    rw [hcase] at hphase
    obtain ⟨hstale, hscraper, hlast, hlen, hown, hrest⟩ := hphase
    exact h.next hstale hscraper hlast hlen hown fun _ a ha => (hrest a ha).trans hdue

/-- The step that stores a series: it is the call's own. -/
theorem TaskInv.fetched {attempt : ℕ} {l : List α} (h : TaskInv scraper stored t i task)
    (hcase : task.phase = .fetching attempt) :
    TaskInv scraper (⟨i, task.call.key, t, l⟩ :: stored) t i
      { task with phase := .returned .fetched (some l) } := by
  have hphase := h.phase
  rw [hcase] at hphase
  exact ⟨h.began, h.asked, h.spaced, h.hit.store h.began, fun _ => hphase.1,
    ⟨i, task.call.key, t, l⟩, List.mem_cons_self, rfl, rfl, h.began, rfl⟩

theorem TaskInv.needed (h : TaskInv scraper stored now i task) : task.Needed stored := by
  intro hasked y hy hkey
  have hstale := h.stale hasked
  have hhit := h.hit
  revert hstale hhit
  unfold Stale
  cases task.hit with
  | none => exact fun _ hnone => .inl (hnone y hy hkey)
  | some hit =>
    rintro hstale ⟨x, hx, hat, -⟩
    have hold : intradayTtl ≤ task.began - hit.1 := hstale hit rfl
    refine (hx.newest y hy hkey).symm.imp (fun hlater => hlater) fun hle => ?_
    linarith

/-! ### The start of a call -/

/-- **What a call sees is the newest series of its key.** -/
theorem SeriesInv.hitOf {acts : List (SeriesAction α)} {s : IntradayCache α}
    (h : SeriesInv scraper acts s) (hle : s.clock ≤ t) (key : String) :
    HitOf s.stored key t (s.cache key) := by
  rw [h.cache key]
  cases hfind : s.stored.find? fun x => x.key = key with
  | none =>
    intro y hy hkey
    exact absurd (decide_eq_true hkey) (by simpa using List.find?_eq_none.mp hfind y hy)
  | some x =>
    obtain ⟨hx, newer, older, hsplit, hbefore⟩ := List.find?_eq_some_iff_append.mp hfind
    have hmem : x ∈ s.stored := by
      rw [hsplit]
      exact List.mem_append_right _ List.mem_cons_self
    refine ⟨x, ⟨hmem, of_decide_eq_true hx, (h.stored x hmem).1.trans hle, ?_⟩, rfl, rfl⟩
    intro y hy hkey
    have hordered := h.ordered
    rw [hsplit] at hy hordered
    rcases List.mem_append.mp hy with hy | hy
    · exact absurd (decide_eq_true hkey) (by simpa using hbefore y hy)
    · rcases List.mem_cons.mp hy with rfl | hy
      · exact .inl (le_refl _)
      · exact .inl (List.rel_of_pairwise_cons (List.pairwise_append.mp hordered).2.1 hy)

theorem TaskInv.start {c : SeriesCall} {hit : Option (ℚ × List α)}
    (hhit : HitOf stored c.key t hit) (hfilled : ∀ x ∈ stored, x.series ≠ [])
    (hown : ∀ x ∈ stored, x.task ≠ i) : TaskInv scraper stored t i (c.start hit t) where
  began := le_refl _
  asked a ha := by cases ha
  spaced := ⟨Nat.zero_le _, .nil⟩
  hit := hhit
  phase := by
    cases hit with
    | none => exact ⟨nofun, rfl, hown⟩
    | some hit =>
      obtain ⟨x, hx, hat, hseries⟩ := hhit
      have hne : hit.2.isEmpty = false := by
        rw [← hseries]
        exact List.isEmpty_eq_false_iff.mpr (hfilled x hx.mem)
      show PhaseOk scraper stored i _ (ite _ _ _)
      split
      · rename_i hyoung
        exact ⟨fun hasked => absurd rfl hasked, rfl, x, hx, by rw [hat]; exact hyoung.1,
          congrArg some hseries.symm⟩
      · rename_i hold
        refine ⟨fun hit' hsame => ?_, rfl, hown⟩
        cases hsame
        exact not_lt.mp fun hyoung => hold ⟨hyoung, hne⟩

/-! ### The steps of all calls -/

variable {acts : List (SeriesAction α)} {s s' : IntradayCache α} {settings : ProviderSettings}

theorem seriesInv_init (now : ℚ) :
    SeriesInv scraper [] ({ clock := now } : IntradayCache α) where
  cache _ := rfl
  ordered := .nil
  stored x hx := by cases hx
  called i task h := by cases h
  task i task h := by cases h
  absent _ _ x hx := by cases hx

/-- A later action leaves a record of what was stored. -/
theorem SeriesInv.recorded (h : SeriesInv scraper acts s) (a : SeriesAction α) (hle : s.clock ≤ t) :
    ∀ x ∈ s.stored, x.storedAt ≤ t ∧ x.series ≠ [] ∧
      .event x.task (.answered (some x.series)) x.storedAt ∈ acts ++ [a] ∧
        ∃ c t, .call x.task c t ∈ acts ++ [a] ∧ c.key = x.key := by
  intro x hx
  obtain ⟨hat, hfilled, hanswer, c, t₀, hcall, hkey⟩ := h.stored x hx
  exact ⟨hat.trans hle, hfilled, List.mem_append_left _ hanswer, c, t₀,
    List.mem_append_left _ hcall, hkey⟩

/-- **One call takes a step, and nothing is stored.** -/
theorem SeriesInv.setTask (h : SeriesInv scraper acts s) (a : SeriesAction α) (hle : s.clock ≤ t)
    (htask : TaskInv scraper s.stored t i task)
    (hcalled : .call i task.call task.began ∈ acts ++ [a]) :
    SeriesInv scraper (acts ++ [a]) (s.setTask i t task) where
  cache := h.cache
  ordered := h.ordered
  stored := h.recorded a hle
  called j task' hj := by
    rcases eq_or_ne j i with rfl | hne
    · have hj : Function.update s.tasks j (some task) j = some task' := hj
      rw [Function.update_self] at hj
      cases hj
      exact hcalled
    · have hj : Function.update s.tasks i (some task) j = some task' := hj
      rw [Function.update_of_ne hne] at hj
      exact List.mem_append_left _ (h.called j task' hj)
  task j task' hj := by
    rcases eq_or_ne j i with rfl | hne
    · have hj : Function.update s.tasks j (some task) j = some task' := hj
      rw [Function.update_self] at hj
      cases hj
      exact htask
    · have hj : Function.update s.tasks i (some task) j = some task' := hj
      rw [Function.update_of_ne hne] at hj
      exact (h.task j task' hj).later hle
  absent j hj := by
    have hj : Function.update s.tasks i (some task) j = none := hj
    rcases eq_or_ne j i with rfl | hne
    · rw [Function.update_self] at hj
      cases hj
    · rw [Function.update_of_ne hne] at hj
      exact h.absent j hj

/-- **One call stores a series.** -/
theorem SeriesInv.store {attempt : ℕ} {l : List α} (h : SeriesInv scraper acts s) (hle : s.clock ≤ t)
    (hi : s.tasks i = some task) (hcase : task.phase = .fetching attempt) (hl : l ≠ []) :
    SeriesInv scraper (acts ++ [.event i (.answered (some l)) t])
      ((s.setTask i t { task with phase := .returned .fetched (some l) }).store i task.call.key t l) where
  cache key := by
    show Function.update s.cache task.call.key (some (t, l)) key = _
    by_cases hkey : key = task.call.key
    · subst hkey
      rw [Function.update_self]
      show _ = (List.find? _ (_ :: s.stored)).map _
      rw [List.find?_cons_of_pos (by simp)]
      rfl
    · rw [Function.update_of_ne hkey, h.cache key]
      show _ = (List.find? _ (_ :: s.stored)).map _
      rw [List.find?_cons_of_neg]
      simpa using fun he => hkey he.symm
  ordered := List.pairwise_cons.mpr ⟨fun x hx => (h.stored x hx).1.trans hle, h.ordered⟩
  stored x hx := by
    rcases List.mem_cons.mp hx with rfl | hx
    · exact ⟨le_refl _, hl, List.mem_append_right _ (List.mem_singleton_self _), task.call, task.began,
        List.mem_append_left _ (h.called i task hi), rfl⟩
    · exact h.recorded _ hle x hx
  called j task' hj := by
    rcases eq_or_ne j i with rfl | hne
    · have hj : Function.update s.tasks j (some _) j = some task' := hj
      rw [Function.update_self] at hj
      cases hj
      exact List.mem_append_left _ (h.called j task hi)
    · have hj : Function.update s.tasks i (some _) j = some task' := hj
      rw [Function.update_of_ne hne] at hj
      exact List.mem_append_left _ (h.called j task' hj)
  task j task' hj := by
    rcases eq_or_ne j i with rfl | hne
    · have hj : Function.update s.tasks j (some _) j = some task' := hj
      rw [Function.update_self] at hj
      cases hj
      exact ((h.task j task hi).later hle).fetched hcase
    · have hj : Function.update s.tasks i (some _) j = some task' := hj
      rw [Function.update_of_ne hne] at hj
      exact ((h.task j task' hj).later hle).store (le_refl _) (Ne.symm hne)
  absent j hj := by
    have hj : Function.update s.tasks i (some _) j = none := hj
    rcases eq_or_ne j i with rfl | hne
    · rw [Function.update_self] at hj
      cases hj
    · rw [Function.update_of_ne hne] at hj
      exact others_store (h.absent j hj) (Ne.symm hne)

theorem SeriesTask.Moves.same {event : SeriesEvent α} {out : Option (List α)}
    (hm : task.Moves scraper t event task' out) :
    task'.call = task.call ∧ task'.began = task.began := by
  cases hm with
  | ready h => split <;> exact ⟨rfl, rfl⟩
  | ends h => exact ⟨rfl, rfl⟩
  | fetched h hl => exact ⟨rfl, rfl⟩
  | rests h => exact ⟨rfl, rfl⟩
  | empty h hlast =>
    unfold SeriesTask.next
    split <;> exact ⟨rfl, rfl⟩
  | wakes h hdue =>
    unfold SeriesTask.next
    split <;> exact ⟨rfl, rfl⟩

/-- **Every step keeps the invariant.** -/
theorem step_seriesInv {a : SeriesAction α} (h : SeriesInv (hasBseScraper settings) acts s)
    (hs : s.step settings a = some s') : SeriesInv (hasBseScraper settings) (acts ++ [a]) s' := by
  cases a with
  | call i c t =>
    simp only [step] at hs
    split at hs
    · rename_i hi
      obtain ⟨hle, hs⟩ := Option.ite_none_right_eq_some.mp hs
      cases hs
      exact h.setTask _ hle
        (.start (h.hitOf hle c.key) (fun x hx => (h.stored x hx).2.1) (h.absent i hi))
        (List.mem_append_right _ (List.mem_singleton_self _))
    · cases hs
  | event i event t =>
    simp only [step] at hs
    split at hs
    · rename_i task hi
      obtain ⟨hle, hs⟩ := Option.ite_none_right_eq_some.mp hs
      split at hs
      · rename_i task' hm
        cases hs
        have hmoves := SeriesTask.move_moves hm
        obtain ⟨hcall, hbegan⟩ := SeriesTask.Moves.same hmoves
        refine h.setTask _ hle (((h.task i task hi).later hle).moves hmoves) ?_
        rw [hcall, hbegan]
        exact List.mem_append_left _ (h.called i task hi)
      · rename_i task' l hm
        cases hs
        cases SeriesTask.move_moves hm with
        | fetched hcase hl => exact h.store hle hi hcase hl
      · cases hs
    · cases hs

theorem run_seriesInv (hr : run (step settings) { clock := now } acts = some s) :
    SeriesInv (hasBseScraper settings) acts s :=
  run_invariant_history (fun _ _ _ _ h hs => step_seriesInv h hs) (seriesInv_init now) hr

end Invariant

end IntradayCache

/-! ## 5. Any interleaving -/

/-- What follows the last separator is told by the whole. -/
theorem append_separator {β : Type u} {sep : β} {a b f g : List β} (hf : sep ∉ f) (hg : sep ∉ g)
    (h : a ++ sep :: f = b ++ sep :: g) : a = b ∧ f = g := by
  rcases List.append_eq_append_iff.mp h with ⟨c, hb, hc⟩ | ⟨c, ha, hc⟩
  · cases c with
    | nil => exact ⟨by rw [hb, List.append_nil], (List.cons.inj hc).2⟩
    | cons x c =>
      have hrest : f = c ++ sep :: g := (List.cons.inj hc).2
      exact absurd (hrest ▸ List.mem_append_right c List.mem_cons_self) hf
  · cases c with
    | nil => exact ⟨by rw [ha, List.append_nil], (List.cons.inj hc).2.symm⟩
    | cons x c =>
      have hrest : g = c ++ sep :: f := (List.cons.inj hc).2
      exact absurd (hrest ▸ List.mem_append_right c List.mem_cons_self) hg

/-- Where neither flag has a colon, a key tells the stock and the flag. -/
theorem SeriesCall.key_parts {c d : SeriesCall} (hc : ':' ∉ c.flag.toList)
    (hd : ':' ∉ d.flag.toList) (h : c.key = d.key) :
    upper (canonicalSymbol c.symbol) = upper (canonicalSymbol d.symbol) ∧ c.flag = d.flag := by
  have hlist := congrArg String.toList h
  simp only [SeriesCall.key, String.toList_append, List.append_assoc] at hlist
  obtain ⟨hsymbol, hflag⟩ := append_separator hc hd hlist
  exact ⟨String.toList_injective hsymbol, String.toList_injective hflag⟩

namespace IntradayCache

/-- **The curve that a call returns.** For any interleaving of calls, answers, failures and
    cancellations: each series that has been stored is one that the scraper answered to a call of the
    same key, so of the same stock where no flag has a colon, and is not empty. Each call makes at
    most two attempts, the second 0.4 seconds or more after the first, and none if a series of its key
    was stored less than 45 seconds before it began. What it returns is the newest series of that time
    if it is young, otherwise what it fetched itself, and after two failures the series of that time,
    even if another call has stored a newer one meanwhile. -/
theorem intraday_series_answers {α : Type u} {settings : ProviderSettings} {now : ℚ}
    {acts : List (SeriesAction α)} {s : IntradayCache α}
    (hr : run (step settings) { clock := now } acts = some s) :
    (∀ x ∈ s.stored, x.series ≠ [] ∧
      .event x.task (.answered (some x.series)) x.storedAt ∈ acts ∧
        ∃ c t, .call x.task c t ∈ acts ∧ c.key = x.key ∧
          ∀ d : SeriesCall, d.key = x.key → ':' ∉ c.flag.toList → ':' ∉ d.flag.toList →
            upper (canonicalSymbol c.symbol) = upper (canonicalSymbol d.symbol) ∧ c.flag = d.flag) ∧
    ∀ i task, s.tasks i = some task →
      .call i task.call task.began ∈ acts ∧ task.Spaced ∧ task.Needed s.stored ∧
        ∀ how r, task.phase = .returned how r →
          task.Explained s.stored (hasBseScraper settings) i how r := by
  have hinv := run_seriesInv hr
  refine ⟨fun x hx => ?_, fun i task hi => ?_⟩
  · obtain ⟨-, hfilled, hanswer, c, t, hcall, hkey⟩ := hinv.stored x hx
    exact ⟨hfilled, hanswer, c, t, hcall, hkey,
      fun d hd hc hflag => SeriesCall.key_parts hc hflag (hkey.trans hd.symm)⟩
  · have htask := hinv.task i task hi
    refine ⟨hinv.called i task hi, htask.spaced, htask.needed, fun how r hphase => ?_⟩
    have hok := htask.phase
    rw [hphase] at hok
    exact hok.2

/-- A series of SBIN is stored at 1. At 60 two calls find it too old; the second gets a newer one at
    61, the first two empty answers. -/
def sbinSeries : List (SeriesAction ℕ) :=
  [.call 0 { symbol := "SBIN" } 0, .event 0 .ready 0, .event 0 (.answered (some [812])) 1,
    .call 1 { symbol := "SBIN" } 60, .event 1 .ready 60, .call 2 { symbol := "sbin " } 60,
    .event 2 .ready 60, .event 1 (.answered none) 61, .event 2 (.answered (some [812, 815])) 61,
    .event 1 .woke 62, .event 1 (.answered (some [])) 63]

/-- What the call `i` has returned. -/
def returned {α : Type u} (s : IntradayCache α) (i : ℕ) : Option (SeriesEnding × Option (List α)) :=
  match (s.tasks i).map (·.phase) with
  | some (SeriesPhase.returned how r) => some (how, r)
  | _ => none

theorem intraday_series_answers_overtaken : ∃ s : IntradayCache ℕ,
    run (step {}) { clock := 0 } sbinSeries = some s ∧
      s.returned 2 = some (.fetched, some [812, 815]) ∧
        s.returned 1 = some (.fallback, some [812]) ∧
          ∀ i task, s.tasks i = some task → ∀ how r, task.phase = .returned how r →
            task.Explained s.stored (hasBseScraper {}) i how r := by
  have hrun : (run (step {}) { clock := 0 } sbinSeries).map (fun s => (s.returned 2, s.returned 1)) =
      some (some (.fetched, some [812, 815]), some (.fallback, some [812])) := by
    decide +kernel
  obtain ⟨s, hs, hreturned⟩ := Option.map_eq_some_iff.mp hrun
  obtain ⟨hsecond, hfirst⟩ := Prod.mk.inj hreturned
  exact ⟨s, hs, hsecond, hfirst, fun i task hi =>
    ((intraday_series_answers hs).2 i task hi).2.2.2⟩

end IntradayCache

end BharatTicker
