/-
  File:      BharatTicker/SbCandles/OwnVenue.lean
  Subject:   THE VENUE BEHIND A LIVE QUOTE. `_do_live_fetch` asks for a symbol without pinning the
             exchange: the first provider to answer is taken, of whichever venue.

  The single flight of one key is run over the cascades that answer it. Each fetch meets providers,
  breakers and outcomes of its own.

  * `AllTicks`, `allTicks_step` -- whatever the single flight hands on was an answer;
  * `FetchTry`, `VenueQuotes`, `vstep` -- the single flight over the cascade;
  * `SomeOwn`, `OwnFirst`, `ownFirst_iff` -- providers of the venue, and which of them is first;
  * `ServedOwn` -- the quote of a caller, and the live bar that is made of it;
  * `own_venue_iff` -- all runs; `other_venue_served` -- a BSE request that NSE answers.
-/
import BharatTicker.Failover.Cascade
import BharatTicker.LiveQuote.SingleFlight
import BharatTicker.MarketData.LiveOnly
import BharatTicker.SbCandles

namespace BharatTicker

open Basis

/-! ## 1. What the single flight hands on -/

namespace LiveQuotes

/-- Every tick in the cache, of a task that is done, or returned to a caller. -/
structure AllTicks (P : TickData → Prop) (s : LiveQuotes) : Prop where
  cached : ∀ ts t, s.cache = some (ts, t) → P t
  settled : ∀ id t, s.flights.outcome? id = some (.tick t) → P t
  returned : ∀ c t, (s.callers c).status = .returned (.tick t) → P t

section Ticks

variable {P : TickData → Prop} {ttl : ℚ} {s s' : LiveQuotes} {id c : ℕ} {caller : Caller}

theorem AllTicks.setCaller (h : AllTicks P s) (hc : ∀ t, caller.status = .returned (.tick t) → P t) :
    AllTicks P (s.setCaller c caller) := by
  refine ⟨h.cached, h.settled, fun n t ht => ?_⟩
  by_cases e : n = c
  · subst e
    rw [setCaller_callers_self] at ht
    exact hc t ht
  · rw [setCaller_callers_of_ne e] at ht
    exact h.returned n t ht

theorem AllTicks.set (h : AllTicks P s) {f : Basis.Flight FetchPhase QuoteOutcome} {slot : Option ℕ}
    {fresh : ℕ} (hf : ∀ t r, f = .settled (.tick t) r → P t) :
    AllTicks P { s with flights := { s.flights.set id f with slot := slot, fresh := fresh } } := by
  refine ⟨h.cached, fun n t ht => ?_, h.returned⟩
  have ht : (s.flights.set id f).outcome? n = some (.tick t) := ht
  by_cases e : n = id
  · subst e
    cases f with
    | pending phase => simp [Flights.outcome?] at ht
    | settled o r =>
      rw [Flights.outcome?_settled (Flights.set_flight_self ..)] at ht
      cases ht
      exact hf t r rfl
  · unfold Flights.outcome? at ht
    rw [Flights.set_flight_of_ne e] at ht
    exact h.settled n t ht

theorem AllTicks.pending (h : AllTicks P s) (phase : FetchPhase) :
    AllTicks P { s with flights := s.flights.advance id phase } :=
  h.set fun t r e => by cases e

theorem AllTicks.settle (h : AllTicks P s) {o : QuoteOutcome} (ho : ∀ t, o = .tick t → P t) :
    AllTicks P { s with flights := s.flights.settle id o } :=
  h.set fun t r e => by
    cases e
    exact ho t rfl

theorem AllTicks.await (h : AllTicks P s) (hst : caller.status = awaitTask s.flights id) :
    AllTicks P (s.setCaller c caller) := by
  refine h.setCaller fun t ht => ?_
  rw [hst] at ht
  unfold awaitTask at ht
  split at ht
  · rename_i o ho
    cases ht
    exact h.settled id t ho
  · cases ht

theorem allTicks_liveQuote {now : ℚ} (h : AllTicks P s) : AllTicks P (liveQuote ttl c now s) := by
  unfold liveQuote
  dsimp only
  split
  · rename_i t hh
    obtain ⟨ts, hcache, -⟩ := hit?_eq_some hh
    refine h.setCaller fun t' e => ?_
    cases e
    exact h.cached ts t hcache
  · split
    · exact h.await rfl
    · have hlaunch : AllTicks P { s with flights := s.flights.launch { stage := .scheduled } } :=
        h.set fun t r e => by cases e
      exact hlaunch.await rfl

theorem allTicks_answered {answer : Except String (Option TickData)} {marketOpen : Bool} {now : ℚ}
    (h : AllTicks P s) (hs : answered id answer marketOpen now s = some s')
    (hP : ∀ t, answer = .ok (some t) → P t) : AllTicks P s' := by
  unfold answered at hs
  split at hs
  · split at hs
    · cases hs
    · cases answer with
      | error m =>
        cases hs
        exact h.settle fun t e => by cases e
      | ok tick =>
        dsimp only at hs
        split at hs
        · cases hs
          exact h.pending _
        · cases hs
          cases tick with
          | none => exact h.settle fun t e => by cases e
          | some t =>
            have hsettle : AllTicks P { s with flights := s.flights.settle id (.tick t) } :=
              h.settle fun t' e => by
                cases e
                exact hP t rfl
            refine ⟨fun ts t' e => ?_, hsettle.settled, h.returned⟩
            cases e
            exact hP t rfl
  · cases hs

theorem allTicks_callback (h : AllTicks P s) (hs : callback id s = some s') : AllTicks P s' := by
  unfold callback at hs
  split at hs
  · rename_i o hf
    cases hs
    refine h.set fun t r e => ?_
    cases e
    exact h.settled id t (Flights.outcome?_settled hf)
  · cases hs

/-- A caller returns what its task came to, or that it was cancelled. -/
theorem allTicks_resume (h : AllTicks P s) (hs : resume c s = some s') : AllTicks P s' := by
  unfold resume at hs
  split at hs
  · rename_i id hst
    obtain ⟨o, ho, rfl⟩ := Option.map_eq_some_iff.mp hs
    refine h.setCaller fun t e => ?_
    dsimp only at e
    split at e
    · cases e
    · cases e
      exact h.settled id t ho
  · cases hs

theorem allTicks_cancel (h : AllTicks P s) (hs : cancel c s = some s') : AllTicks P s' := by
  unfold cancel at hs
  split at hs
  · have hmark : AllTicks P (s.setCaller c { s.callers c with cancelled := true }) :=
      h.setCaller fun t e => h.returned c t e
    dsimp only at hs
    split at hs
    · cases hs
      exact hmark.pending _
    · cases hs
      exact hmark
  · cases hs

/-- **Whatever is handed on was an answer.** -/
theorem allTicks_step {a : Action} (h : AllTicks P s) (hs : step ttl s a = some s')
    (hP : ∀ id t marketOpen now, a = .answered id (.ok (some t)) marketOpen now → P t) :
    AllTicks P s' := by
  cases a with
  | call c now =>
    obtain ⟨-, e⟩ := Option.ite_none_right_eq_some.mp hs
    cases e
    exact allTicks_liveQuote h
  | startFetch id =>
    simp only [step, startFetch] at hs
    split at hs
    · cases hs
      exact h.pending _
    · cases hs
  | answered id answer marketOpen now =>
    refine allTicks_answered h hs fun t e => ?_
    subst e
    exact hP id t marketOpen now rfl
  | callback id => exact allTicks_callback h hs
  | resume c => exact allTicks_resume h hs
  | cancel c => exact allTicks_cancel h hs
  | throwIn id =>
    simp only [step, throwIn] at hs
    split at hs
    · cases hs
      exact h.settle fun t e => by cases e
    · cases hs

end Ticks

end LiveQuotes

/-! ## 2. The single flight over the cascade -/

def Exchange.venue : Exchange → Venue
  | .NSE => .NSE
  | .BSE => .BSE

/-- What a `get_quote_through` meets: the controller, and what its providers do. -/
structure FetchTry where
  symbol : String
  controller : FailoverController
  distinct : (controller.providers.map (·.name)).Nodup
  env : String → Attempt

/-- An answer: what was asked, what the fetch met, and whose tick was returned. -/
structure VenueAnswer where
  request : QuoteRequest
  fetch : FetchTry
  provider : Provider
  tick : TickData

/-- The single flight of one key; a ghost: the answers. -/
structure VenueQuotes where
  quotes : LiveQuotes := {}
  answers : List VenueAnswer := []

inductive VenueAction where
  /-- A `get_quote_through` of the task returns. -/
  | fetched (id : ℕ) (fetch : FetchTry) (marketOpen : Bool) (now : ℚ)
  /-- It raises: there is no controller. -/
  | raised (id : ℕ) (message : String) (now : ℚ)
  /-- Any other step of callers and tasks. -/
  | other (a : LiveQuotes.Action)

namespace VenueQuotes

variable (cfg : BreakerConfig) (ttl : ℚ) (E : Exchange)

/-- `exclude_delayed`: not in the second fetch of a task, off session. -/
def excludesDelayed (s : VenueQuotes) (id : ℕ) : Bool :=
  match s.quotes.flights.flight id with
  | some (.pending ⟨.fetchingOffSession, _⟩) => false
  | _ => true

/-- What `_do_live_fetch` asks for. -/
def request (s : VenueQuotes) (id : ℕ) (fetch : FetchTry) : QuoteRequest :=
  throughRequest fetch.symbol E.str none (s.excludesDelayed id) false

/-- The answer that a fetch of the task gets. -/
def answerOf (s : VenueQuotes) (id : ℕ) (fetch : FetchTry) : Option (Provider × TickData) :=
  (getQuoteThrough cfg fetch.symbol E.str none (s.excludesDelayed id) false fetch.env
    fetch.controller).answer

def vstep (s : VenueQuotes) : VenueAction → Option VenueQuotes
  | .fetched id fetch marketOpen now =>
    let answer := s.answerOf cfg E id fetch
    (LiveQuotes.step ttl s.quotes (.answered id (.ok (answer.map Prod.snd)) marketOpen now)).map
      fun q => ⟨q, s.answers ++
        (answer.map fun x => ⟨s.request E id fetch, fetch, x.1, x.2⟩).toList⟩
  | .raised id message now =>
    (LiveQuotes.step ttl s.quotes (.answered id (.error message) true now)).map
      fun q => { s with quotes := q }
  | .other (.answered ..) => none
  | .other a => (LiveQuotes.step ttl s.quotes a).map fun q => { s with quotes := q }

/-! ## 3. Law and condition -/

/-- The provider would answer this request. -/
def WouldAnswer (req : QuoteRequest) (fetch : FetchTry) (p : Provider) : Prop :=
  ∃ t, Answers cfg req fetch.controller (fetch.env p.name) p t

/-- Some provider of the venue, not delayed, would answer. -/
def SomeOwn (req : QuoteRequest) (fetch : FetchTry) : Prop :=
  ∃ w ∈ fetch.controller.providers, w.exchange = E.venue ∧ w.delayed = false ∧
    WouldAnswer cfg req fetch w

/-- **The condition.** Before each provider of another venue that would answer stands, in the order of
    the cascade, one of the venue that would. -/
def OwnFirst (req : QuoteRequest) (fetch : FetchTry) : Prop :=
  ∀ pre p post, fetch.controller.providers = pre ++ p :: post → p.exchange ≠ E.venue →
    WouldAnswer cfg req fetch p → ∃ w ∈ pre, w.exchange = E.venue ∧ WouldAnswer cfg req fetch w

/-- The condition, of each fetch that a provider of the venue would answer. -/
def FetchesOwnFirst (s : VenueQuotes) : VenueAction → Prop
  | .fetched id fetch _ _ =>
    SomeOwn cfg E (s.request E id fetch) fetch → OwnFirst cfg E (s.request E id fetch) fetch
  | _ => True

/-- The answers of fetches that a provider of the venue would answer come from one. -/
def AnswersOwn (s : VenueQuotes) : Prop :=
  ∀ x ∈ s.answers, SomeOwn cfg E x.request x.fetch → x.provider.exchange = E.venue

/-- The tick is that of an answer, and of such ones only. -/
def Own (s : VenueQuotes) (t : TickData) : Prop :=
  (∃ x ∈ s.answers, x.tick = t) ∧
    ∀ x ∈ s.answers, x.tick = t → SomeOwn cfg E x.request x.fetch → x.provider.exchange = E.venue

/-- What the caller has returned, as a tick with the range of its day. -/
def QuoteOf (s : VenueQuotes) (c : ℕ) (quote : Option DayTick) : Prop :=
  ∀ tick, quote = some tick → (s.quotes.callers c).status = .returned (.tick tick.toTickData)

/-- **The law.** Every quote returned, and every live bar that `sb_candles` makes of one, is of the
    venue. -/
structure ServedOwn (s : VenueQuotes) : Prop where
  quote : ∀ c t, (s.quotes.callers c).status = .returned (.tick t) → s.Own cfg E t
  liveBar : ∀ c quote, s.QuoteOf c quote → ∀ yf call marketOpen now r,
    sbCandles yf call marketOpen quote now = .ok r → r.liveLastBar = true →
      ∃ tick, s.Own cfg E tick.toTickData ∧ r.candles.getLast? = some (todayBar tick now)

/-! ## 4. One fetch -/

section Step

variable {cfg : BreakerConfig} {ttl : ℚ} {E : Exchange} {s s' : VenueQuotes} {req : QuoteRequest}
  {fetch : FetchTry} {id : ℕ}

theorem answerOf_eq_some {p : Provider} {t : TickData} : s.answerOf cfg E id fetch = some (p, t) ↔
    FirstAnswer cfg (s.request E id fetch) fetch.env fetch.controller fetch.controller.providers p t :=
  cascade_answer_iff fetch.distinct

/-- Of two places in a list, one is before the other. -/
theorem mem_pre_of_split {α : Type*} {pre post pre' post' : List α} {p q : α}
    (h : pre ++ p :: post = pre' ++ q :: post') (hq : q ∉ pre) (hne : q ≠ p) : p ∈ pre' := by
  rcases List.append_eq_append_iff.mp h with ⟨l, rfl, hl⟩ | ⟨l, rfl, hl⟩
  · cases l with
    | nil => exact absurd (List.cons.inj hl).1.symm hne
    | cons x l =>
      rw [(List.cons.inj hl).1]
      exact List.mem_append_right _ List.mem_cons_self
  · cases l with
    | nil => exact absurd (List.cons.inj hl).1 hne
    | cons x l =>
      rw [(List.cons.inj hl).1] at hq
      exact absurd (List.mem_append_right _ List.mem_cons_self) hq

/-- **The first to answer is of the venue exactly under the condition**, where one of the venue
    would answer. -/
theorem ownFirst_iff (h : SomeOwn cfg E req fetch) :
    (∀ p t, FirstAnswer cfg req fetch.env fetch.controller fetch.controller.providers p t →
      p.exchange = E.venue) ↔ OwnFirst cfg E req fetch := by
  constructor
  · intro hown pre p post hsplit hvenue hp
    obtain ⟨w, hw, -, -, hanswers⟩ := h
    obtain ⟨pre', first, post', hsplit', ⟨t, ht⟩, hpre⟩ :=
      exists_first (P := WouldAnswer cfg req fetch) ⟨w, hw, hanswers⟩
    have hfirst : first.exchange = E.venue :=
      hown first t ⟨pre', post', hsplit', ht, fun q hq t' h' => hpre q hq ⟨t', h'⟩⟩
    refine ⟨first, ?_, hfirst, t, ht⟩
    refine mem_pre_of_split (hsplit'.symm.trans hsplit) (fun hmem => hpre p hmem hp) ?_
    rintro rfl
    exact hvenue hfirst
  · intro hown p t hfirst
    obtain ⟨pre, post, hsplit, hp, hpre⟩ := hfirst
    by_contra hvenue
    obtain ⟨w, hw, -, t', ht'⟩ := hown pre p post hsplit hvenue ⟨t, hp⟩
    exact hpre w hw t' ht'

/-- What a step adds to the answers. -/
theorem vstep_answers {a : VenueAction} (hs : vstep cfg ttl E s a = some s') :
    (∃ id fetch marketOpen now, a = .fetched id fetch marketOpen now ∧
      LiveQuotes.step ttl s.quotes (.answered id
        (.ok ((s.answerOf cfg E id fetch).map Prod.snd)) marketOpen now) = some s'.quotes ∧
      s'.answers = s.answers ++ ((s.answerOf cfg E id fetch).map fun x =>
        ⟨s.request E id fetch, fetch, x.1, x.2⟩).toList) ∨
    ((∀ id fetch marketOpen now, a ≠ .fetched id fetch marketOpen now) ∧
      s'.answers = s.answers ∧ ∃ b, LiveQuotes.step ttl s.quotes b = some s'.quotes ∧
        ∀ id t marketOpen now, b ≠ .answered id (.ok (some t)) marketOpen now) := by
  cases a with
  | fetched id fetch marketOpen now =>
    obtain ⟨q, hq, rfl⟩ := Option.map_eq_some_iff.mp hs
    exact .inl ⟨id, fetch, marketOpen, now, rfl, hq, rfl⟩
  | raised id message now =>
    obtain ⟨q, hq, rfl⟩ := Option.map_eq_some_iff.mp hs
    exact .inr ⟨by simp, rfl, _, hq, by simp⟩
  | other b =>
    refine .inr ⟨by simp, ?_⟩
    cases b with
    | answered id answer marketOpen now => cases hs
    | call c now =>
      obtain ⟨q, hq, rfl⟩ := Option.map_eq_some_iff.mp hs
      exact ⟨rfl, _, hq, by simp⟩
    | startFetch id =>
      obtain ⟨q, hq, rfl⟩ := Option.map_eq_some_iff.mp hs
      exact ⟨rfl, _, hq, by simp⟩
    | callback id =>
      obtain ⟨q, hq, rfl⟩ := Option.map_eq_some_iff.mp hs
      exact ⟨rfl, _, hq, by simp⟩
    | resume c =>
      obtain ⟨q, hq, rfl⟩ := Option.map_eq_some_iff.mp hs
      exact ⟨rfl, _, hq, by simp⟩
    | cancel c =>
      obtain ⟨q, hq, rfl⟩ := Option.map_eq_some_iff.mp hs
      exact ⟨rfl, _, hq, by simp⟩
    | throwIn id =>
      obtain ⟨q, hq, rfl⟩ := Option.map_eq_some_iff.mp hs
      exact ⟨rfl, _, hq, by simp⟩

/-- The ticks of the single flight are those of the answers. -/
def Answered (s : VenueQuotes) : Prop := s.quotes.AllTicks fun t => ∃ x ∈ s.answers, x.tick = t

theorem answered_vstep {a : VenueAction} (h : Answered s) (hs : vstep cfg ttl E s a = some s') :
    Answered s' := by
  have hmono : ∀ {l l' : List VenueAnswer}, l ⊆ l' → ∀ {q : LiveQuotes},
      (q.AllTicks fun t => ∃ x ∈ l, x.tick = t) → q.AllTicks fun t => ∃ x ∈ l', x.tick = t := by
    intro l l' hsub q hq
    have hex : ∀ t, (∃ x ∈ l, x.tick = t) → ∃ x ∈ l', x.tick = t := fun t hx => by
      obtain ⟨x, hx, ht⟩ := hx
      exact ⟨x, hsub hx, ht⟩
    exact ⟨fun ts t e => hex t (hq.cached ts t e), fun id t e => hex t (hq.settled id t e),
      fun c t e => hex t (hq.returned c t e)⟩
  unfold Answered
  rcases vstep_answers hs with ⟨id, fetch, marketOpen, now, -, hstep, hanswers⟩ |
    ⟨-, hanswers, b, hstep, hb⟩
  · rw [hanswers]
    refine LiveQuotes.allTicks_step (hmono (List.subset_append_left _ _) h) hstep ?_
    intro id' t open' now' e
    simp only [LiveQuotes.Action.answered.injEq, Except.ok.injEq] at e
    obtain ⟨x, hx, rfl⟩ := Option.map_eq_some_iff.mp e.2.1
    rw [hx]
    exact ⟨_, List.mem_append_right _ (List.mem_singleton_self _), rfl⟩
  · rw [hanswers]
    exact LiveQuotes.allTicks_step h hstep fun id t marketOpen now e => absurd e (hb id t marketOpen now)

/-- **A step keeps the answers of the venue exactly under the condition.** -/
theorem answersOwn_vstep_iff {a : VenueAction} (h : AnswersOwn cfg E s)
    (hs : vstep cfg ttl E s a = some s') : AnswersOwn cfg E s' ↔ FetchesOwnFirst cfg E s a := by
  unfold AnswersOwn
  rcases vstep_answers hs with ⟨id, fetch, marketOpen, now, rfl, -, hanswers⟩ | ⟨hother, hanswers, -⟩
  · rw [hanswers]
    constructor
    · intro hown hsome
      refine (ownFirst_iff hsome).mp fun p t hfirst => ?_
      have hanswer := answerOf_eq_some.2 hfirst
      refine hown ⟨s.request E id fetch, fetch, p, t⟩ (List.mem_append_right _ ?_) hsome
      rw [hanswer]
      exact List.mem_singleton_self _
    · intro hfirst x hx hsome
      rcases List.mem_append.mp hx with hx | hx
      · exact h x hx hsome
      · obtain ⟨y, hy, rfl⟩ := Option.map_eq_some_iff.mp (Option.mem_toList.mp hx)
        exact (ownFirst_iff hsome).mpr (hfirst hsome) y.1 y.2 (answerOf_eq_some.1 hy)
  · rw [hanswers]
    refine iff_of_true h ?_
    cases a with
    | fetched id fetch marketOpen now => exact absurd rfl (hother id fetch marketOpen now)
    | raised id message now => trivial
    | other b => trivial

/-- What is served is an answer, and what is put into the series is what was served. -/
theorem served_of_answers (h : Answered s) (hown : AnswersOwn cfg E s) : ServedOwn cfg E s := by
  have hquote : ∀ c t, (s.quotes.callers c).status = .returned (.tick t) → s.Own cfg E t :=
    fun c t ht => ⟨h.returned c t ht, fun x hx _ hsome => hown x hx hsome⟩
  refine ⟨hquote, fun c quote hof yf call marketOpen now r hr hlive => ?_⟩
  obtain ⟨tick, hquoted, hlast, -⟩ := sbCandles_last hr hlive
  exact ⟨tick, hquote c tick.toTickData (hof tick hquoted), hlast⟩

end Step

/-! ## 5. All runs -/

/-- **Live quotes and live bars are of the venue they are asked for in every run** whose fetches,
    where a live provider of the venue would answer, meet none of another venue before it; and the
    ticks that are fetched are in exactly those. -/
theorem own_venue_iff (cfg : BreakerConfig) (ttl : ℚ) (E : Exchange) (actions : List VenueAction)
    (s : VenueQuotes) (hr : run (vstep cfg ttl E) {} actions = some s) :
    (StepsMeet (vstep cfg ttl E) (FetchesOwnFirst cfg E) {} actions →
      Always (vstep cfg ttl E) (ServedOwn cfg E) {} actions) ∧
    (Always (vstep cfg ttl E) (AnswersOwn cfg E) {} actions ↔
      StepsMeet (vstep cfg ttl E) (FetchesOwnFirst cfg E) {} actions) := by
  have h0 : AnswersOwn cfg E {} := by
    intro x hx
    cases hx
  have hanswered : Answered {} :=
    ⟨(by intro _ _ h; cases h), (by intro _ _ h; cases h), (by intro _ _ h; cases h)⟩
  have hiff : Always (vstep cfg ttl E) (AnswersOwn cfg E) {} actions ↔
      StepsMeet (vstep cfg ttl E) (FetchesOwnFirst cfg E) {} actions := by
    rw [always_iff_meet (J := fun _ => True) (fun _ _ _ _ _ => trivial)
      (fun _ _ _ _ h hs => answersOwn_vstep_iff h hs) trivial hr]
    exact and_iff_right h0
  refine ⟨fun hfirst => ?_, hiff⟩
  refine always_iff.2 fun pre hpre s' hs' => served_of_answers ?_ ?_
  · exact run_invariant (fun _ _ _ h hs => answered_vstep h hs) hanswered hs'
  · exact always_iff.1 (hiff.mpr hfirst) pre hpre s' hs'

/-- All providers of the service, each of them answering. -/
def allAnswer : FetchTry where
  symbol := "RELIANCE"
  controller := controller {}
  distinct := controller_distinct {}
  env := BharatTicker.quotes []

/-- One caller, its fetch in market hours. -/
def oneQuote : List VenueAction :=
  [.other (.call 0 0), .other (.startFetch 0), .fetched 0 allAnswer true 1, .other (.callback 0),
    .other (.resume 0)]

theorem allAnswer_first (E : Exchange) :
    (getQuoteThrough (.ofArgs {}) "RELIANCE" E.str none true false (BharatTicker.quotes [])
      (controller {})).answer =
      some (growwProvider, ⟨"RELIANCE", .NSE, 2450, 1000, "groww"⟩) := by
  cases E <;> decide

/-- The fetch of the one caller excludes delayed feeds. -/
theorem oneQuote_excludes {E : Exchange}
    (h : run (vstep (.ofArgs {}) 1 E) {} (oneQuote.take 2) = some s) : s.excludesDelayed 0 = true := by
  have hrun : ((run (vstep (.ofArgs {}) 1 E) {} (oneQuote.take 2)).map fun s =>
      s.excludesDelayed 0) = some true := by
    cases E <;> decide
  rw [h] at hrun
  exact Option.some.inj hrun

theorem oneQuote_answer {E : Exchange}
    (h : run (vstep (.ofArgs {}) 1 E) {} (oneQuote.take 2) = some s) :
    s.answerOf (.ofArgs {}) E 0 allAnswer =
      some (growwProvider, ⟨"RELIANCE", .NSE, 2450, 1000, "groww"⟩) := by
  unfold answerOf
  rw [oneQuote_excludes h]
  exact allAnswer_first E

/-- The one answer of the run. -/
theorem oneQuote_answers {E : Exchange} (h : run (vstep (.ofArgs {}) 1 E) {} oneQuote = some s) :
    ⟨throughRequest "RELIANCE" E.str none true false, allAnswer, growwProvider,
      ⟨"RELIANCE", .NSE, 2450, 1000, "groww"⟩⟩ ∈ s.answers := by
  obtain ⟨s₁, h₁, h⟩ := run_cons.1 h
  obtain ⟨s₂, h₂, h⟩ := run_cons.1 h
  obtain ⟨s₃, h₃, h⟩ := run_cons.1 h
  obtain ⟨s₄, h₄, h⟩ := run_cons.1 h
  obtain ⟨s₅, h₅, h⟩ := run_cons.1 h
  cases h
  have hstart : run (vstep (.ofArgs {}) 1 E) {} (oneQuote.take 2) = some s₂ :=
    run_cons.2 ⟨s₁, h₁, run_cons.2 ⟨s₂, h₂, rfl⟩⟩
  rcases vstep_answers h₃ with ⟨_, _, _, _, e, -, hanswers⟩ | ⟨hother, -⟩
  · cases e
    have hkeep : ∀ {s s' : VenueQuotes} {b : LiveQuotes.Action},
        vstep (.ofArgs {}) 1 E s (.other b) = some s' → s'.answers = s.answers := by
      intro s s' b hb
      rcases vstep_answers hb with ⟨_, _, _, _, e, -⟩ | ⟨-, hanswers, -⟩
      · cases e
      · exact hanswers
    rw [hkeep h₅, hkeep h₄, hanswers, oneQuote_answer hstart]
    refine List.mem_append_right _ (List.mem_singleton.mpr ?_)
    unfold request
    rw [oneQuote_excludes hstart]
    rfl
  · exact absurd rfl (hother 0 allAnswer true 1)

theorem own_venue_nse : ∃ s, run (vstep (.ofArgs {}) 1 .NSE) {} oneQuote = some s ∧
    Always (vstep (.ofArgs {}) 1 .NSE) (ServedOwn (.ofArgs {}) .NSE) {} oneQuote := by
  have hrun : ((run (vstep (.ofArgs {}) 1 .NSE) {} oneQuote).map fun s => s.answers.length) =
      some 1 := by
    decide
  obtain ⟨s, hs, -⟩ := Option.map_eq_some_iff.mp hrun
  refine ⟨s, hs, (own_venue_iff (.ofArgs {}) 1 .NSE oneQuote s hs).1 ⟨trivial, fun s₁ h₁ =>
    ⟨trivial, fun s₂ h₂ => ⟨fun hsome => ?_, fun _ _ => ⟨trivial, fun _ _ => ⟨trivial,
      fun _ _ => trivial⟩⟩⟩⟩⟩⟩
  have hstart : run (vstep (.ofArgs {}) 1 .NSE) {} (oneQuote.take 2) = some s₂ :=
    run_cons.2 ⟨s₁, h₁, run_cons.2 ⟨s₂, h₂, rfl⟩⟩
  refine (ownFirst_iff hsome).mp fun p t hfirst => ?_
  have hanswer := answerOf_eq_some.2 hfirst
  rw [oneQuote_answer hstart] at hanswer
  cases hanswer
  rfl

/-- **An NSE quote for a BSE request**: a live provider of the BSE would answer, and Groww is asked
    before it. -/
theorem other_venue_served : ∃ s, run (vstep (.ofArgs {}) 1 .BSE) {} oneQuote = some s ∧
    (s.quotes.callers 0).status = .returned (.tick ⟨"RELIANCE", .NSE, 2450, 1000, "groww"⟩) ∧
      ¬ Always (vstep (.ofArgs {}) 1 .BSE) (ServedOwn (.ofArgs {}) .BSE) {} oneQuote := by
  have hrun : ((run (vstep (.ofArgs {}) 1 .BSE) {} oneQuote).map fun s =>
      (s.quotes.callers 0).status) =
        some (.returned (.tick ⟨"RELIANCE", .NSE, 2450, 1000, "groww"⟩)) := by
    decide
  obtain ⟨s, hs, hreturned⟩ := Option.map_eq_some_iff.mp hrun
  refine ⟨s, hs, hreturned, fun h => ?_⟩
  have hserved : ServedOwn (.ofArgs {}) .BSE s := always_iff.1 h oneQuote List.prefix_rfl s hs
  have hsome : SomeOwn (.ofArgs {}) .BSE (throughRequest "RELIANCE" "BSE" none true false)
      allAnswer := by
    refine ⟨bseScraper, by decide, rfl, rfl, ⟨"RELIANCE", .BSE, 2451, 900, "bse_scraper"⟩, ?_⟩
    exact ⟨by decide, by decide, by decide, by decide,
      by decide, .inr rfl, by decide⟩
  have hvenue := (hserved.quote 0 _ hreturned).2 _ (oneQuote_answers hs) rfl hsome
  cases hvenue

end VenueQuotes

end BharatTicker
