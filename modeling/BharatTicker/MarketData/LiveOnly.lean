/-
  File:      BharatTicker/MarketData/LiveOnly.lean
  Subject:   WHOSE TICKS ENTER THE LIVE TAPE. `exclude_delayed` bars the delayed feeds; the archives
             are not delayed, and off session nothing is barred.

  * `isArchive`, `isLive` -- end-of-day archives, and the providers whose ticks are live;
  * `Feeds` -- the first provider to answer a call, its tick being one that the engine takes;
  * `FreshFirst` -- at this step no archive (off session: and no delayed feed) is about to feed;
  * `step_live` -- one step; `live_only_iff` -- whole runs;
  * `archive_feeds_tape` -- the runs that record an archive and a delayed feed.
-/
import BharatTicker.Failover.Cascade
import BharatTicker.MarketData

namespace BharatTicker

open Basis LiveFeed

/-! ## 1. Live providers -/

/-- The end-of-day archives. -/
def isArchive (p : Provider) : Bool := p.name = "nse_archive" || p.name = "bse_archive"

def isLive (p : Provider) : Bool := !p.delayed && !isArchive p

/-- Asked with `req`, the first provider to answer is `p`; its tick is kept, and the engine takes
    the sample. -/
def Feeds (cfg : BreakerConfig) (live : LiveSettings) (s : LiveFeed) (c : LiveCall)
    (req : QuoteRequest) (keep : TickData → Bool) (p : Provider) : Prop :=
  ∃ t, FirstAnswer cfg req c.env s.failover s.failover.providers p t ∧ keep t = true ∧
    s.engine.taken live (c.recordCall t) ≠ none

/-- No archive is about to feed the tape; off session, no delayed provider either. -/
def FreshFirst (cfg : BreakerConfig) (live : LiveSettings) (s : LiveFeed) : Action → Prop
  | .sampleOnce c | .recordLoopTurn c =>
    ∀ p, Feeds cfg live s c (throughRequest c.symbol c.exchange none true true) (fun _ => true) p →
      isArchive p = false
  | .doLiveFetch c _ =>
    ∀ p, Feeds cfg live s c (throughRequest c.symbol c.exchange none true false) (sameVenue c) p →
      isArchive p = false
  | .retryOffSession c =>
    ∀ p, Feeds cfg live s c (throughRequest c.symbol c.exchange none false false) (sameVenue c) p →
      isArchive p = false ∧ p.delayed = false
  | .elsewhere .. => True

section Live

variable {cfg : BreakerConfig} {live : LiveSettings} {s s' : LiveFeed} {c : LiveCall}
  {req : QuoteRequest} {keep : TickData → Bool} {p : Provider}

theorem isLive_iff : isLive p = true ↔ isArchive p = false ∧ p.delayed = false := by
  unfold isLive
  cases p.delayed <;> cases isArchive p <;> simp

/-- A request that excludes delayed feeds, without a forced source, is not answered by one. -/
theorem feeds_not_delayed {symbol exchange : String} {pin : Bool}
    (h : Feeds cfg live s c (throughRequest symbol exchange none true pin) keep p) :
    p.delayed = false := by
  obtain ⟨t, ⟨pre, post, -, ha, -⟩, -⟩ := h
  simpa [barredDelayed, throughRequest, QuoteRequest.forced?] using ha.live

theorem feeds_isLive {symbol exchange : String} {pin : Bool}
    (h : Feeds cfg live s c (throughRequest symbol exchange none true pin) keep p) :
    isLive p = true ↔ isArchive p = false := by
  rw [isLive_iff]
  exact and_iff_left (feeds_not_delayed h)

/-! ## 2. One step -/

/-- The tape is fed by live providers, which are registered under distinct names. -/
structure LiveTape (s : LiveFeed) : Prop where
  distinct : (s.failover.providers.map (·.name)).Nodup
  live : ∀ e ∈ s.appended, isLive e.1 = true

/-- What a call appends is live exactly when the provider that feeds it is. -/
theorem fed_live (hnd : (s.failover.providers.map (·.name)).Nodup) :
    (∀ e ∈ fed live s c keep (fetchQuote cfg req c.env s.failover).answer, isLive e.1 = true) ↔
      ∀ p, Feeds cfg live s c req keep p → isLive p = true := by
  have hfirst : ∀ p t, FirstAnswer cfg req c.env s.failover s.failover.providers p t ↔
      (fetchQuote cfg req c.env s.failover).answer = some (p, t) := fun p t =>
    (cascade_answer_iff hnd).symm
  cases ha : (fetchQuote cfg req c.env s.failover).answer with
  | none =>
    refine ⟨?_, fun _ e he => by cases he⟩
    intro _ p hex
    obtain ⟨t, ht, -⟩ := hex
    rw [hfirst, ha] at ht
    cases ht
  | some r =>
    obtain ⟨p, t⟩ := r
    constructor
    · intro h q hex
      obtain ⟨t', ht, hk, hx⟩ := hex
      rw [hfirst, ha] at ht
      cases ht
      obtain ⟨x, hx⟩ := Option.ne_none_iff_exists'.mp hx
      exact h (p, x) (by simp [fed, hk, hx])
    · intro h e he
      have he' : keep t = true ∧ ∃ x, s.engine.taken live (c.recordCall t) = some x ∧ (p, x) = e := by
        simpa [fed] using he
      obtain ⟨hk, x, hx, rfl⟩ := he'
      exact h p ⟨t, (hfirst p t).mpr ha, hk, by simp [hx]⟩

/-- The providers of the feed do not change. -/
theorem step_providers {a : Action} (h : step cfg live s a = some s') :
    s'.failover.providers = s.failover.providers := by
  have hsw : ∀ (req : QuoteRequest) (env : String → Attempt),
      (fetchQuote cfg req env s.failover).controller.providers = s.failover.providers :=
    fun req env => (cascade_switches cfg req env _ _ _).1
  have hsample : ∀ c, (sampleOnce cfg live c s).2.failover.providers = s.failover.providers := by
    intro c
    unfold sampleOnce getQuoteThrough
    dsimp only
    split <;> exact hsw _ _
  cases a with
  | sampleOnce c =>
    cases h
    exact hsample c
  | recordLoopTurn c =>
    cases h
    rw [recordLoopTurn_eq]
    exact hsample c
  | doLiveFetch c marketOpen =>
    cases h
    unfold doLiveFetch getQuoteThrough
    dsimp only
    split <;> split <;> exact hsw _ _
  | retryOffSession c =>
    obtain ⟨-, h⟩ := Option.ite_none_right_eq_some.mp h
    cases h
    unfold retryOffSession getQuoteThrough
    dsimp only
    split <;> [split; skip] <;> exact hsw _ _
  | elsewhere eng en cb co =>
    cases h
    rfl

/-- **One step** keeps the tape live exactly when no archive, and off session no delayed feed, is
    the first to answer with a tick that is taken. -/
theorem step_live {a : Action} (h : step cfg live s a = some s') :
    LiveTape s' ↔ LiveTape s ∧ FreshFirst cfg live s a := by
  have hpr := step_providers h
  by_cases hnd : (s.failover.providers.map (·.name)).Nodup
  · have hto {l : List (Provider × Sample)} {P : Prop} (hl : s'.appended = s.appended ++ l)
        (hP : (∀ e ∈ l, isLive e.1 = true) ↔ P) : LiveTape s' ↔ LiveTape s ∧ P := by
      rw [← hP]
      constructor
      · intro ht
        have hall := ht.live
        rw [hl] at hall
        exact ⟨⟨hnd, (List.forall_mem_append.mp hall).1⟩, (List.forall_mem_append.mp hall).2⟩
      · intro hex
        obtain ⟨ht, hall⟩ := hex
        refine ⟨hpr ▸ hnd, ?_⟩
        rw [hl]
        exact List.forall_mem_append.mpr ⟨ht.live, hall⟩
    -- where delayed feeds are excluded, not live means an archive
    have hex {c : LiveCall} {pin : Bool} {keep : TickData → Bool} :
        (∀ p, Feeds cfg live s c (throughRequest c.symbol c.exchange none true pin) keep p →
          isLive p = true) ↔
        ∀ p, Feeds cfg live s c (throughRequest c.symbol c.exchange none true pin) keep p →
          isArchive p = false :=
      forall_congr' fun p => forall_congr' fun hf => feeds_isLive hf
    cases a with
    | sampleOnce c =>
      cases h
      exact hto sampleOnce_appended ((fed_live hnd).trans hex)
    | recordLoopTurn c =>
      cases h
      refine hto ?_ ((fed_live hnd).trans hex)
      rw [recordLoopTurn_eq]
      exact sampleOnce_appended
    | doLiveFetch c marketOpen =>
      cases h
      exact hto doLiveFetch_appended ((fed_live hnd).trans hex)
    | retryOffSession c =>
      obtain ⟨-, h⟩ := Option.ite_none_right_eq_some.mp h
      cases h
      exact hto retryOffSession_appended ((fed_live hnd).trans
        (forall_congr' fun p => imp_congr_right fun _ => isLive_iff))
    | elsewhere eng en cb co =>
      cases h
      exact hto (List.append_nil _).symm ⟨fun _ => trivial, fun _ e he => by cases he⟩
  · exact ⟨fun hl => absurd (hpr ▸ hl.distinct) hnd, fun hl => absurd hl.1.distinct hnd⟩

/-! ## 3. Runs -/

/-- **Only live data enters the tape** in exactly those runs in which, whenever the tape is fed, the
    first provider to answer is no archive, and off session no delayed feed either. -/
theorem live_only_iff (cfg : BreakerConfig) (live : LiveSettings) (fc : FailoverController)
    (eng : LiveCandleEngine) (hnd : (fc.providers.map (·.name)).Nodup) (actions : List Action)
    (s : LiveFeed) (hr : run (step cfg live) ⟨fc, eng, [], []⟩ actions = some s) :
    (∀ e ∈ s.appended, isLive e.1 = true) ↔
      StepsMeet (step cfg live) (FreshFirst cfg live) ⟨fc, eng, [], []⟩ actions := by
  have h0 : LiveTape ⟨fc, eng, [], []⟩ := ⟨hnd, fun e he => by cases he⟩
  have hmeet := run_iff_meet (I := LiveTape) (fun s a s' h => step_live h) hr
  constructor
  · intro h
    have hnd' : (s.failover.providers.map (·.name)).Nodup := by
      refine run_invariant (I := fun s => (s.failover.providers.map (·.name)).Nodup) ?_ hnd hr
      intro s₁ a s₂ hs h
      rwa [step_providers h]
    exact (hmeet.mp ⟨hnd', h⟩).2
  · exact fun h => (hmeet.mpr ⟨h0, h⟩).live

end Live

/-! ## 4. What feeds the tape else -/

/-- The providers in `down` raise `ProviderError`, the others answer, Yahoo for NSE. -/
def quotes (down : List String) (name : String) : Attempt where
  checkedAt := 0
  startedAt := 0
  fetch :=
    if name ∈ down then .providerError ⟨name, "HTTP 503"⟩
    else if name ∈ ["bse_scraper", "bse_live", "bse_archive"] then
      .tick ⟨"RELIANCE", .BSE, 2451, 900, name⟩
    else .tick ⟨"RELIANCE", .NSE, 2450, 1000, name⟩
  endedAt := 0

def relianceCall (down : List String) : LiveCall := ⟨"RELIANCE", "NSE", quotes down, 100⟩

/-- Everything but Yahoo. -/
def exchangesDown : List String :=
  ["groww", "nse_live", "nse_archive", "bse_scraper", "bse_live", "bse_archive"]

/-- With the first relay down the second one feeds the tape. -/
theorem live_only_iff_relay :
    StepsMeet (step (.ofArgs {}) {}) (FreshFirst (.ofArgs {}) {}) ⟨controller {}, {}, [], []⟩
      [.sampleOnce (relianceCall ["groww"])] :=
  (live_only_iff (.ofArgs {}) {} (controller {}) {} (controller_distinct {}) _ _ rfl).mp
    (by decide)

/-- **The archive feeds the tape.** With both live relays of the NSE down `sample_once` records the
    last traded day of the archive, at any time of day; and off session, with both exchanges down,
    `_do_live_fetch` records the delayed feed. -/
theorem archive_feeds_tape :
    (∃ s, run (step (.ofArgs {}) {}) ⟨controller {}, {}, [], []⟩
        [.sampleOnce (relianceCall ["groww", "nse_live"])] = some s ∧
      s.appended.map (fun e => (e.1.name, isLive e.1)) = [("nse_archive", false)] ∧
      (s.engine.samples "NSE:RELIANCE").map (·.source) = [some "nse_archive"]) ∧
    (∃ s, run (step (.ofArgs {}) {}) ⟨controller {}, {}, [], []⟩
        [.doLiveFetch (relianceCall exchangesDown) false,
          .retryOffSession (relianceCall exchangesDown)] = some s ∧
      s.appended.map (fun e => (e.1.name, isLive e.1)) = [("yahoo_finance", false)] ∧
      (s.engine.samples "NSE:RELIANCE").map (·.source) = [some "yahoo_finance"]) :=
  ⟨⟨_, rfl, by decide, by decide⟩, ⟨_, rfl, by decide, by decide⟩⟩

end BharatTicker
