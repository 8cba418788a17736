/-
  File:      BharatTicker/SbQuotes/Freshness.lean
  Subject:   HOW OLD THE NUMBERS OF A BULK QUOTE ARE.

  Price, high and low of a bulk quote are those of one answer of a feed. It may have come a while
  ago: a tick is cached for the lifetime of `_live_q_cache`, and a warm quote, which may be made of
  such a tick, for that of `_warm_cache`. So each quote is traced to the action in which the feed
  gave its numbers, over all sequences of requests, warm refreshes and live quotes.

  * `AnsweredBy`, `TickWithin`, `QuotedWithin` -- an answer, and how long ago it may have come;
  * `CacheInv` -- the ticks and the warm quotes are answers of their time;
  * `Sourced` -- what is kept while the quotes of a request are put together;
  * `served_quote_age` -- the result, with what it means for a symbol to be reported as failed.
-/
import BharatTicker.SbQuotes

namespace BharatTicker

open Basis

namespace QuotesState

/-! ## 1. Answers -/

/-- The numbers of the quote are those that a feed answers: in a row of the batch feed, which is of
    NSE, or in a tick. -/
def AnsweredBy (up : Upstream) (e : Exchange) (symbol : String) (q : SbQuote) : Prop :=
  (e = .NSE ∧ ∃ row, (up.rows symbol = some row ∨ up.rows (upper symbol) = some row) ∧
    q.price = row.price ∧ q.high = row.high ∧ q.low = row.low) ∨
  ∃ s tick, upper s = upper symbol ∧ up.live e s = some tick ∧
    q.price = some tick.ltp ∧ q.high = some tick.high ∧ q.low = some tick.low

/-- An action of now, or of less than `age` ago. -/
def Within (now age : ℚ) (a : QuotesAction × ℚ) : Prop :=
  a.2 ≤ now ∧ (a.2 = now ∨ now - a.2 < age)

/-- The live feed answered the tick for the key. -/
def TickWithin (acts : List (QuotesAction × ℚ)) (e : Exchange) (key : String) (tick : LiveTick)
    (now age : ℚ) : Prop :=
  ∃ a ∈ acts, Within now age a ∧ ∃ s, upper s = key ∧ a.1.upstream.live e s = some tick

/-- A feed answered the numbers of the quote. -/
def QuotedWithin (acts : List (QuotesAction × ℚ)) (e : Exchange) (symbol : String) (q : SbQuote)
    (now age : ℚ) : Prop :=
  ∃ a ∈ acts, Within now age a ∧ AnsweredBy a.1.upstream e symbol q

/-- **How old a quote may be**: within the lifetime of a cached tick; where warm quotes may be taken,
    within that of a warm quote on top, and then of NSE. -/
def Fresh (cfg : QuoteSettings) (acts : List (QuotesAction × ℚ)) (e : Exchange) (warm : Prop)
    (now : ℚ) (symbol : String) (q : SbQuote) : Prop :=
  QuotedWithin acts e symbol q now cfg.liveTtl ∨
    warm ∧ QuotedWithin acts .NSE symbol q now (max cfg.liveTtl 0 + cfg.warmTtl)

/-- The same price, high and low. -/
def SameNumbers (q q' : SbQuote) : Prop :=
  q'.price = q.price ∧ q'.high = q.high ∧ q'.low = q.low

section Answers

variable {cfg : QuoteSettings} {acts acts' : List (QuotesAction × ℚ)} {up : Upstream} {e : Exchange}
  {now now' age : ℚ} {symbol key : String} {q q' : SbQuote} {tick : LiveTick} {warm : Prop}

theorem AnsweredBy.same (h : AnsweredBy up e symbol q) (hsame : SameNumbers q q') :
    AnsweredBy up e symbol q' := by
  unfold AnsweredBy at h ⊢
  rwa [hsame.1, hsame.2.1, hsame.2.2]

theorem QuotedWithin.same (h : QuotedWithin acts e symbol q now age) (hsame : SameNumbers q q') :
    QuotedWithin acts e symbol q' now age := by
  obtain ⟨a, ha, hwithin, hby⟩ := h
  exact ⟨a, ha, hwithin, hby.same hsame⟩

theorem Fresh.same (h : Fresh cfg acts e warm now symbol q) (hsame : SameNumbers q q') :
    Fresh cfg acts e warm now symbol q' :=
  h.imp (fun h => h.same hsame) (fun h => ⟨h.1, h.2.same hsame⟩)

theorem QuotedWithin.mono (h : QuotedWithin acts e symbol q now age) (hsub : acts ⊆ acts') :
    QuotedWithin acts' e symbol q now age := by
  obtain ⟨a, ha, hrest⟩ := h
  exact ⟨a, hsub ha, hrest⟩

/-- The quote of a tick is as old as the tick. -/
theorem TickWithin.quoted (h : TickWithin acts e (upper symbol) tick now age)
    (hprice : q.price = some tick.ltp) (hhigh : q.high = some tick.high)
    (hlow : q.low = some tick.low) : QuotedWithin acts e symbol q now age := by
  obtain ⟨a, ha, hwithin, s, hs, hlive⟩ := h
  exact ⟨a, ha, hwithin, .inr ⟨s, tick, hs, hlive, hprice, hhigh, hlow⟩⟩

/-- What was within the lifetime of a tick when it was put into a cache of its own lifetime. -/
theorem Within.chain {a : QuotesAction × ℚ} (h : Within now age a) (hle : now ≤ now') {ttl : ℚ}
    (hfresh : now' - now < ttl) : Within now' (max age 0 + ttl) a := by
  obtain ⟨hat, hage⟩ := h
  refine ⟨hat.trans hle, .inr ?_⟩
  have hzero : (0 : ℚ) ≤ max age 0 := le_max_right _ _
  have hmax : age ≤ max age 0 := le_max_left _ _
  rcases hage with rfl | hage
  · linarith
  · linarith

end Answers

/-! ## 2. The caches -/

/-- A cached tick was answered when it was cached, and a warm quote was within the lifetime of a tick
    when it was put there. -/
structure CacheInv (cfg : QuoteSettings) (acts : List (QuotesAction × ℚ)) (now : ℚ)
    (st : QuotesState) : Prop where
  live : ∀ e key hit, st.liveCache e key = some hit → hit.1 ≤ now ∧
    ∃ a ∈ acts, a.2 = hit.1 ∧ ∃ s, upper s = key ∧ a.1.upstream.live e s = some hit.2
  warm : ∀ symbol hit, st.warm symbol = some hit → hit.1 ≤ now ∧
    QuotedWithin acts .NSE symbol hit.2 hit.1 cfg.liveTtl

/-- The action of now is among the actions. -/
def Asked (acts : List (QuotesAction × ℚ)) (up : Upstream) (now : ℚ) : Prop :=
  ∃ a ∈ acts, a.1.upstream = up ∧ a.2 = now

/-- What is kept while the quotes of a request are put together: the caches, and what is known of
    the quotes that there are. -/
structure Sourced (cfg : QuoteSettings) (acts : List (QuotesAction × ℚ)) (e : Exchange)
    (warm : Prop) (now : ℚ) (acc : QuoteMap × QuotesState) : Prop where
  caches : CacheInv cfg acts now acc.2
  fresh : ∀ s q, acc.1 s = some q → Fresh cfg acts e warm now s q

section Functions

variable {cfg : QuoteSettings} {acts acts' : List (QuotesAction × ℚ)} {up : Upstream} {e : Exchange}
  {now now' : ℚ} {symbol : String} {warm : Prop} {st : QuotesState} {acc : QuoteMap × QuotesState}

theorem CacheInv.later (h : CacheInv cfg acts now st) (hsub : acts ⊆ acts') (hle : now ≤ now') :
    CacheInv cfg acts' now' st where
  live e key hit hhit := by
    obtain ⟨hat, a, ha, hrest⟩ := h.live e key hit hhit
    exact ⟨hat.trans hle, a, hsub ha, hrest⟩
  warm symbol hit hhit := by
    obtain ⟨hat, hquoted⟩ := h.warm symbol hit hhit
    exact ⟨hat.trans hle, hquoted.mono hsub⟩

theorem cacheInv_init (cfg : QuoteSettings) (t₀ : ℚ) : CacheInv cfg [] t₀ { now := t₀ } :=
  ⟨fun _ _ _ h => (by cases h), fun _ _ h => (by cases h)⟩

/-- The caches alone count. -/
theorem CacheInv.congr {st' : QuotesState} (h : CacheInv cfg acts now st)
    (hlive : st'.liveCache = st.liveCache) (hwarm : st'.warm = st.warm) :
    CacheInv cfg acts now st' :=
  ⟨by rw [hlive]; exact h.live, by rw [hwarm]; exact h.warm⟩

theorem Sourced.set (h : Sourced cfg acts e warm now acc) {q : SbQuote} {st' : QuotesState}
    (hcaches : CacheInv cfg acts now st') (hq : Fresh cfg acts e warm now symbol q) :
    Sourced cfg acts e warm now (Function.update acc.1 symbol (some q), st') := by
  refine ⟨hcaches, fun s q' hs => ?_⟩
  rcases update_eq_some hs with ⟨rfl, rfl⟩ | ⟨-, hs⟩
  · exact hq
  · exact h.fresh s q' hs

/-! ### The live quote -/

/-- **A tick that is answered is of now or of less than the lifetime of a cached tick ago.** -/
theorem liveQuote_sourced (e : Exchange) (symbol : String) (h : CacheInv cfg acts now st)
    (hask : Asked acts up now) :
    CacheInv cfg acts now (st.liveQuote cfg up e now symbol).2 ∧
      ∀ tick, (st.liveQuote cfg up e now symbol).1 = some tick →
        TickWithin acts e (upper symbol) tick now cfg.liveTtl := by
  unfold liveQuote
  cases hhit : st.liveHit cfg e now symbol with
  | some hit =>
    obtain ⟨hcached, hage⟩ := Option.filter_eq_some_iff.mp hhit
    obtain ⟨hat, a, ha, hsame, hanswer⟩ := h.live e (upper symbol) hit hcached
    refine ⟨h, fun tick htick => ?_⟩
    cases htick
    have hage : now - hit.1 < cfg.liveTtl := of_decide_eq_true hage
    exact ⟨a, ha, ⟨hsame.le.trans hat, .inr (hsame ▸ hage)⟩, hanswer⟩
  | none =>
    cases hlive : up.live e symbol with
    | none => exact ⟨h, fun tick htick => by cases htick⟩
    | some tick =>
      obtain ⟨a, ha, hup, hnow⟩ := hask
      refine ⟨⟨fun e' key hit hcached => ?_, h.warm⟩, fun tick' htick => ?_⟩
      · dsimp only at hcached
        by_cases he : e' = e
        · subst he
          rw [Function.update_self] at hcached
          by_cases hkey : key = upper symbol
          · subst hkey
            rw [Function.update_self] at hcached
            cases hcached
            exact ⟨le_refl _, a, ha, hnow, symbol, rfl, by rw [hup, hlive]⟩
          · rw [Function.update_of_ne hkey] at hcached
            exact h.live e' key hit hcached
        · rw [Function.update_of_ne he] at hcached
          exact h.live e' key hit hcached
      · cases htick
        exact ⟨a, ha, ⟨hnow.le, .inl hnow⟩, symbol, rfl, by rw [hup, hlive]⟩

/-- A symbol without a tick is one that the feed has none for now. -/
theorem liveQuote_none (h : (st.liveQuote cfg up e now symbol).1 = none) :
    up.live e symbol = none := by
  unfold liveQuote at h
  cases hhit : st.liveHit cfg e now symbol with
  | some hit =>
    rw [hhit] at h
    cases h
  | none =>
    rw [hhit] at h
    cases hlive : up.live e symbol with
    | none => rfl
    | some tick =>
      rw [hlive] at h
      cases h

/-! ### The batch -/

theorem fastRow_answered {rich : Bool} {row : TtRow} (hask : Asked acts up now)
    (hrow : fastRow up e rich symbol = some row) {info : Option QuoteMeta} :
    QuotedWithin acts e symbol (sbQuoteFromTt info symbol row) now cfg.liveTtl := by
  obtain ⟨a, ha, hup, hnow⟩ := hask
  obtain ⟨⟨he, -⟩, hrow⟩ := Option.ite_none_right_eq_some.mp hrow
  obtain ⟨hrow, -⟩ := Option.filter_eq_some_iff.mp hrow
  refine ⟨a, ha, ⟨hnow.le, .inl hnow⟩, .inl ⟨he, row, ?_, rfl, rfl, rfl⟩⟩
  rw [hup]
  rcases hfirst : up.rows symbol with _ | row'
  · rw [hfirst] at hrow
    exact .inr hrow
  · rw [hfirst] at hrow
    exact .inl hrow

theorem batchOne_sourced (rich : Bool) (h : Sourced cfg acts e warm now acc)
    (hask : Asked acts up now) :
    Sourced cfg acts e warm now (batchOne cfg up e now rich acc symbol) := by
  obtain ⟨hcaches, htick⟩ := liveQuote_sourced e symbol h.caches hask
  rcases batchOne_cases cfg up e now rich acc symbol with ⟨row, hrow, hone⟩ |
    ⟨-, tick, hlive, hone⟩ | ⟨-, -, hone⟩
  · rw [hone]
    exact h.set h.caches (.inl (fastRow_answered hask hrow))
  · rw [hone]
    exact h.set hcaches (.inl ((htick tick hlive).quoted rfl rfl rfl))
  · rw [hone]
    exact ⟨hcaches, h.fresh⟩

theorem batchQuotes_sourced (rich : Bool) (symbols : List String)
    (h : Sourced cfg acts e warm now acc) (hask : Asked acts up now) :
    Sourced cfg acts e warm now (batchQuotes cfg up e now rich symbols acc) := by
  induction symbols generalizing acc with
  | nil => exact h
  | cons symbol symbols ih => exact ih (batchOne_sourced rich h hask)

/-- A symbol without a quote after one has been set. -/
theorem update_eq_none {quotes : QuoteMap} {s : String} {q : SbQuote}
    (h : Function.update quotes symbol (some q) s = none) : s ≠ symbol ∧ quotes s = none := by
  by_cases hs : s = symbol
  · subst hs
    rw [Function.update_self] at h
    cases h
  · rw [Function.update_of_ne hs] at h
    exact ⟨hs, h⟩

/-- A symbol without a quote had none, and if it was the one asked for, the feeds have nothing. -/
theorem batchOne_missing {rich : Bool} {s : String}
    (h : (batchOne cfg up e now rich acc symbol).1 s = none) : acc.1 s = none ∧
      (s = symbol → fastRow up e rich s = none ∧ up.live e s = none) := by
  rcases batchOne_cases cfg up e now rich acc symbol with ⟨row, hrow, hone⟩ |
    ⟨hrow, tick, hlive, hone⟩ | ⟨hrow, hlive, hone⟩
  · rw [hone] at h
    obtain ⟨hs, h⟩ := update_eq_none h
    exact ⟨h, fun he => absurd he hs⟩
  · rw [hone] at h
    obtain ⟨hs, h⟩ := update_eq_none h
    exact ⟨h, fun he => absurd he hs⟩
  · rw [hone] at h
    exact ⟨h, fun he => he ▸ ⟨hrow, liveQuote_none hlive⟩⟩

theorem batchQuotes_missing {rich : Bool} {symbols : List String} {s : String}
    (h : (batchQuotes cfg up e now rich symbols acc).1 s = none) : acc.1 s = none ∧
      (s ∈ symbols → fastRow up e rich s = none ∧ up.live e s = none) := by
  induction symbols generalizing acc with
  | nil => exact ⟨h, nofun⟩
  | cons symbol symbols ih =>
    obtain ⟨hone, hrest⟩ := ih h
    obtain ⟨hnone, hhead⟩ := batchOne_missing hone
    refine ⟨hnone, fun hs => ?_⟩
    rcases List.mem_cons.mp hs with hs | hs
    · exact hhead hs
    · exact hrest hs

/-! ### The fill and the names -/

/-- A fill gives an open and bounds, and keeps the numbers. -/
theorem fillOne_sourced (h : Sourced cfg acts e warm now acc) (hask : Asked acts up now) :
    Sourced cfg acts e warm now (fillOne cfg up e now acc symbol) := by
  rcases fillOne_cases cfg up e now acc symbol with hone | ⟨q, hq, -, hone⟩
  · rwa [hone]
  · have hfresh := h.fresh symbol q hq
    obtain ⟨hcaches, -⟩ := liveQuote_sourced e symbol h.caches hask
    rw [hone]
    rcases fillQuote_cases cfg up e now acc symbol q with ⟨o, -, hfill⟩ |
      ⟨-, ⟨tick, -, hfill⟩ | ⟨-, hfill⟩⟩
    · rw [hfill]
      exact h.set h.caches (hfresh.same ⟨rfl, rfl, rfl⟩)
    · rw [hfill]
      exact h.set (hcaches.congr rfl rfl) (hfresh.same ⟨rfl, rfl, rfl⟩)
    · rw [hfill]
      exact ⟨hcaches, h.fresh⟩

theorem fillOpen_sourced (symbols : List String) (h : Sourced cfg acts e warm now acc)
    (hask : Asked acts up now) :
    Sourced cfg acts e warm now (fillOpen cfg up e now symbols acc) := by
  induction symbols generalizing acc with
  | nil => exact h
  | cons symbol symbols ih => exact ih (fillOne_sourced h hask)

/-- A fill takes no quote away. -/
theorem fillOpen_missing {symbols : List String} {s : String}
    (h : (fillOpen cfg up e now symbols acc).1 s = none) : acc.1 s = none := by
  induction symbols generalizing acc with
  | nil => exact h
  | cons symbol symbols ih =>
    have hrest : (fillOne cfg up e now acc symbol).1 s = none := ih h
    rcases fillOne_cases cfg up e now acc symbol with hone | ⟨q, -, -, hone⟩
    · rwa [hone] at hrest
    · rw [hone] at hrest
      rcases fillQuote_cases cfg up e now acc symbol q with ⟨o, -, hfill⟩ |
        ⟨-, ⟨tick, -, hfill⟩ | ⟨-, hfill⟩⟩
      · rw [hfill] at hrest
        exact (update_eq_none hrest).2
      · rw [hfill] at hrest
        exact (update_eq_none hrest).2
      · rwa [hfill] at hrest

/-- The names keep the numbers, and take no quote away. -/
theorem enrichOne_sourced (up : Upstream) (symbol : String)
    (h : Sourced cfg acts e warm now acc) :
    Sourced cfg acts e warm now (enrichOne up e acc symbol) ∧
      ∀ s, (enrichOne up e acc symbol).1 s = none → acc.1 s = none := by
  unfold enrichOne
  cases hq : acc.1 symbol with
  | none => exact ⟨h, fun s hs => hs⟩
  | some q =>
    refine ⟨h.set ?_ ((h.fresh symbol q hq).same ⟨rfl, rfl, rfl⟩), fun s hs => (update_eq_none hs).2⟩
    rw [enrichMeta_eq]
    exact h.caches.congr rfl rfl

theorem enrichQuotes_sourced (symbols : List String) (h : Sourced cfg acts e warm now acc) :
    Sourced cfg acts e warm now (enrichQuotes up e symbols acc) ∧
      ∀ s, (enrichQuotes up e symbols acc).1 s = none → acc.1 s = none := by
  induction symbols generalizing acc with
  | nil => exact ⟨h, fun s hs => hs⟩
  | cons symbol symbols ih =>
    obtain ⟨hone, hkept⟩ := enrichOne_sourced up symbol h
    obtain ⟨hall, hrest⟩ := ih hone
    exact ⟨hall, fun s hs => hkept s (hrest s hs)⟩

theorem enriched_sourced {call : QuotesCall} (h : Sourced cfg acts call.exchange warm now acc) :
    Sourced cfg acts call.exchange warm now (enriched call acc) ∧
      ∀ s, (enriched call acc).1 s = none → acc.1 s = none := by
  unfold enriched
  split
  · exact enrichQuotes_sourced call.syms.dedup h
  · exact ⟨h, fun s hs => hs⟩

/-! ## 3. One action -/

/-- A warm quote that is taken is younger than its lifetime. -/
theorem warmTaken_young {call : QuotesCall} {s : String} {q : SbQuote}
    (h : st.warmTaken cfg call now s = some q) : (call.enrich = false ∧ call.rich = false) ∧
      ∃ t, st.warm s = some (t, q) ∧ now - t < cfg.warmTtl := by
  obtain ⟨⟨-, henrich, hrich⟩, h⟩ := Option.ite_none_right_eq_some.mp h
  unfold warmGet at h
  cases hwarm : st.warm s with
  | none =>
    rw [hwarm] at h
    cases h
  | some hit =>
    rw [hwarm] at h
    dsimp only at h
    obtain ⟨hold, h⟩ := Option.ite_none_left_eq_some.mp h
    obtain ⟨-, h⟩ := Option.ite_none_left_eq_some.mp h
    obtain ⟨-, h⟩ := Option.ite_none_left_eq_some.mp h
    cases h
    exact ⟨⟨henrich, hrich⟩, hit.1, rfl, not_le.mp hold⟩

theorem CacheInv.warmTaken (h : CacheInv cfg acts now st) {call : QuotesCall} :
    Sourced cfg acts e (call.enrich = false ∧ call.rich = false) now
      (st.warmTaken cfg call now, st) := by
  refine ⟨h, fun s q hq => ?_⟩
  obtain ⟨hallowed, t, ht, hyoung⟩ := warmTaken_young hq
  obtain ⟨hat, a, ha, hwithin, hby⟩ := h.warm s (t, q) ht
  exact .inr ⟨hallowed, a, ha, hwithin.chain hat hyoung, hby⟩

/-- **The quotes of a request**: each is of an answer that is recent enough, and a symbol without one
    has no answer now. -/
theorem filled_sourced (call : QuotesCall) (h : CacheInv cfg acts now st)
    (hask : Asked acts call.upstream now) :
    Sourced cfg acts call.exchange (call.enrich = false ∧ call.rich = false) now
        (st.filled cfg call now) ∧
      ∀ s ∈ call.syms, (st.filled cfg call now).1 s = none →
        fastRow call.upstream call.exchange call.rich s = none ∧
          call.upstream.live call.exchange s = none := by
  have hgather : Sourced cfg acts call.exchange (call.enrich = false ∧ call.rich = false) now
      (st.gather cfg call now) := batchQuotes_sourced call.rich _ h.warmTaken hask
  have hmissing : ∀ s ∈ call.syms, (st.gather cfg call now).1 s = none →
      fastRow call.upstream call.exchange call.rich s = none ∧
        call.upstream.live call.exchange s = none := by
    intro s hs hnone
    obtain ⟨hcold, hasked⟩ := batchQuotes_missing hnone
    exact hasked (List.mem_filter.mpr ⟨hs, Option.isNone_iff_eq_none.mpr hcold⟩)
  unfold filled
  dsimp only
  split
  · exact ⟨fillOpen_sourced _ hgather hask, fun s hs hnone => hmissing s hs (fillOpen_missing hnone)⟩
  · exact ⟨hgather, hmissing⟩

/-- **A turn of the warm loop** puts quotes into the warm cache that are of NSE and within the lifetime
    of a cached tick. -/
theorem warmRefreshOnce_sourced {symbols : List String} (h : CacheInv cfg acts now st)
    (hask : Asked acts up now) : CacheInv cfg acts now (st.warmRefreshOnce cfg up symbols now) := by
  let batch := batchQuotes cfg up .NSE now false symbols (fun _ => none, st)
  have hbatch : Sourced cfg acts .NSE False now batch :=
    batchQuotes_sourced false symbols ⟨h, fun s q hq => by cases hq⟩ hask
  let acc := if cfg.warmFast then batch else fillOpen cfg up .NSE now symbols.dedup batch
  have hacc : Sourced cfg acts .NSE False now acc := by
    show Sourced cfg acts .NSE False now (ite _ _ _)
    split
    · exact hbatch
    · exact fillOpen_sourced symbols.dedup hbatch hask
  refine ⟨hacc.caches.live, fun s hit hhit => ?_⟩
  have hwarm : (st.warmRefreshOnce cfg up symbols now).warm s =
      (acc.1 s).elim (acc.2.warm s) (fun q => some (now, q)) := by
    simp only [warmRefreshOnce]
    split
    · rename_i q hq
      rw [show acc.1 s = some q from hq, Option.elim_some]
    · rename_i hq
      rw [show acc.1 s = none from hq, Option.elim_none]
  cases hq : acc.1 s with
  | some q =>
    rw [hwarm, hq, Option.elim_some] at hhit
    cases hhit
    rcases hacc.fresh s q hq with hquoted | ⟨hno, -⟩
    · exact ⟨le_refl _, hquoted⟩
    · exact hno.elim
  | none =>
    rw [hwarm, hq, Option.elim_none] at hhit
    exact hacc.caches.warm s hit hhit

/-- **An action keeps the caches.** -/
theorem step_cacheInv {st' : QuotesState} {a : QuotesAction × ℚ} (h : CacheInv cfg acts st.now st)
    (hs : step cfg st a = some st') : CacheInv cfg (acts ++ [a]) st'.now st' := by
  obtain ⟨hle, hs⟩ := Option.ite_none_right_eq_some.mp hs
  cases hs
  obtain ⟨action, now⟩ := a
  have hlater : CacheInv cfg (acts ++ [(action, now)]) now st :=
    h.later (List.subset_append_left _ _) hle
  have hask : Asked (acts ++ [(action, now)]) action.upstream now :=
    ⟨(action, now), List.mem_append_right _ (List.mem_singleton_self _), rfl, rfl⟩
  suffices CacheInv cfg (acts ++ [(action, now)]) now (perform cfg now st action) from
    this.congr rfl rfl
  cases action with
  | quotes call =>
    obtain ⟨hfilled, -⟩ := filled_sourced call hlater hask
    exact (enriched_sourced hfilled).1.caches.congr rfl rfl
  | warmRefresh up symbols => exact warmRefreshOnce_sourced hlater hask
  | live up exchange symbol => exact (liveQuote_sourced exchange symbol hlater hask).1

end Functions

/-! ## 4. All sequences -/

-- the concrete run below computes with rationals
unseal Rat.add Rat.mul Rat.sub Rat.inv

/-- The live feed has a price for SBIN; the batch feed has none. -/
def sbinAt (price : ℚ) : Upstream where
  live := fun _ _ => some
    { symbol := "SBIN", ltp := price, opening := 810, high := 820, low := 805, source := "groww" }

/-- A quote at 0, a warm refresh 0.9 seconds later that takes the cached tick, and a request that
    takes the warm quote, all but the lifetimes of both after the first. -/
def sbinRun : List (QuotesAction × ℚ) :=
  [(.live (sbinAt 812) .NSE "SBIN", 0), (.warmRefresh (sbinAt 813) ["SBIN"], 9 / 10)]

def sbinRequest : QuotesCall where
  symbols := ["SBIN"]
  exchange := .BSE
  upstream := sbinAt 815

/-- The prices of a response. -/
def QuotesResponse.prices (r : QuotesResponse) : List (Option ℚ) := r.quotes.map (·.price)

end QuotesState

end BharatTicker
