/-
  File:      BharatTicker/SbQuotes/Exchanges.lean
  Subject:   WHAT ONE EXCHANGE LEAVES FOR THE OTHER. A run of bulk quotes is set beside the run that is
             left of it when all but the requests for the BSE are taken out.

  `_live_q_cache` is keyed by the exchange. `_SESSION_OPEN` is not, but a BSE quote comes with its
  open, so that none is filled in. `_warm_cache` and `_META_CACHE` are keyed by the symbol alone.

  * `ReadsOwn` -- the condition: no warm quote is taken, and no name read that an NSE request put
    there;
  * `OnlyFor` -- what a request for an exchange leaves alone;
  * `Agree` -- the relation between the two runs;
  * `bse_undisturbed` -- all sequences; `warm_nse_served` -- a warm NSE quote for the BSE.
-/
import BharatTicker.SbQuotes

namespace BharatTicker

open Basis

-- the concrete runs below compute with rationals
unseal Rat.add Rat.mul Rat.sub Rat.inv

/-! ## 1. The two runs and the condition -/

namespace QuotesState

/-- The requests for the BSE; a warm refresh is not one. -/
def QuotesAction.forBse : QuotesAction → Bool
  | .quotes call => call.exchange = .BSE
  | .warmRefresh .. => false
  | .live _ exchange _ => exchange = .BSE

/-- The tick that a BSE request has for a symbol: the one in `_live_q_cache`, or else the feed's. -/
def foundTick (cfg : QuoteSettings) (call : QuotesCall) (now : ℚ) (st : QuotesState)
    (symbol : String) : Option LiveTick :=
  match st.liveHit cfg .BSE now symbol with
  | some hit => some hit.2
  | none => call.upstream.live .BSE symbol

/-- In the course of the request that may be the tick of a symbol spelt otherwise. -/
def MayFind (cfg : QuoteSettings) (call : QuotesCall) (now : ℚ) (st : QuotesState)
    (symbol : String) (tick : LiveTick) : Prop :=
  ∃ s ∈ call.syms, upper s = upper symbol ∧ st.foundTick cfg call now s = some tick

/-- The symbols that it looks up in `_META_CACHE`: for the quote of a tick, and to enrich it. -/
def LooksUp (cfg : QuoteSettings) (call : QuotesCall) (now : ℚ) (st : QuotesState)
    (symbol : String) : Prop :=
  ∃ s ∈ call.syms, ∃ tick, st.MayFind cfg call now s tick ∧
    (tick.symbol = symbol ∨ call.enrich = true ∧ s = symbol)

/-- **The condition.** A BSE request takes no warm quote, and looks up no name that a request for the
    NSE has put into `_META_CACHE`. -/
def ReadsOwn (cfg : QuoteSettings) (st : QuotesState) (a : QuotesAction × ℚ) : Prop :=
  match a.1 with
  | .quotes call => call.exchange = .BSE →
    (∀ symbol, st.warmTaken cfg call a.2 symbol = none) ∧
      ∀ symbol, st.LooksUp cfg call a.2 symbol → ∀ info, st.info symbol = some info →
        info.filledFor = .BSE
  | _ => True

/-! ## 2. What a request leaves alone -/

/-- Only ticks of the exchange, and session opens, are written. -/
def Touches (e : Exchange) (st st' : QuotesState) : Prop :=
  ∃ live memo, (∀ e', e' ≠ e → live e' = st.liveCache e') ∧
    st' = { st with liveCache := live, sessionOpen := memo }

/-- A request for the exchange leaves the ticks of the other, adds names of its own, and gives no
    response for the other. -/
structure OnlyFor (e : Exchange) (st st' : QuotesState) : Prop where
  live : ∀ e', e' ≠ e → st'.liveCache e' = st.liveCache e'
  info : ∀ symbol, st'.info symbol = st.info symbol ∨
    ∃ info, st'.info symbol = some info ∧ info.filledFor = e
  responses : ∀ e', e' ≠ e → st'.responses.filter (fun x => x.1 = e') =
    st.responses.filter fun x => x.1 = e'

section Frame

variable {cfg : QuoteSettings} {up : Upstream} {e : Exchange} {now : ℚ} {rich : Bool}
  {st st' st'' : QuotesState} {acc : QuoteMap × QuotesState}

theorem Touches.refl (e : Exchange) (st : QuotesState) : Touches e st st :=
  ⟨st.liveCache, st.sessionOpen, fun _ _ => rfl, rfl⟩

theorem Touches.trans (h : Touches e st st') (h' : Touches e st' st'') : Touches e st st'' := by
  obtain ⟨live, memo, hlive, rfl⟩ := h
  obtain ⟨live', memo', hlive', rfl⟩ := h'
  exact ⟨live', memo', fun e' he => (hlive' e' he).trans (hlive e' he), rfl⟩

theorem touches_foldl {f : QuoteMap × QuotesState → String → QuoteMap × QuotesState}
    (hf : ∀ acc symbol, Touches e acc.2 (f acc symbol).2) (symbols : List String)
    (acc : QuoteMap × QuotesState) : Touches e acc.2 (symbols.foldl f acc).2 := by
  induction symbols generalizing acc with
  | nil => exact Touches.refl e acc.2
  | cons symbol symbols ih => exact (hf acc symbol).trans (ih (f acc symbol))

theorem liveQuote_touches (symbol : String) :
    Touches e st (st.liveQuote cfg up e now symbol).2 := by
  unfold liveQuote
  split
  · exact Touches.refl e st
  · split
    · exact ⟨_, st.sessionOpen, fun e' he => Function.update_of_ne he _ _, rfl⟩
    · exact Touches.refl e st

theorem batchOne_touches (symbol : String) :
    Touches e acc.2 (batchOne cfg up e now rich acc symbol).2 := by
  have hlive : Touches e acc.2 (acc.2.liveQuote cfg up e now symbol).2 := liveQuote_touches symbol
  rcases batchOne_cases cfg up e now rich acc symbol with ⟨row, -, hone⟩ | ⟨-, tick, -, hone⟩ |
    ⟨-, -, hone⟩
  · rw [hone]
    exact Touches.refl e acc.2
  · rwa [hone]
  · rwa [hone]

theorem fillOne_touches (symbol : String) :
    Touches e acc.2 (fillOne cfg up e now acc symbol).2 := by
  have hlive : Touches e acc.2 (acc.2.liveQuote cfg up e now symbol).2 := liveQuote_touches symbol
  rcases fillOne_cases cfg up e now acc symbol with hone | ⟨q, -, -, hone⟩
  · rw [hone]
    exact Touches.refl e acc.2
  · rw [hone]
    rcases fillQuote_cases cfg up e now acc symbol q with ⟨o, -, hfill⟩ |
      ⟨-, ⟨tick, -, hfill⟩ | ⟨-, hfill⟩⟩
    · rw [hfill]
      exact Touches.refl e acc.2
    · rw [hfill]
      exact hlive.trans ⟨_, _, fun _ _ => rfl, rfl⟩
    · rwa [hfill]

theorem batchQuotes_touches (symbols : List String) (acc : QuoteMap × QuotesState) :
    Touches e acc.2 (batchQuotes cfg up e now rich symbols acc).2 :=
  touches_foldl (fun _ symbol => batchOne_touches symbol) symbols acc

theorem fillOpen_touches (symbols : List String) (acc : QuoteMap × QuotesState) :
    Touches e acc.2 (fillOpen cfg up e now symbols acc).2 :=
  touches_foldl (fun _ symbol => fillOne_touches symbol) symbols acc

theorem Touches.onlyFor (h : Touches e st st') : OnlyFor e st st' := by
  obtain ⟨live, memo, hlive, rfl⟩ := h
  exact ⟨hlive, fun _ => .inl rfl, fun _ _ => rfl⟩

theorem OnlyFor.trans (h : OnlyFor e st st') (h' : OnlyFor e st' st'') : OnlyFor e st st'' := by
  refine ⟨fun e' he => (h'.live e' he).trans (h.live e' he), fun symbol => ?_,
    fun e' he => (h'.responses e' he).trans (h.responses e' he)⟩
  rcases h'.info symbol with hinfo | hinfo
  · rw [hinfo]
    exact h.info symbol
  · exact .inr hinfo

theorem enrichMeta_onlyFor (symbol : String) : OnlyFor e st (st.enrichMeta up e symbol) := by
  rw [enrichMeta_eq]
  refine ⟨fun _ _ => rfl, fun s => ?_, fun _ _ => rfl⟩
  by_cases hs : s = symbol
  · subst hs
    dsimp only
    rw [Function.update_self]
    cases hold : st.info s with
    | some info => exact .inl rfl
    | none =>
      cases hfetch : fetchMeta up e s with
      | none => exact .inl rfl
      | some info => exact .inr ⟨info, rfl, fetchMeta_filledFor hfetch⟩
  · exact .inl (Function.update_of_ne hs _ _)

theorem enrichQuotes_onlyFor (symbols : List String) (acc : QuoteMap × QuotesState) :
    OnlyFor e acc.2 (enrichQuotes up e symbols acc).2 := by
  induction symbols generalizing acc with
  | nil => exact (Touches.refl e acc.2).onlyFor
  | cons symbol symbols ih =>
    refine OnlyFor.trans ?_ (ih (enrichOne up e acc symbol))
    unfold enrichOne
    split
    · exact enrichMeta_onlyFor symbol
    · exact (Touches.refl e acc.2).onlyFor

/-- **A request for an exchange leaves what the other one reads**, but for the names it adds. -/
theorem sbQuotes_onlyFor {call : QuotesCall} : OnlyFor call.exchange st (st.sbQuotes cfg call now) := by
  have hfilled : Touches call.exchange st (st.filled cfg call now).2 := by
    have hgather : Touches call.exchange st (st.gather cfg call now).2 :=
      batchQuotes_touches _ (_, st)
    unfold filled
    dsimp only
    split
    · exact hgather.trans (fillOpen_touches _ _)
    · exact hgather
  have henriched : OnlyFor call.exchange st (enriched call (st.filled cfg call now)).2 := by
    unfold enriched
    split
    · exact hfilled.onlyFor.trans (enrichQuotes_onlyFor _ _)
    · exact hfilled.onlyFor
  refine henriched.trans ⟨fun _ _ => rfl, fun _ => .inl rfl, fun e' he => ?_⟩
  unfold sbQuotes
  simp [List.filter_append, Ne.symm he]

theorem warmRefreshOnce_onlyFor {symbols : List String} :
    OnlyFor .NSE st (st.warmRefreshOnce cfg up symbols now) := by
  have hbatch : Touches .NSE st
      (batchQuotes cfg up .NSE now false symbols (fun _ => none, st)).2 :=
    batchQuotes_touches symbols (_, st)
  have hacc : Touches .NSE st (if cfg.warmFast then
      batchQuotes cfg up .NSE now false symbols (fun _ => none, st)
    else fillOpen cfg up .NSE now symbols.dedup
      (batchQuotes cfg up .NSE now false symbols (fun _ => none, st))).2 := by
    split
    · exact hbatch
    · exact hbatch.trans (fillOpen_touches _ _)
  exact hacc.onlyFor.trans ⟨fun _ _ => rfl, fun _ => .inl rfl, fun _ _ => rfl⟩

end Frame

/-! ## 3. The two runs side by side -/

/-- A state of the run, and the state of the run that is left for the BSE. -/
structure Agree (st st' : QuotesState) : Prop where
  live : st'.liveCache .BSE = st.liveCache .BSE
  warm : ∀ symbol, st'.warm symbol = none
  info : ∀ symbol, st'.info symbol = st.info symbol ∨
    ∃ info, st.info symbol = some info ∧ info.filledFor = .NSE
  now : st'.now ≤ st.now
  responses : st'.responses = st.responses.filter fun x => x.1 = .BSE

/-- The two sides in the course of a BSE request that began at `st`. -/
structure Beside (cfg : QuoteSettings) (call : QuotesCall) (now : ℚ) (st : QuotesState)
    (acc acc' : QuoteMap × QuotesState) : Prop where
  map : acc'.1 = acc.1
  agree : Agree acc.2 acc'.2
  known : ∀ symbol, st.LooksUp cfg call now symbol → acc'.2.info symbol = acc.2.info symbol
  found : ∀ symbol hit, acc.2.liveHit cfg .BSE now symbol = some hit →
    symbol ∈ call.syms → st.MayFind cfg call now symbol hit.2
  missed : ∀ symbol, acc.2.liveHit cfg .BSE now symbol = none →
    st.liveHit cfg .BSE now symbol = none
  opened : ∀ symbol q, acc.1 symbol = some q →
    q.opening ≠ none ∧ ∃ tick, st.MayFind cfg call now symbol tick

section Sides

variable {cfg : QuoteSettings} {call : QuotesCall} {up : Upstream} {now : ℚ} {rich : Bool}
  {st st' st₁ : QuotesState} {acc acc' : QuoteMap × QuotesState} {symbol : String}

/-- What is done for the NSE leaves the two sides in agreement. -/
theorem Agree.drop (h : Agree st st') (hnse : OnlyFor .NSE st st₁) (hnow : st.now ≤ now) :
    Agree { st₁ with now := now } st' := by
  refine ⟨h.live.trans (hnse.live .BSE (by decide)).symm, h.warm, fun symbol => ?_,
    h.now.trans hnow, h.responses.trans (hnse.responses .BSE (by decide)).symm⟩
  rcases hnse.info symbol with hinfo | hinfo
  · dsimp only
    rw [hinfo]
    exact h.info symbol
  · exact .inr hinfo

theorem liveHit_congr (h : st'.liveCache .BSE = st.liveCache .BSE) (symbol : String) :
    st'.liveHit cfg .BSE now symbol = st.liveHit cfg .BSE now symbol := by
  unfold liveHit
  rw [h]

/-- The quote of a tick that the request may find is the same on both sides. -/
theorem Beside.quote (h : Beside cfg call now st acc acc') (hsymbol : symbol ∈ call.syms)
    {tick : LiveTick} (htick : st.MayFind cfg call now symbol tick) :
    Beside cfg call now st
      (Function.update acc.1 symbol (some (sbQuote (acc.2.info tick.symbol) tick)), acc.2)
      (Function.update acc'.1 symbol (some (sbQuote (acc'.2.info tick.symbol) tick)), acc'.2) := by
  have hinfo := h.known tick.symbol ⟨symbol, hsymbol, tick, htick, .inl rfl⟩
  refine ⟨?_, h.agree, h.known, h.found, h.missed, fun s q hq => ?_⟩
  · dsimp only
    rw [h.map, hinfo]
  · rcases update_eq_some hq with ⟨rfl, rfl⟩ | ⟨-, hq⟩
    · exact ⟨by simp [sbQuote], tick, htick⟩
    · exact h.opened s q hq

/-- A tick of the feed is kept on both sides. -/
theorem Beside.cache (h : Beside cfg call now st acc acc') {tick : LiveTick}
    (hmiss : acc.2.liveHit cfg .BSE now symbol = none)
    (htick : ∀ s, upper s = upper symbol → st.MayFind cfg call now s tick) :
    Beside cfg call now st
      (acc.1, { acc.2 with
        liveCache := Function.update acc.2.liveCache .BSE
          (Function.update (acc.2.liveCache .BSE) (upper symbol) (some (now, tick))) })
      (acc'.1, { acc'.2 with
        liveCache := Function.update acc'.2.liveCache .BSE
          (Function.update (acc'.2.liveCache .BSE) (upper symbol) (some (now, tick))) }) := by
  refine ⟨h.map, ⟨?_, h.agree.warm, h.agree.info, h.agree.now, h.agree.responses⟩, h.known,
    fun s hit hhit hs => ?_, fun s hhit => ?_, h.opened⟩
  · dsimp only
    rw [Function.update_self, Function.update_self, h.agree.live]
  · unfold liveHit at hhit
    dsimp only at hhit
    rw [Function.update_self] at hhit
    by_cases he : upper s = upper symbol
    · rw [he, Function.update_self] at hhit
      cases (Option.filter_eq_some_iff.mp hhit).1
      exact htick s he
    · rw [Function.update_of_ne he] at hhit
      exact h.found s hit hhit hs
  · by_cases he : upper s = upper symbol
    · refine h.missed s ?_
      unfold liveHit at hmiss ⊢
      rwa [he]
    · unfold liveHit at hhit
      dsimp only at hhit
      rw [Function.update_self, Function.update_of_ne he] at hhit
      exact h.missed s hhit

/-- **One symbol of a BSE request, on both sides**: its live quote. -/
theorem Beside.batchOne (h : Beside cfg call now st acc acc') (hsymbol : symbol ∈ call.syms) :
    Beside cfg call now st (batchOne cfg call.upstream .BSE now rich acc symbol)
      (batchOne cfg call.upstream .BSE now rich acc' symbol) := by
  have hfast : fastRow call.upstream .BSE rich symbol = none := if_neg (by simp)
  have hlive : acc'.2.liveHit cfg .BSE now symbol = acc.2.liveHit cfg .BSE now symbol :=
    liveHit_congr h.agree.live symbol
  unfold QuotesState.batchOne
  rw [hfast]
  dsimp only
  unfold liveQuote
  rw [hlive]
  cases hhit : acc.2.liveHit cfg .BSE now symbol with
  | some hit => exact h.quote hsymbol (h.found symbol hit hhit hsymbol)
  | none =>
    cases htick : call.upstream.live .BSE symbol with
    | some tick =>
      have hfound : st.foundTick cfg call now symbol = some tick := by
        unfold foundTick
        rw [h.missed symbol hhit, htick]
      have hmay : ∀ s, upper s = upper symbol → st.MayFind cfg call now s tick :=
        fun s hs => ⟨symbol, hsymbol, hs.symm, hfound⟩
      exact (h.cache hhit hmay).quote hsymbol (hmay symbol rfl)
    | none => exact h

theorem Beside.batchQuotes (h : Beside cfg call now st acc acc') {symbols : List String}
    (hsymbols : ∀ s ∈ symbols, s ∈ call.syms) :
    Beside cfg call now st (batchQuotes cfg call.upstream .BSE now rich symbols acc)
      (batchQuotes cfg call.upstream .BSE now rich symbols acc') := by
  induction symbols generalizing acc acc' with
  | nil => exact h
  | cons symbol symbols ih =>
    exact ih (h.batchOne (hsymbols symbol List.mem_cons_self)) fun s hs =>
      hsymbols s (List.mem_cons_of_mem _ hs)

/-- A quote that has its open is not filled in. -/
theorem fillOne_opened {e : Exchange} (h : ∀ q, acc.1 symbol = some q → q.opening ≠ none) :
    fillOne cfg up e now acc symbol = acc := by
  rcases fillOne_cases cfg up e now acc symbol with hone | ⟨q, hq, hopen, -⟩
  · exact hone
  · exact absurd hopen (h q hq)

/-- Where every quote has its open, none is filled in. -/
theorem fillOpen_opened {e : Exchange} (symbols : List String)
    (h : ∀ symbol q, acc.1 symbol = some q → q.opening ≠ none) :
    fillOpen cfg up e now symbols acc = acc := by
  unfold fillOpen
  induction symbols with
  | nil => rfl
  | cons symbol symbols ih =>
    rw [List.foldl_cons, fillOne_opened (h symbol)]
    exact ih

/-- **The name of one quote, on both sides.** -/
theorem Beside.enrichOne (h : Beside cfg call now st acc acc') (hsymbol : symbol ∈ call.syms)
    (henrich : call.enrich = true) :
    Beside cfg call now st (enrichOne call.upstream .BSE acc symbol)
      (enrichOne call.upstream .BSE acc' symbol) := by
  unfold QuotesState.enrichOne
  rw [h.map]
  cases hq : acc.1 symbol with
  | none => exact h
  | some q =>
    obtain ⟨hopen, tick, htick⟩ := h.opened symbol q hq
    have hinfo := h.known symbol ⟨symbol, hsymbol, tick, htick, .inr ⟨henrich, rfl⟩⟩
    dsimp only
    rw [enrichMeta_eq, enrichMeta_eq, hinfo]
    refine ⟨?_, ⟨h.agree.live, h.agree.warm, fun s => ?_, h.agree.now, h.agree.responses⟩,
      fun s hs => ?_, h.found, h.missed, fun s q' hq' => ?_⟩
    · dsimp only
      rw [Function.update_self, Function.update_self]
    · dsimp only
      by_cases hs : s = symbol
      · subst hs
        left
        rw [Function.update_self, Function.update_self]
      · rw [Function.update_of_ne hs, Function.update_of_ne hs]
        exact h.agree.info s
    · dsimp only
      by_cases he : s = symbol
      · subst he
        rw [Function.update_self, Function.update_self]
      · rw [Function.update_of_ne he, Function.update_of_ne he]
        exact h.known s hs
    · rcases update_eq_some hq' with ⟨rfl, rfl⟩ | ⟨-, hq'⟩
      · exact ⟨hopen, tick, htick⟩
      · exact h.opened s q' hq'

theorem Beside.enrichQuotes (h : Beside cfg call now st acc acc') {symbols : List String}
    (hsymbols : ∀ s ∈ symbols, s ∈ call.syms) (henrich : call.enrich = true) :
    Beside cfg call now st (enrichQuotes call.upstream .BSE symbols acc)
      (enrichQuotes call.upstream .BSE symbols acc') := by
  induction symbols generalizing acc acc' with
  | nil => exact h
  | cons symbol symbols ih =>
    exact ih (h.enrichOne (hsymbols symbol List.mem_cons_self) henrich) fun s hs =>
      hsymbols s (List.mem_cons_of_mem _ hs)

end Sides

/-! ## 4. One step, on both sides -/

section Step

variable {cfg : QuoteSettings} {call : QuotesCall} {now : ℚ} {st st' : QuotesState}

/-- Where no warm quote is there to be taken, none is taken. -/
theorem warmTaken_eq_none {symbol : String} (h : st.warm symbol = none) :
    st.warmTaken cfg call now symbol = none := by
  unfold warmTaken warmGet
  rw [h]
  exact ite_self none

/-- The two sides, as a BSE request under the condition begins. -/
theorem Agree.beside (h : Agree st st') (hbse : call.exchange = .BSE)
    (hown : ReadsOwn cfg st (.quotes call, now)) :
    Beside cfg call now st (st.warmTaken cfg call now, st) (st'.warmTaken cfg call now, st') := by
  obtain ⟨hwarm, hknown⟩ := hown hbse
  refine ⟨?_, h, fun symbol hs => ?_, fun symbol hit hhit hs => ⟨symbol, hs, rfl, ?_⟩,
    fun _ hmiss => hmiss, fun symbol q hq => ?_⟩
  · funext symbol
    exact (warmTaken_eq_none (h.warm symbol)).trans (hwarm symbol).symm
  · refine (h.info symbol).resolve_right fun hex => ?_
    obtain ⟨info, hinfo, hnse⟩ := hex
    have hbse := hknown symbol hs info hinfo
    rw [hnse] at hbse
    cases hbse
  · unfold foundTick
    rw [hhit]
  · have hnone : st.warmTaken cfg call now symbol = none := hwarm symbol
    dsimp only at hq
    rw [hnone] at hq
    cases hq

/-- **A BSE request under the condition, on both sides**: the same quotes. -/
theorem Agree.request (h : Agree st st') (hbse : call.exchange = .BSE)
    (hown : ReadsOwn cfg st (.quotes call, now)) :
    Beside cfg call now st (enriched call (st.filled cfg call now))
      (enriched call (st'.filled cfg call now)) := by
  have hgather : Beside cfg call now st (st.gather cfg call now) (st'.gather cfg call now) := by
    have hbeside := h.beside hbse hown
    unfold gather
    rw [hbse]
    have hmap : st'.warmTaken cfg call now = st.warmTaken cfg call now := hbeside.map
    rw [hmap] at hbeside ⊢
    exact hbeside.batchQuotes fun s hs => (List.mem_filter.mp hs).1
  have hfilled : Beside cfg call now st (st.filled cfg call now) (st'.filled cfg call now) := by
    have hopened : ∀ symbol q, (st.gather cfg call now).1 symbol = some q → q.opening ≠ none :=
      fun symbol q hq => (hgather.opened symbol q hq).1
    have hopened' : ∀ symbol q, (st'.gather cfg call now).1 symbol = some q → q.opening ≠ none := by
      rwa [hgather.map]
    unfold filled
    dsimp only
    rw [fillOpen_opened _ hopened, fillOpen_opened _ hopened', ite_self, ite_self]
    exact hgather
  unfold enriched
  split
  · rename_i henrich
    rw [hbse]
    exact hfilled.enrichQuotes (fun s hs => List.mem_dedup.mp hs) henrich
  · exact hfilled

theorem Agree.quotes (h : Agree st st') (hbse : call.exchange = .BSE)
    (hown : ReadsOwn cfg st (.quotes call, now)) :
    Agree { st.sbQuotes cfg call now with now := now } { st'.sbQuotes cfg call now with now := now } := by
  have hside := h.request hbse hown
  refine ⟨hside.agree.live, hside.agree.warm, hside.agree.info, le_refl now, ?_⟩
  unfold sbQuotes
  dsimp only
  rw [hside.map, hside.agree.responses, List.filter_append]
  simp [hbse]

/-- A tick of the BSE for another endpoint. -/
theorem Agree.tick (h : Agree st st') {up : Upstream} {symbol : String} :
    Agree { (st.liveQuote cfg up .BSE now symbol).2 with now := now }
      { (st'.liveQuote cfg up .BSE now symbol).2 with now := now } := by
  have hlive : st'.liveHit cfg .BSE now symbol = st.liveHit cfg .BSE now symbol :=
    liveHit_congr h.live symbol
  unfold liveQuote
  rw [hlive]
  cases st.liveHit cfg .BSE now symbol with
  | some hit => exact ⟨h.live, h.warm, h.info, le_refl now, h.responses⟩
  | none =>
    cases up.live .BSE symbol with
    | some tick =>
      refine ⟨?_, h.warm, h.info, le_refl now, h.responses⟩
      dsimp only
      rw [Function.update_self, Function.update_self, h.live]
    | none => exact ⟨h.live, h.warm, h.info, le_refl now, h.responses⟩

/-- **What is not a request for the BSE** leaves the two sides in agreement. -/
theorem Agree.other (h : Agree st st') {action : QuotesAction} (hother : action.forBse = false)
    (hnow : st.now ≤ now) : Agree { perform cfg now st action with now := now } st' := by
  refine h.drop ?_ hnow
  cases action with
  | quotes call =>
    have hnse : call.exchange = .NSE := by
      cases he : call.exchange with
      | NSE => rfl
      | BSE => simp [QuotesAction.forBse, he] at hother
    exact hnse ▸ sbQuotes_onlyFor
  | warmRefresh up symbols => exact warmRefreshOnce_onlyFor
  | live up exchange symbol =>
    cases exchange with
    | NSE => exact (liveQuote_touches symbol).onlyFor
    | BSE => cases hother

/-- **A request for the BSE, under the condition, on both sides.** -/
theorem Agree.bse (h : Agree st st') {action : QuotesAction} (hbse : action.forBse = true)
    (hown : ReadsOwn cfg st (action, now)) :
    Agree { perform cfg now st action with now := now }
      { perform cfg now st' action with now := now } := by
  cases action with
  | quotes call => exact h.quotes (of_decide_eq_true hbse) hown
  | warmRefresh up symbols => cases hbse
  | live up exchange symbol =>
    cases exchange with
    | NSE => cases hbse
    | BSE => exact h.tick

end Step

/-! ## 5. All sequences -/

theorem step_eq_some {cfg : QuoteSettings} {st st' : QuotesState} {a : QuotesAction × ℚ}
    (h : step cfg st a = some st') :
    st.now ≤ a.2 ∧ st' = { perform cfg a.2 st a.1 with now := a.2 } := by
  obtain ⟨hnow, h⟩ := Option.ite_none_right_eq_some.mp h
  cases h
  exact ⟨hnow, rfl⟩

/-- RELIANCE and TCS at 2930 on the NSE, at 2925 on the BSE. -/
def twoVenues : Upstream where
  rows := fun _ => some { price := some 2930 }
  live := fun e symbol =>
    some
      { symbol := symbol
        ltp := if e = .NSE then 2930 else 2925
        opening := 2900
        high := 2940
        low := 2890
        source := if e = .NSE then "nse" else "bse" }

def bseReliance : QuotesCall where
  symbols := ["RELIANCE"]
  exchange := .BSE
  fast := true
  upstream := twoVenues

theorem bseReliance_syms : bseReliance.syms = ["RELIANCE"] := by decide

theorem readsOwn_bseReliance {now : ℚ} {st : QuotesState} (hwarm : st.warm "RELIANCE" = none)
    (hinfo : st.info "RELIANCE" = none) (hmiss : st.liveHit {} .BSE now "RELIANCE" = none) :
    ReadsOwn {} st (.quotes bseReliance, now) := by
  refine fun _ => ⟨fun symbol => ?_, fun symbol hlook info hsome => ?_⟩
  · by_cases hs : symbol = "RELIANCE"
    · rw [hs]
      exact warmTaken_eq_none hwarm
    · refine if_neg fun h => hs ?_
      rw [bseReliance_syms] at h
      exact List.mem_singleton.mp h.1
  · obtain ⟨s, hs, tick, hmay, hsym | hsym⟩ := hlook
    · obtain ⟨s', hs', -, hfound⟩ := hmay
      rw [bseReliance_syms, List.mem_singleton] at hs'
      subst hs'
      unfold foundTick at hfound
      rw [hmiss] at hfound
      cases hfound
      rw [← hsym] at hsome
      rw [hinfo] at hsome
      cases hsome
    · cases hsym.1

/-- A warm refresh of TCS, a request for it with names, and one for RELIANCE on the BSE. -/
def apart : List (QuotesAction × ℚ) :=
  [(.warmRefresh twoVenues ["TCS"], 1),
    (.quotes { symbols := ["TCS"], exchange := .NSE, enrich := true, upstream := twoVenues }, 2),
    (.quotes bseReliance, 3)]

/-- A warm refresh of RELIANCE, and a request for it on the BSE. -/
def warmed : List (QuotesAction × ℚ) :=
  [(.warmRefresh twoVenues ["RELIANCE"], 1), (.quotes bseReliance, 2)]

end QuotesState

end BharatTicker
