/-
  File:      BharatTicker/BulkFetch/Answers.lean
  Subject:   WHAT THE PROVIDERS RETURN IN BULK (`fetch_bulk` of all of them), AND WHAT THE CONTROLLER
             MAKES OF IT (`engine/failover.py`: `fetch_bulk`).

  That the controller neither loses nor duplicates a symbol rests on a promise of its providers: one tick
  at most for each symbol that was asked for, and no other. Here each of them keeps it, for symbols in
  upper case: the feeds and the scrapers, which gather tasks, the archives, which look the symbols up in
  their file, and Yahoo, which asks its library for all at once.

  * `nseArchiveBulk`, `bseArchiveBulk`, `yahooBulk` -- `fetch_bulk` where it is a loop over the symbols;
  * `gatherers`, `BulkParsed` -- the ticks that a provider returns in bulk;
  * `BulkAnswered`, `bulkParsed_answered` -- one tick at most for each symbol;
  * `mem_fetchEach_results` -- the ticks that are fetched alone;
  * `bulk_promise_kept` -- the controller over them.
-/
import BharatTicker.BulkFetch
import BharatTicker.Failover.Coverage
import BharatTicker.MarketData.Ticks

namespace BharatTicker

open Basis

/-! ## 1. `fetch_bulk` of the providers -/

section Model

variable (upper : String → String)

/-- `NSEArchiveProvider.fetch_bulk`, the file being loaded. -/
def nseArchiveBulk (rows : BhavRows) (symbols : List String) : List ValidTick :=
  symbols.filterMap fun s => (rowFor upper rows s).bind fun row => (nseParse upper row s).toOption

/-- `BSEArchiveProvider.fetch_bulk`, the file being loaded. -/
def bseArchiveBulk (rows : BhavRows) (symbols : List String) : List ValidTick :=
  symbols.filterMap fun s => (rowFor upper rows s).bind fun row => (bseParse upper row s).toOption

/-- The name of a symbol at Yahoo. -/
def withNseSuffix (s : String) : String := if '.' ∈ s.toList then s else s ++ ".NS"

/-- `YahooFinanceProvider.fetch_bulk`, of what the library has for each name. -/
def yahooBulk (data : String → List (String × PyJson)) (symbols : List String) : List FeedQuote :=
  symbols.filterMap fun s =>
    if data (withNseSuffix s) = [] then none
    else (parseYahooData upper (data (withNseSuffix s)) s).toOption

/-- The providers that gather tasks. -/
def gatherers (scrapeConcurrency : ℤ) : List (Provider × BulkPlan) :=
  [(growwProvider, growwBulk scrapeConcurrency), (nseLiveProvider, nseLiveBulk scrapeConcurrency),
    (bseLiveProvider, nseLiveBulk scrapeConcurrency), (nseScraper, nseScraperBulk scrapeConcurrency),
    (bseScraper, bseScraperBulk scrapeConcurrency)]

/-- **The ticks that a provider returns in bulk**: those of a run that has returned, in which
    `fetch_quote` was answered what its parser makes of some payload, or those of its loop. -/
inductive BulkParsed (scrapeConcurrency : ℤ) (symbols : List String) : Provider → List TickData → Prop
  | gathered {p : Provider} {plan : BulkPlan} {now : ℚ} {s₀ s : BulkFetch} {as : List BulkAction}
      (hplan : (p, plan) ∈ gatherers scrapeConcurrency)
      (hinit : BulkFetch.init plan symbols now = some s₀) (hr : run BulkFetch.step s₀ as = some s)
      (hreturned : s.todo = [])
      (hparsed : ∀ i t time symbol, .answered i (some t) time ∈ as → symbols[i]? = some symbol →
        ∃ a, ParsedFrom upper symbol p a ∧ t = a.tick) :
    BulkParsed scrapeConcurrency symbols p s.results
  | nseArchive (rows : BhavRows) : BulkParsed scrapeConcurrency symbols nseArchiveProvider
      ((nseArchiveBulk upper rows symbols).map (·.args.tick))
  | bseArchive (rows : BhavRows) : BulkParsed scrapeConcurrency symbols bseArchiveProvider
      ((bseArchiveBulk upper rows symbols).map (·.args.tick))
  | yahoo (data : String → List (String × PyJson)) :
    BulkParsed scrapeConcurrency symbols yahooFinanceProvider
      ((yahooBulk upper data symbols).map (·.args.toTickArgs.tick))

end Model

/-- A symbol in upper case, without blanks around it. -/
def OwnName (upper : String → String) (s : String) : Prop := upper s = s ∧ normalizeSymbol upper s = s

/-- **The promise**: of each requested symbol one tick at most, and nothing else. -/
structure BulkAnswered (symbols : List String) (p : Provider) (ts : List TickData) : Prop where
  once : (ts.map (·.symbol)).Subperm symbols
  served : ∀ t ∈ ts, ∃ s ∈ symbols, ServedTick s p t

/-! ## 2. Each provider keeps it -/

section Lists

variable {α β : Type} {f g : α → Option β} {l : List α}

/-- What is found at all is found where the other function finds it. -/
theorem filterMap_sublist (h : ∀ a ∈ l, f a = none ∨ f a = g a) :
    List.Sublist (l.filterMap f) (l.filterMap g) := by
  induction l with
  | nil => exact .refl []
  | cons a l ih =>
    have hrest := ih fun b hb => h b (List.mem_cons_of_mem a hb)
    rw [List.filterMap_cons, List.filterMap_cons]
    rcases h a List.mem_cons_self with hnone | hsame
    · rw [hnone]
      cases g a with
      | none => exact hrest
      | some b => exact .cons b hrest
    · rw [hsame]
      cases g a with
      | none => exact hrest
      | some b => exact .cons_cons b hrest

theorem range_filterMap_getElem (l : List α) : (List.range l.length).filterMap (l[·]?) = l := by
  induction l with
  | nil => rfl
  | cons a l ih =>
    rw [List.length_cons, List.range_succ_eq_map, List.filterMap_cons, List.filterMap_map]
    exact congrArg (a :: ·) ih

end Lists

section Answered

variable {upper : String → String} {scrapeConcurrency : ℤ} {symbols : List String} {p : Provider}
  {ts : List TickData}

/-- A loop over the symbols, of which each has a tick of its own or none. -/
theorem bulkAnswered_loop {τ : Type} {quote : String → Option τ} {tick : τ → TickData}
    (h : ∀ s ∈ symbols, ∀ t, quote s = some t → ServedTick s p (tick t)) :
    BulkAnswered symbols p ((symbols.filterMap quote).map tick) where
  once := by
    rw [List.map_map, List.map_filterMap]
    refine List.Sublist.subperm ?_
    have hsub := filterMap_sublist (g := some) (l := symbols)
      (f := fun s => (quote s).map ((·.symbol) ∘ tick)) fun s hs => by
        cases hquote : quote s with
        | none => exact .inl rfl
        | some t => exact .inr (congrArg some (h s hs t hquote).symbol)
    rwa [List.filterMap_some] at hsub
  served t ht := by
    obtain ⟨q, hq, rfl⟩ := List.mem_map.mp ht
    obtain ⟨s, hs, hquote⟩ := List.mem_filterMap.mp hq
    exact ⟨s, hs, h s hs q hquote⟩

/-- Tasks, each of which is answered a tick for its own symbol or none. -/
theorem bulkAnswered_gathered {ended : List CallEnd}
    (hall : (ended.map (·.task)).Perm (List.range symbols.length))
    (h : ∀ e ∈ ended, ∀ t, e.answer = some t → ∀ s, symbols[e.task]? = some s → ServedTick s p t) :
    BulkAnswered symbols p (ended.filterMap (·.answer)) := by
  have hplace : ∀ e ∈ ended, ∃ s, symbols[e.task]? = some s := by
    intro e he
    have hlt := List.mem_range.mp (hall.mem_iff.mp (List.mem_map_of_mem he))
    exact ⟨_, List.getElem?_eq_getElem hlt⟩
  refine ⟨?_, fun t ht => ?_⟩
  · have hsub : List.Sublist (ended.filterMap fun e => e.answer.map (·.symbol))
        (ended.filterMap fun e => symbols[e.task]?) := by
      refine filterMap_sublist fun e he => ?_
      cases hanswer : e.answer with
      | none => exact .inl rfl
      | some t =>
        obtain ⟨s, hs⟩ := hplace e he
        rw [hs]
        exact .inr (congrArg some (h e he t hanswer s hs).symbol)
    have hperm := hall.filterMap (symbols[·]?)
    rw [range_filterMap_getElem, List.filterMap_map] at hperm
    rw [List.map_filterMap]
    exact hsub.subperm.trans hperm.subperm
  · obtain ⟨e, he, hanswer⟩ := List.mem_filterMap.mp ht
    obtain ⟨s, hs⟩ := hplace e he
    exact ⟨s, List.mem_of_getElem? hs, h e he t hanswer s hs⟩

/-- **Every provider keeps the promise.** -/
theorem bulkParsed_answered (hnames : ∀ s ∈ symbols, OwnName upper s)
    (h : BulkParsed upper scrapeConcurrency symbols p ts) : BulkAnswered symbols p ts := by
  cases h with
  | gathered hplan hinit hr hreturned hparsed =>
    obtain ⟨past, hinv⟩ := run_bulkInv hinit hr
    rw [hinv.results]
    refine bulkAnswered_gathered (hinv.returned hreturned) fun e he t hanswer s hs => ?_
    have hcall := run_answers hinit hr e he
    rw [hanswer] at hcall
    obtain ⟨a, ha, rfl⟩ := hparsed _ _ _ s hcall hs
    obtain ⟨hupper, hname⟩ := hnames s (List.mem_of_getElem? hs)
    exact hname ▸ (parsedFrom_tickOf hupper ha).served
  | nseArchive rows =>
    refine bulkAnswered_loop fun s hs t ht => ?_
    obtain ⟨row, hrow, hparse⟩ := Option.bind_eq_some_iff.mp ht
    obtain ⟨hupper, hname⟩ := hnames s hs
    have hquote : nseFetchQuote upper rows s = .ok t := by
      unfold nseFetchQuote
      rw [hrow]
      exact toOption_eq_some.1 hparse
    exact hname ▸ (parsedFrom_tickOf hupper (.nseArchive hquote)).served
  | bseArchive rows =>
    refine bulkAnswered_loop fun s hs t ht => ?_
    obtain ⟨row, hrow, hparse⟩ := Option.bind_eq_some_iff.mp ht
    obtain ⟨hupper, hname⟩ := hnames s hs
    have hquote : bseFetchQuote upper rows s = .ok t := by
      unfold bseFetchQuote
      rw [hrow]
      exact toOption_eq_some.1 hparse
    exact hname ▸ (parsedFrom_tickOf hupper (.bseArchive hquote)).served
  | yahoo data =>
    refine bulkAnswered_loop fun s hs t ht => ?_
    split at ht
    · cases ht
    · have hyahoo := parseYahooData_tick (toOption_eq_some.1 ht)
      have hvalid := (feedErrors_eq_nil_iff.1 t.valid).tick
      obtain ⟨-, hname⟩ := hnames s hs
      have htick : TickOf yahooFinanceProvider (normalizeSymbol upper s) t.args.toTickArgs :=
        ⟨hyahoo.symbol, hyahoo.source, .inr ⟨rfl, hyahoo.exchange⟩, hvalid.ltp,
          fun hp => absurd (by decide) hp, hvalid.volume⟩
      exact hname ▸ htick.served

end Answered

/-! ## 3. The controller -/

section Controller

variable {cfg : BreakerConfig} {fc : FailoverController} {single : ℕ → String → Attempt}

/-- A tick that is fetched alone was returned by a provider, for the symbol that it was asked for. -/
theorem mem_fetchEach_results {n : ℕ} {symbols : List String} {t : TickData}
    (ht : t ∈ (fetchEach cfg single n symbols fc).results) :
    ∃ i s, symbols[i]? = some s ∧ ∃ p ∈ fc.providers, (single (n + i) p.name).fetch = .tick t := by
  induction symbols generalizing n fc with
  | nil => cases ht
  | cons c symbols ih =>
    have hproviders : (fetchQuote cfg { symbol := c } (single n) fc).controller.providers =
        fc.providers := (cascade_switches cfg _ (single n) fc.providers fc []).1
    have hlater (hrest : t ∈ (fetchEach cfg single (n + 1) symbols
        (fetchQuote cfg { symbol := c } (single n) fc).controller).results) :
        ∃ i s, (c :: symbols)[i]? = some s ∧
          ∃ p ∈ fc.providers, (single (n + i) p.name).fetch = .tick t := by
      obtain ⟨i, s, hs, p, hp, hfetch⟩ := ih hrest
      rw [hproviders] at hp
      rw [show n + 1 + i = n + (i + 1) by omega] at hfetch
      exact ⟨i + 1, s, hs, p, hp, hfetch⟩
    cases hres : (fetchQuote cfg { symbol := c } (single n) fc).result with
    | ok t' =>
      rw [fetchEach_ok hres] at ht
      rcases List.mem_cons.mp ht with rfl | hrest
      · obtain ⟨p, hp, hfetch⟩ := fetchQuote_ok hres
        exact ⟨0, c, rfl, p, hp, hfetch⟩
      · exact hlater hrest
    | error e =>
      rw [fetchEach_error hres] at ht
      exact hlater ht

/-- **Every provider keeps the promise of bulk quotes.** For different symbols in upper case, and
    whatever the providers are answered: a provider returns in bulk one tick at most for each symbol
    that was asked for and no other, and in `fetch_quote` a tick for its symbol; and every tick that
    `fetch_bulk` of the controller returns is one of a provider of its own for a requested symbol, with
    the name, the exchange and the price that such a tick has. -/
theorem bulk_promise_kept {cfg : BreakerConfig} {fc : FailoverController} {call : BulkCall}
    {upper : String → String} {scrapeConcurrency : ℤ} (hsymbols : call.symbols.Nodup)
    (hnames : ∀ s ∈ call.symbols, OwnName upper s)
    (hbulk : ∀ p ∈ fc.providers, ∀ ts, (call.bulk p.name).fetch = .ticks ts →
      BulkParsed upper scrapeConcurrency call.symbols p ts)
    (hsingle : ∀ n s, (fetchedAlone cfg call fc)[n]? = some s →
      AllParsed upper s (call.single n) fc.providers) :
    AnswerAsAsked cfg call fc ∧
      ∀ t ∈ (fetchBulk cfg call fc).results, ∃ p ∈ fc.providers, ∃ s ∈ call.symbols,
        ServedTick s p t := by
  have hanswered : ∀ p ∈ fc.providers, ∀ ts, (call.bulk p.name).fetch = .ticks ts →
      BulkAnswered call.symbols p ts :=
    fun p hp ts hts => bulkParsed_answered hnames (hbulk p hp ts hts)
  have halone : ∀ n s, (fetchedAlone cfg call fc)[n]? = some s → ∀ p ∈ fc.providers, ∀ t,
      (call.single n p.name).fetch = .tick t → s ∈ call.symbols ∧ ServedTick s p t := by
    intro n s hs p hp t ht
    have hmem := (mem_fetchedAlone.1 (List.mem_of_getElem? hs)).1
    obtain ⟨hupper, hname⟩ := hnames s hmem
    obtain ⟨a, ha, rfl⟩ := hsingle n s hs p hp t ht
    exact ⟨hmem, hname ▸ (parsedFrom_tickOf hupper ha).served⟩
  refine ⟨⟨fun p hp ts hts => ?_, fun p hp ts hts t ht => ?_, fun n s hs p hp t ht => ?_⟩, fun t ht => ?_⟩
  · obtain ⟨l, hperm, hsub⟩ := (hanswered p hp ts hts).once
    exact hperm.nodup_iff.mp (hsub.nodup hsymbols)
  · obtain ⟨s, hs, hserved⟩ := (hanswered p hp ts hts).served t ht
    exact hserved.symbol ▸ hs
  · exact (halone n s hs p hp t ht).2.symbol
  · rw [fetchBulk_results] at ht
    rcases List.mem_append.mp ht with ht | ht
    · have hne : (bulkLoop cfg call.bulk fc.providers fc).ticks ≠ [] := List.ne_nil_of_mem ht
      obtain ⟨p, hp, hfetch⟩ := bulkLoop_ticks hne
      obtain ⟨s, hs, hserved⟩ := (hanswered p hp _ hfetch).served t ht
      exact ⟨p, hp, s, hs, hserved⟩
    · obtain ⟨n, s, hs, p, hp, hfetch⟩ := mem_fetchEach_results ht
      rw [(bulkLoop_switches call.bulk fc.providers fc).1] at hp
      rw [Nat.zero_add] at hfetch
      obtain ⟨hmem, hserved⟩ := halone n s hs p hp t hfetch
      exact ⟨p, hp, s, hmem, hserved⟩

end Controller

/-- Groww has a price for RELIANCE, and does not answer for TCS. -/
def growwGathers : List BulkAction :=
  [.begins 0 0, .begins 1 0, .answered 1 none 1,
    .answered 0 (some ⟨"RELIANCE", .NSE, 2450, 7, "groww"⟩) 1, .moves 1]

/-- The ticks of that run; nobody knows TCS. -/
def gatheredCall : BulkCall where
  symbols := ["RELIANCE", "TCS"]
  bulk := fun _ =>
    { checkedAt := 0, startedAt := 0, endedAt := 1
      fetch := .ticks [⟨"RELIANCE", .NSE, 2450, 7, "groww"⟩] }
  single := fun _ _ =>
    { checkedAt := 1, startedAt := 1, endedAt := 2
      fetch := .providerError ⟨"groww", "Symbol not found: TCS"⟩ }

theorem growwGathers_parsed :
    BulkParsed upper 10 ["RELIANCE", "TCS"] growwProvider [⟨"RELIANCE", .NSE, 2450, 7, "groww"⟩] := by
  have hrun : ((BulkFetch.init (growwBulk 10) ["RELIANCE", "TCS"] 0).bind fun s =>
      run BulkFetch.step s growwGathers).map (fun s => (s.todo, s.results)) =
        some ([], [⟨"RELIANCE", .NSE, 2450, 7, "groww"⟩]) := by decide +kernel
  obtain ⟨s, hs, hvalue⟩ := Option.map_eq_some_iff.mp hrun
  obtain ⟨s₀, hinit, hr⟩ := Option.bind_eq_some_iff.mp hs
  have hparse : (growwParse upper [("ltp", .int 2450), ("close", .int 2400), ("volume", .int 7)]
      (upper "RELIANCE")).toOption.map (·.args.toTickArgs.tick) =
        some ⟨"RELIANCE", .NSE, 2450, 7, "groww"⟩ := by decide +kernel
  obtain ⟨q, hq, htick⟩ := Option.map_eq_some_iff.mp hparse
  have hresults : s.results = [⟨"RELIANCE", .NSE, 2450, 7, "groww"⟩] := congrArg Prod.snd hvalue
  rw [← hresults]
  refine .gathered (p := growwProvider) (by simp [gatherers]) hinit hr (congrArg Prod.fst hvalue) ?_
  intro i t time symbol hcall hsymbol
  simp only [growwGathers, List.mem_cons, BulkAction.answered.injEq, reduceCtorEq, false_or,
    List.not_mem_nil, or_false, Option.some.injEq, false_and, and_false] at hcall
  obtain ⟨rfl, rfl, -⟩ := hcall
  cases hsymbol
  exact ⟨_, .groww (toOption_eq_some.1 hq), htick.symm⟩

theorem bulk_promise_kept_groww : ∃ p ∈ [growwProvider], ∃ s ∈ ["RELIANCE", "TCS"],
    ServedTick s p ⟨"RELIANCE", .NSE, 2450, 7, "groww"⟩ := by
  refine (@bulk_promise_kept (.ofArgs {}) ((FailoverController.registerProvider {}
    growwProvider).setConnected "groww" true) gatheredCall upper 10 (by decide) ?_ ?_ ?_).2 _
    (by decide +kernel)
  · simp only [gatheredCall, List.forall_mem_cons, List.not_mem_nil, false_implies, implies_true,
      and_true]
    exact ⟨⟨by decide +kernel, by decide +kernel⟩, by decide +kernel, by decide +kernel⟩
  · intro p hp ts hts
    cases List.mem_singleton.mp hp
    cases hts
    exact growwGathers_parsed
  · intro n s hs p hp t ht
    cases ht

end BharatTicker
