/-
  File:      BharatTicker/Quotes/Bulk.lean
  Subject:   THE BULK QUOTE ENDPOINT (`api/endpoints/quotes.py`: `get_bulk_quotes`) OVER THE TICK CACHE.

  One pipeline reads the ticks of all symbols; each symbol without one, and each whose hash makes no
  quote, is fetched by itself, one after another. Over any history of the cache the endpoint is the
  function of the ticks last written that `bulk_quotes_last_write` states. What a fetch answers is
  input, told by the place of the symbol among the misses.

  * `BulkQuoteCall`, `getBulkQuotes` -- the endpoint, its two loops `readCached` and `fetchMisses`;
  * `liveTick`, `OwnTicks` -- the ticks that the cache still has, each under its own pair;
  * `bulk_quotes_last_write` -- any history, any request.
-/
import BharatTicker.Quotes
import BharatTicker.TickerCache.LastWrite

namespace BharatTicker

open Basis TickerCache

/-! ## 1. The endpoint -/

/-- A request: the parts of `symbols` between its commas, and what it meets. -/
structure BulkQuoteCall where
  symbols : List String
  exchange : Exchange
  /-- When the pipeline is run. -/
  readAt : ℚ
  /-- What `get_quote_through` answers for the misses, by their places. -/
  through : ℕ → String → Option FullTick := fun _ _ => none
  answeredAt : ℚ := readAt

inductive BulkStatus where
  | success
  | partialAnswer
  deriving DecidableEq, Repr

def BulkStatus.str : BulkStatus → String
  | .success => "success"
  | .partialAnswer => "partial"

/-- `BulkQuoteResponse`, without the market state and the time stamp. -/
structure BulkQuoteResponse where
  status : BulkStatus
  data : List FullQuoteData
  failedSymbols : List String
  source : String := "redis_cache"
  dataQuality : DataQuality
  providerTier : Nat := 1
  deriving DecidableEq, Repr

namespace BulkQuoteCall

/-- `[s.strip().upper() for s in symbols.split(",") if s.strip()][:50]`, of the parts. -/
def symbolList (call : BulkQuoteCall) : List String :=
  ((call.symbols.filter fun s => strip s ≠ "").map fun s => upper (strip s)).take 50

/-- The loop over the ticks that were read: the quotes, and `miss`. -/
def readCached (ticks : Dict String Hash) : List String → List FullQuoteData × List String
  | [] => ([], [])
  | sym :: rest =>
    let (data, miss) := readCached ticks rest
    match (Dict.get? ticks sym).filter fun hash => hash ≠ [] with
    | some hash =>
      match buildQuoteFromCache hash with
      | some quote => (quote :: data, miss)
      | none => (data, sym :: miss)
    | none => (data, sym :: miss)

/-- The loop over the misses, from the place `n` on: the quotes, and `failed`. -/
def fetchMisses (through : ℕ → String → Option FullTick) : ℕ → List String →
    List FullQuoteData × List String
  | _, [] => ([], [])
  | n, sym :: rest =>
    let (data, failed) := fetchMisses through (n + 1) rest
    match through n sym with
    | some tick => (buildQuoteFromTick tick :: data, failed)
    | none => (data, sym :: failed)

/-- `get_bulk_quotes`. -/
def getBulkQuotes (isTradingHoliday : ℤ → Bool) (call : BulkQuoteCall) (store : MemoryStore) :
    Except HttpException BulkQuoteResponse :=
  if call.symbolList = [] then .error ⟨400, "No valid symbols provided"⟩
  else
    let ticks := (getBulkTicks call.symbolList call.exchange call.readAt store).1
    let (data, miss) := readCached ticks call.symbolList
    let (fetched, failed) := fetchMisses call.through 0 miss
    .ok
      { status := if failed = [] then .success else .partialAnswer
        data := data ++ fetched
        failedSymbols := failed
        dataQuality :=
          if isMarketOpen isTradingHoliday call.answeredAt then .realTime else .endOfDay }

/-! ## 2. The loops -/

/-- **The loop over the ticks that were read**, where each is the hash of a written tick: it makes a
    quote of each of them, so that the symbols that miss are those without one. -/
theorem readCached_eq {ticks : Dict String Hash} {live : String → Option WrittenTick}
    {syms : List String} (h : ∀ sym ∈ syms, Dict.get? ticks sym =
      (live sym).map fun w => tickToHash w.tick w.cachedAt) :
    readCached ticks syms = (syms.filterMap fun sym => (live sym).map fun w => readBack w.tick,
      syms.filter fun sym => (live sym).isNone) := by
  induction syms with
  | nil => rfl
  | cons sym rest ih =>
    have hrest := ih fun s hs => h s (List.mem_cons_of_mem _ hs)
    have hsym := h sym List.mem_cons_self
    unfold readCached
    rw [hrest, hsym]
    cases hlive : live sym with
    | none =>
      rw [List.filterMap_cons_none (by rw [hlive]; rfl), List.filter_cons_of_pos (by rw [hlive]; rfl)]
      rfl
    | some w =>
      have hne : tickToHash w.tick w.cachedAt ≠ [] := List.cons_ne_nil _ _
      rw [List.filterMap_cons_some (by rw [hlive]; rfl), List.filter_cons_of_neg (by simp [hlive])]
      rw [Option.map_some, Option.filter_some, if_pos (decide_eq_true hne)]
      dsimp only
      rw [buildQuoteFromCache_tickToHash]

theorem fetchMisses_eq (through : ℕ → String → Option FullTick) (n : ℕ) (miss : List String) :
    fetchMisses through n miss =
      ((miss.zipIdx n).filterMap fun x => (through x.2 x.1).map buildQuoteFromTick,
        ((miss.zipIdx n).filter fun x => (through x.2 x.1).isNone).map (·.1)) := by
  induction miss generalizing n with
  | nil => rfl
  | cons sym rest ih =>
    unfold fetchMisses
    rw [ih, List.zipIdx_cons]
    cases hthrough : through n sym with
    | none =>
      rw [List.filterMap_cons_none (by rw [hthrough]; rfl),
        List.filter_cons_of_pos (by rw [hthrough]; rfl)]
      rfl
    | some tick =>
      rw [List.filterMap_cons_some (by rw [hthrough]; rfl),
        List.filter_cons_of_neg (by simp [hthrough])]

/-- Each symbol gives a quote or is left over. -/
theorem length_readCached (ticks : Dict String Hash) (syms : List String) :
    (readCached ticks syms).1.length + (readCached ticks syms).2.length = syms.length := by
  induction syms with
  | nil => rfl
  | cons sym rest ih =>
    unfold readCached
    dsimp only
    rw [List.length_cons]
    split
    · split
      · simp only [List.length_cons]
        omega
      · simp only [List.length_cons]
        omega
    · simp only [List.length_cons]
      omega

theorem length_fetchMisses (through : ℕ → String → Option FullTick) (n : ℕ) (miss : List String) :
    (fetchMisses through n miss).1.length + (fetchMisses through n miss).2.length =
      miss.length := by
  induction miss generalizing n with
  | nil => rfl
  | cons sym rest ih =>
    have hrest := ih (n + 1)
    unfold fetchMisses
    dsimp only
    rw [List.length_cons]
    split
    · simp only [List.length_cons]
      omega
    · simp only [List.length_cons]
      omega

/-! ## 3. The ticks that the cache has -/

/-- The tick last written for the symbol, as long as its time to live has not passed. -/
def liveTick (cfg : CacheSettings) (call : BulkQuoteCall) (s : CacheHistory) (sym : String) :
    Option WrittenTick :=
  (s.ticks call.exchange sym).filter fun w => call.readAt - w.time < cfg.tickTtlSeconds

/-- Each tick was written for its own pair. -/
def OwnTicks (s : CacheHistory) : Prop :=
  ∀ e sym w, s.ticks e sym = some w → w.tick.exchange = e ∧ w.tick.symbol = sym

theorem step_ownTicks {cfg : CacheSettings} {dumps : TickMessage → String} {s s' : CacheHistory}
    {a : CacheCall × ℚ} (h : OwnTicks s) (hs : step cfg dumps s a = some s') : OwnTicks s' := by
  obtain ⟨-, hs⟩ := Option.ite_none_right_eq_some.mp hs
  cases hs
  obtain ⟨action, now⟩ := a
  cases action with
  | setTick tick cachedAt =>
    intro e sym w hw
    have hw : updatePair s.ticks tick.exchange tick.symbol (some ⟨tick, cachedAt, now⟩) e sym =
        some w := hw
    by_cases hpair : e = tick.exchange ∧ sym = tick.symbol
    · obtain ⟨rfl, rfl⟩ := hpair
      rw [updatePair_self] at hw
      cases hw
      exact ⟨rfl, rfl⟩
    · rw [updatePair_of_ne hpair] at hw
      exact h e sym w hw
  | setMarketDepth symbol e depth updatedAt => exact h
  | getTick symbol e => exact h
  | getMarketDepth symbol e => exact h
  | getBulkTicks symbols e => exact h

/-- **What the pipeline finds for a symbol**: the hash of the tick that the cache still has. -/
theorem get?_getBulkTicks {cfg : CacheSettings} {s : CacheHistory} {call : BulkQuoteCall}
    (h : TickInv cfg.tickTtlSeconds s) (hnow : s.now ≤ call.readAt) {syms : List String}
    {sym : String} (hsym : sym ∈ syms) :
    Dict.get? (getBulkTicks syms call.exchange call.readAt s.store).1 sym =
      (liveTick cfg call s sym).map fun w => tickToHash w.tick w.cachedAt := by
  rw [bulk_eq_single, if_pos hsym]
  refine ((h call.exchange sym).later hnow).read.trans ?_
  unfold liveTick
  cases s.ticks call.exchange sym with
  | none => rfl
  | some w =>
    rw [Option.bind_some, Option.filter_some]
    by_cases hlive : call.readAt - w.time < cfg.tickTtlSeconds
    · rw [if_pos hlive, if_pos (decide_eq_true hlive)]
      rfl
    · rw [if_neg hlive, if_neg (by simpa using hlive)]
      rfl

/-! ## 4. Any history -/

/-- **The bulk endpoint over the tick cache.** After any calls of the cache at non-decreasing times, a
    request with a symbol in it is answered with the quotes of the ticks last written for its symbols
    that have not expired, in the order asked for, each of its own symbol and exchange, and after
    them with those of the ticks that are fetched for the other symbols, in that order; what is not
    fetched is reported, in order. So no symbol asked for is lost or answered twice, and no cached
    tick is fetched. -/
theorem bulk_quotes_last_write {cfg : CacheSettings} {dumps : TickMessage → String} {t₀ : ℚ}
    {calls : List (CacheCall × ℚ)} {s : CacheHistory} (isTradingHoliday : ℤ → Bool)
    (hr : run (step cfg dumps) { now := t₀ } calls = some s) {call : BulkQuoteCall}
    (hnow : s.now ≤ call.readAt) :
    (call.symbolList = [] → getBulkQuotes isTradingHoliday call s.store =
      .error ⟨400, "No valid symbols provided"⟩) ∧
    (call.symbolList ≠ [] → ∃ r, getBulkQuotes isTradingHoliday call s.store = .ok r ∧
      r.data = (call.symbolList.filterMap fun sym =>
          (liveTick cfg call s sym).map fun w => readBack w.tick) ++
        ((call.symbolList.filter fun sym => (liveTick cfg call s sym).isNone).zipIdx.filterMap
          fun x => (call.through x.2 x.1).map buildQuoteFromTick) ∧
      r.failedSymbols =
        ((call.symbolList.filter fun sym => (liveTick cfg call s sym).isNone).zipIdx.filter
          fun x => (call.through x.2 x.1).isNone).map (·.1) ∧
      (r.status = .success ↔ r.failedSymbols = []) ∧
      r.data.length + r.failedSymbols.length = call.symbolList.length ∧
      call.symbolList.length ≤ 50) ∧
    ∀ sym w, liveTick cfg call s sym = some w →
      (readBack w.tick).info.symbol = sym ∧ (readBack w.tick).info.exchange = call.exchange := by
  have hticks : TickInv cfg.tickTtlSeconds s :=
    run_invariant (fun s a s' hI hs => step_holdsTick hI hs) (tickInv_init _ t₀) hr
  have hown : OwnTicks s :=
    run_invariant (fun s a s' hI hs => step_ownTicks hI hs) (fun e sym w hw => by cases hw) hr
  refine ⟨fun hnone => if_pos hnone, fun hsome => ?_, fun sym w hw => ?_⟩
  · have hread : readCached (getBulkTicks call.symbolList call.exchange call.readAt s.store).1
        call.symbolList = _ :=
      readCached_eq fun sym hsym => get?_getBulkTicks hticks hnow hsym
    have hlen := length_readCached
      (getBulkTicks call.symbolList call.exchange call.readAt s.store).1 call.symbolList
    have hfetched := length_fetchMisses call.through 0
      (call.symbolList.filter fun sym => (liveTick cfg call s sym).isNone)
    rw [hread] at hlen
    refine ⟨_, if_neg hsome, ?_, ?_, ?_, ?_, List.length_take_le ..⟩
    all_goals dsimp only
    · rw [hread, fetchMisses_eq]
    · rw [hread, fetchMisses_eq]
    · rw [hread]
      split
      · rename_i hnone
        exact iff_of_true rfl hnone
      · rename_i hfailed
        exact iff_of_false nofun hfailed
    · rw [hread, List.length_append]
      dsimp only at hlen hfetched ⊢
      omega
  · obtain ⟨hexchange, hsymbol⟩ := hown call.exchange sym w (Option.filter_eq_some_iff.mp hw).1
    exact ⟨hsymbol, hexchange⟩

/-- A request for a cached symbol, twice, and for two that were never written; the first of them is
    fetched. -/
def mixedRequest : BulkQuoteCall where
  symbols := [" reliance", "INFY", " ", "tcs", "RELIANCE"]
  exchange := .NSE
  readAt := 8
  through := fun n _ => if n = 0 then some zeroVwapTick else none

theorem bulk_quotes_last_write_mixed : ∃ s : CacheHistory,
    run (step {} TickMessage.symbol) { now := 0 }
      [(.setTick (relianceTick ⟨false, 2945, 0⟩ .NSE) "7.0", 7)] = some s ∧
    ∃ r, getBulkQuotes (fun _ => false) mixedRequest s.store = .ok r ∧
      r.data.map (fun quote => quote.price.ltp) =
        [⟨false, 2945, 0⟩, ⟨false, 2945, 0⟩, ⟨false, 2930, 0⟩] ∧
      r.failedSymbols = ["TCS"] ∧
      r.data.length + r.failedSymbols.length = mixedRequest.symbolList.length := by
  have hrun : (run (step {} TickMessage.symbol) { now := 0 }
      [(.setTick (relianceTick ⟨false, 2945, 0⟩ .NSE) "7.0", 7)]).map (fun s =>
        (decide (s.now ≤ 8), (getBulkQuotes (fun _ => false) mixedRequest s.store).toOption.map
          fun r => (r.data.map fun quote => quote.price.ltp, r.failedSymbols))) =
      some (true, some ([⟨false, 2945, 0⟩, ⟨false, 2945, 0⟩, ⟨false, 2930, 0⟩], ["TCS"])) := by
    decide +kernel
  obtain ⟨s, hs, hboth⟩ := Option.map_eq_some_iff.mp hrun
  obtain ⟨hnow, hserved⟩ := Prod.mk.inj hboth
  obtain ⟨-, hanswer, -⟩ :=
    @bulk_quotes_last_write _ _ _ _ _ (fun _ => false) hs mixedRequest (of_decide_eq_true hnow)
  obtain ⟨r, hr, -, -, -, hlen, -⟩ := hanswer (by decide +kernel)
  rw [hr] at hserved
  obtain ⟨hdata, hfailed⟩ := Prod.mk.inj (Option.some.inj hserved)
  exact ⟨s, hs, r, hr, hdata, hfailed, hlen⟩

end BulkQuoteCall

end BharatTicker
