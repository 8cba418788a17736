/-
  File:      BharatTicker/Failover/Coverage.lean
  Subject:   A BULK FETCH NEITHER LOSES NOR DUPLICATES (`engine/failover.py`: `fetch_bulk`).

  The bulk loop answers some of the symbols with one provider; the others go through `fetch_quote`
  one by one. What the providers promise is a hypothesis on the environment; breakers, connections
  and failures are arbitrary.

  * `fetchedAlone` -- the symbols that are left for `fetch_quote`;
  * `AnswerAsAsked` -- the promise: no tick that was not asked for, and none twice;
  * `RaisedAlone` -- the cascade for a symbol was run, where the call stood then, and raised;
  * `bulkLoop_ticks`, `fetchQuote_ok` -- a tick comes from a provider;
  * `OwnTicks`, `fetchEach_sublist`, `fetchEach_missing` -- one symbol after another;
  * `bulk_coverage` -- the whole call.
-/
import BharatTicker.Failover.Bulk

namespace BharatTicker

section Coverage

variable (cfg : BreakerConfig)

/-! ## 1. What is promised and what is left -/

/-- The symbols that `fetch_bulk` fetches alone: those without a tick in the bulk answer. -/
def fetchedAlone (call : BulkCall) (fc : FailoverController) : List String :=
  let l := bulkLoop cfg call.bulk fc.providers fc
  if l.ticks = [] then call.symbols
  else call.symbols.filter fun s => s ∉ l.ticks.map (·.symbol)

/-- `fetch_bulk` of a provider returns at most one tick per requested symbol and no others; its
    `fetch_quote(s)` returns a tick for `s`. -/
structure AnswerAsAsked (call : BulkCall) (fc : FailoverController) : Prop where
  once : ∀ p ∈ fc.providers, ∀ ts, (call.bulk p.name).fetch = .ticks ts →
    (ts.map (·.symbol)).Nodup
  requested : ∀ p ∈ fc.providers, ∀ ts, (call.bulk p.name).fetch = .ticks ts →
    ∀ t ∈ ts, t.symbol ∈ call.symbols
  own : ∀ n s, (fetchedAlone cfg call fc)[n]? = some s →
    ∀ p ∈ fc.providers, ∀ t, (call.single n p.name).fetch = .tick t → t.symbol = s

/-- The individual cascade for `s` was run, after those for the symbols before it, and raised. -/
def RaisedAlone (call : BulkCall) (fc : FailoverController) (s : String) : Prop :=
  ∃ n e, (fetchedAlone cfg call fc)[n]? = some s ∧
    (fetchQuote cfg { symbol := s } (call.single n)
      (fetchEach cfg call.single 0 ((fetchedAlone cfg call fc).take n)
        (bulkLoop cfg call.bulk fc.providers fc).controller).controller).result = .error e

variable {cfg} {fc : FailoverController}

/-! ## 2. Where a tick comes from -/

/-- A round returns what its provider's fetch returned, or nothing. -/
theorem bulkRound_fetch {a : BulkAttempt} {p : Provider} (h : (bulkRound cfg a p fc).ticks ≠ []) :
    a.fetch = .ticks (bulkRound cfg a p fc).ticks := by
  unfold bulkRound at h ⊢
  split at h
  · exact absurd rfl h
  · dsimp only at h ⊢
    split at h
    · rename_i hc
      rw [if_pos hc]
      split at h
      · exact absurd rfl h
      · split at h
        · rename_i hfetch
          rw [hfetch]
        · exact absurd rfl h
    · exact absurd rfl h

/-- The ticks of the loop are those of one provider. -/
theorem bulkLoop_ticks {bulk : String → BulkAttempt} {ps : List Provider}
    (h : (bulkLoop cfg bulk ps fc).ticks ≠ []) :
    ∃ p ∈ ps, (bulk p.name).fetch = .ticks (bulkLoop cfg bulk ps fc).ticks := by
  induction ps generalizing fc with
  | nil => exact absurd rfl h
  | cons p ps ih =>
    unfold bulkLoop at h ⊢
    dsimp only at h ⊢
    by_cases hticks : (bulkRound cfg (bulk p.name) p fc).ticks ≠ []
    · rw [if_pos hticks]
      exact ⟨p, List.mem_cons_self, bulkRound_fetch hticks⟩
    · rw [if_neg hticks] at h ⊢
      obtain ⟨q, hq, hfetch⟩ := ih h
      exact ⟨q, List.mem_cons_of_mem p hq, hfetch⟩

theorem cascade_result_fetch {req : QuoteRequest} {env : String → Attempt} {ps : List Provider}
    {errors : List String} {t : TickData} (h : (cascade cfg req env ps fc errors).result = .ok t) :
    ∃ p ∈ ps, (env p.name).fetch = .tick t := by
  induction ps generalizing fc errors with
  | nil => cases h
  | cons p ps ih =>
    cases ho : (tryProvider cfg req (env p.name) p fc).outcome with
    | answer t' =>
      rw [cascade_answer ho] at h
      cases h
      exact ⟨p, List.mem_cons_self, (tryProvider_answer.1 ho).fetches⟩
    | next e =>
      rw [cascade_next ho] at h
      obtain ⟨q, hq, hfetch⟩ := ih h
      exact ⟨q, List.mem_cons_of_mem p hq, hfetch⟩

/-- A quote that `fetch_quote` returns was returned by a registered provider. -/
theorem fetchQuote_ok {req : QuoteRequest} {env : String → Attempt} {t : TickData}
    (h : (fetchQuote cfg req env fc).result = .ok t) :
    ∃ p ∈ fc.providers, (env p.name).fetch = .tick t :=
  cascade_result_fetch h

/-! ## 3. One symbol after another -/

section Each

variable {single : ℕ → String → Attempt}

theorem fetchEach_ok {n : ℕ} {s : String} {symbols : List String} {t : TickData}
    (h : (fetchQuote cfg { symbol := s } (single n) fc).result = .ok t) :
    (fetchEach cfg single n (s :: symbols) fc).results =
      t :: (fetchEach cfg single (n + 1) symbols
        (fetchQuote cfg { symbol := s } (single n) fc).controller).results := by
  simp only [fetchEach, h, List.singleton_append]

theorem fetchEach_error {n : ℕ} {s : String} {symbols : List String} {e : ProviderError}
    (h : (fetchQuote cfg { symbol := s } (single n) fc).result = .error e) :
    (fetchEach cfg single n (s :: symbols) fc).results =
      (fetchEach cfg single (n + 1) symbols
        (fetchQuote cfg { symbol := s } (single n) fc).controller).results := by
  simp only [fetchEach, h, List.nil_append]

/-- From the `n`-th quote on, what a provider returns for a symbol is a tick for it. -/
def OwnTicks (single : ℕ → String → Attempt) (n : ℕ) (symbols : List String)
    (fc : FailoverController) : Prop :=
  ∀ i s, symbols[i]? = some s →
    ∀ p ∈ fc.providers, ∀ t, (single (n + i) p.name).fetch = .tick t → t.symbol = s

theorem OwnTicks.head {n : ℕ} {s : String} {symbols : List String} {t : TickData}
    (h : OwnTicks single n (s :: symbols) fc)
    (hres : (fetchQuote cfg { symbol := s } (single n) fc).result = .ok t) : t.symbol = s := by
  obtain ⟨p, hp, hfetch⟩ := fetchQuote_ok hres
  exact h 0 s rfl p hp t hfetch

/-- The providers do not change, so the same holds of the controller for the next symbol. -/
theorem OwnTicks.next {n : ℕ} {s : String} {symbols : List String}
    (h : OwnTicks single n (s :: symbols) fc) :
    OwnTicks single (n + 1) symbols (fetchQuote cfg { symbol := s } (single n) fc).controller := by
  intro i s' hi p hp t ht
  have hproviders : (fetchQuote cfg { symbol := s } (single n) fc).controller.providers =
      fc.providers := (cascade_switches cfg _ (single n) fc.providers fc []).1
  rw [hproviders] at hp
  rw [show n + 1 + i = n + (i + 1) by omega] at ht
  exact h (i + 1) s' hi p hp t ht

/-- **In order, and each at most once:** the symbols answered are among those asked for. -/
theorem fetchEach_sublist {n : ℕ} {symbols : List String} (hown : OwnTicks single n symbols fc) :
    List.Sublist ((fetchEach cfg single n symbols fc).results.map (·.symbol)) symbols := by
  induction symbols generalizing n fc with
  | nil => exact List.Sublist.refl []
  | cons s symbols ih =>
    have hrest : List.Sublist ((fetchEach cfg single (n + 1) symbols
        (fetchQuote cfg { symbol := s } (single n) fc).controller).results.map (·.symbol))
        symbols := ih hown.next
    cases hres : (fetchQuote cfg { symbol := s } (single n) fc).result with
    | ok t =>
      rw [fetchEach_ok hres, List.map_cons, hown.head hres]
      exact List.Sublist.cons_cons s hrest
    | error e =>
      rw [fetchEach_error hres]
      exact List.Sublist.cons s hrest

/-- **A symbol without a tick was tried, and its cascade raised.** -/
theorem fetchEach_missing {n : ℕ} {symbols : List String} {s : String}
    (hown : OwnTicks single n symbols fc) (hs : s ∈ symbols)
    (hmissing : s ∉ (fetchEach cfg single n symbols fc).results.map (·.symbol)) :
    ∃ i e, symbols[i]? = some s ∧ (fetchQuote cfg { symbol := s } (single (n + i))
      (fetchEach cfg single n (symbols.take i) fc).controller).result = .error e := by
  induction symbols generalizing n fc with
  | nil => cases hs
  | cons c symbols ih =>
    have hlater (h : s ∈ symbols) (hno : s ∉ (fetchEach cfg single (n + 1) symbols
        (fetchQuote cfg { symbol := c } (single n) fc).controller).results.map (·.symbol)) :
        ∃ i e, (c :: symbols)[i]? = some s ∧ (fetchQuote cfg { symbol := s } (single (n + i))
          (fetchEach cfg single n ((c :: symbols).take i) fc).controller).result = .error e := by
      obtain ⟨i, e, hi, he⟩ := ih hown.next h hno
      refine ⟨i + 1, e, hi, ?_⟩
      rw [show n + (i + 1) = n + 1 + i by omega]
      exact he
    cases hres : (fetchQuote cfg { symbol := c } (single n) fc).result with
    | ok t =>
      rw [fetchEach_ok hres, List.map_cons, hown.head hres, List.mem_cons, not_or] at hmissing
      exact hlater ((List.mem_cons.mp hs).resolve_left hmissing.1) hmissing.2
    | error e =>
      rw [fetchEach_error hres] at hmissing
      rcases List.mem_cons.mp hs with rfl | hs
      · exact ⟨0, e, rfl, hres⟩
      · exact hlater hs hmissing

end Each

/-! ## 4. The whole call -/

/-- What a call returns: the bulk ticks, then those fetched alone. -/
theorem fetchBulk_results (call : BulkCall) (fc : FailoverController) :
    (fetchBulk cfg call fc).results = (bulkLoop cfg call.bulk fc.providers fc).ticks ++
      (fetchEach cfg call.single 0 (fetchedAlone cfg call fc)
        (bulkLoop cfg call.bulk fc.providers fc).controller).results := rfl

/-- What is left was requested, and has no tick in the bulk answer. -/
theorem mem_fetchedAlone {call : BulkCall} {s : String} :
    s ∈ fetchedAlone cfg call fc ↔
      s ∈ call.symbols ∧ s ∉ (bulkLoop cfg call.bulk fc.providers fc).ticks.map (·.symbol) := by
  unfold fetchedAlone
  dsimp only
  split
  · rename_i h
    simp [h]
  · simp

theorem fetchedAlone_sublist (call : BulkCall) (fc : FailoverController) :
    (fetchedAlone cfg call fc).Sublist call.symbols := by
  unfold fetchedAlone
  dsimp only
  split
  · exact List.Sublist.refl call.symbols
  · exact List.filter_sublist

/-- The bulk answer, when there is one, is that of one provider. -/
theorem bulkLoop_asAsked {call : BulkCall} (h : AnswerAsAsked cfg call fc) :
    ((bulkLoop cfg call.bulk fc.providers fc).ticks.map (·.symbol)).Nodup ∧
      ∀ t ∈ (bulkLoop cfg call.bulk fc.providers fc).ticks, t.symbol ∈ call.symbols := by
  by_cases hticks : (bulkLoop cfg call.bulk fc.providers fc).ticks = []
  · rw [hticks]
    exact ⟨List.nodup_nil, fun t ht => by cases ht⟩
  · obtain ⟨p, hp, hfetch⟩ := bulkLoop_ticks hticks
    exact ⟨h.once p hp _ hfetch, h.requested p hp _ hfetch⟩

/-- The bulk loop does not change the providers either. -/
theorem ownTicks_alone {call : BulkCall} (h : AnswerAsAsked cfg call fc) :
    OwnTicks call.single 0 (fetchedAlone cfg call fc)
      (bulkLoop cfg call.bulk fc.providers fc).controller := by
  intro i s hi p hp t ht
  have hproviders : (bulkLoop cfg call.bulk fc.providers fc).controller.providers = fc.providers :=
    (bulkLoop_switches call.bulk fc.providers fc).1
  rw [hproviders] at hp
  rw [Nat.zero_add] at ht
  exact h.own i s hi p hp t ht

/-- **Bulk quotes are neither lost nor duplicated.** -/
theorem bulk_coverage (cfg : BreakerConfig) (fc : FailoverController) (call : BulkCall)
    (hsymbols : call.symbols.Nodup) (hanswers : AnswerAsAsked cfg call fc) :
    ((fetchBulk cfg call fc).results.map (·.symbol)).Nodup ∧
    (∀ t ∈ (fetchBulk cfg call fc).results, t.symbol ∈ call.symbols) ∧
    ∀ s ∈ call.symbols, s ∉ (fetchBulk cfg call fc).results.map (·.symbol) →
      RaisedAlone cfg call fc s := by
  have hown := ownTicks_alone hanswers
  have halone : List.Sublist ((fetchEach cfg call.single 0 (fetchedAlone cfg call fc)
      (bulkLoop cfg call.bulk fc.providers fc).controller).results.map (·.symbol))
      (fetchedAlone cfg call fc) := fetchEach_sublist hown
  obtain ⟨honce, hasked⟩ := bulkLoop_asAsked hanswers
  rw [fetchBulk_results, List.map_append]
  refine ⟨?_, ?_, ?_⟩
  · refine List.nodup_append'.mpr ⟨honce, ?_, ?_⟩
    · exact halone.nodup ((fetchedAlone_sublist call fc).nodup hsymbols)
    · intro s hs hs'
      exact (mem_fetchedAlone.1 (halone.subset hs')).2 hs
  · intro t ht
    rcases List.mem_append.mp ht with ht | ht
    · exact hasked t ht
    · exact (mem_fetchedAlone.1 (halone.subset (List.mem_map_of_mem ht))).1
  · intro s hs hmissing
    rw [List.mem_append, not_or] at hmissing
    obtain ⟨i, e, hi, he⟩ := fetchEach_missing hown (mem_fetchedAlone.2 ⟨hs, hmissing.1⟩)
      hmissing.2
    rw [Nat.zero_add] at he
    exact ⟨i, e, hi, he⟩

/-- Groww answers RELIANCE in bulk, and nobody knows TCS. -/
def relianceOfTwo : BulkCall where
  symbols := ["RELIANCE", "TCS"]
  bulk := fun _ =>
    { checkedAt := 0, startedAt := 0, endedAt := 0
      fetch := .ticks [{ symbol := "RELIANCE", exchange := .NSE, ltp := 2450, source := "groww" }] }
  single := fun _ _ =>
    { checkedAt := 0, startedAt := 0, endedAt := 0
      fetch := .providerError ⟨"groww", "Symbol not found: TCS"⟩ }

theorem bulk_coverage_missing :
    RaisedAlone (.ofArgs {}) relianceOfTwo
      ((FailoverController.registerProvider {} growwProvider).setConnected "groww" true) "TCS" := by
  refine (bulk_coverage (.ofArgs {})
    ((FailoverController.registerProvider {} growwProvider).setConnected "groww" true)
    relianceOfTwo (by decide) ⟨?_, ?_, ?_⟩).2.2 "TCS" (by decide) (by decide)
  · intro p hp ts hts
    cases hts
    exact List.nodup_singleton "RELIANCE"
  · intro p hp ts hts t ht
    cases hts
    rw [List.mem_singleton.mp ht]
    exact List.mem_cons_self
  · intro n s hs p hp t ht
    cases ht

end Coverage

end BharatTicker
