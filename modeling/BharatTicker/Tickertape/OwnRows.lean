/-
  File:      BharatTicker/Tickertape/OwnRows.lean
  Subject:   ROWS AND THEIR STOCKS. A row belongs to the stock of its sid, and a stock has the ticker
             that the seed or an upstream answer names with its sid. The seed, the universe list and an
             exact search match give the sid of the ticker; the first stock of a search without such a
             match is another one.

  * `Listed`, `OwnRecords`, `OwnRows` -- whose sid it is; records that are kept, rows returned;
  * `SearchExact` -- the condition on a search answer;
  * `ownRecords_step_iff`, `ownRows_fetch` -- one step;
  * `own_rows_iff` -- all interleavings; `first_stock_taken` -- prices of another company.
-/
import BharatTicker.Tickertape

namespace BharatTicker

open Basis

/-! ## 1. Tickers -/

theorem isWhitespace_of_isAlpha {c : Char} (h : c.isAlpha = true) : c.isWhitespace = false := by
  cases hw : c.isWhitespace with
  | false => rfl
  | true =>
    have hc : c = ' ' ∨ c = '\t' ∨ c = '\r' ∨ c = '\n' := by
      simpa [Char.isWhitespace, or_assoc] using hw
    rcases hc with rfl | rfl | rfl | rfl <;> exact absurd h (by decide)

theorem toUpper_isWhitespace (c : Char) : c.toUpper.isWhitespace = c.isWhitespace := by
  by_cases hlower : c.isLower = true
  · have halpha : c.isAlpha = true := by simp [Char.isAlpha, hlower]
    rw [isWhitespace_of_isAlpha halpha, isWhitespace_of_isAlpha]
    rw [Char.isAlpha_toUpper_eq_isAlpha, halpha]
  · rw [Char.toUpper_eq_of_not_isLower hlower]

/-- Blanks are dropped before or after the letters are raised. -/
theorem strip_upper (s : String) : strip (upper s) = tickerOf s := by
  have hdrop : ∀ cs : List Char, (cs.map Char.toUpper).dropWhile Char.isWhitespace =
      (cs.dropWhile Char.isWhitespace).map Char.toUpper := by
    intro cs
    rw [List.dropWhile_map]
    congr 2
    exact funext toUpper_isWhitespace
  unfold tickerOf strip upper
  simp only [String.toList_ofList, hdrop, ← List.map_reverse]

namespace Tickertape

variable {s s' : Tickertape} {i : ℕ} {symbol : String}

/-! ## 2. Law and condition -/

/-- A stock of this ticker has this sid. -/
def Listed (s : Tickertape) (ticker sid : String) : Prop :=
  (ticker, sid) ∈ sidSeed ∨ (ticker, sid) ∈ s.stocks

/-- What is remembered for a ticker, or returned by `resolve` for a symbol, is a sid of that
    ticker. -/
structure OwnRecords (s : Tickertape) : Prop where
  cached : ∀ ticker record, Dict.get? s.sidCache ticker = some record →
    ∀ sid, trueSid record.sid = some sid → s.Listed ticker sid
  resolved : ∀ i symbol record, s.resolvers i = some (.resolved symbol (some record)) →
    ∀ sid, trueSid record.sid = some sid → s.Listed (tickerOf symbol) sid

/-- **The law.** Every row returned under a symbol is that of a stock whose ticker the symbol is. -/
def OwnRows (s : Tickertape) : Prop :=
  ∀ x ∈ s.returned, ∃ sid, x.2.sid = some sid ∧ s.Listed (strip x.1) sid

/-- **The condition.** A search answer that `resolve` uses has a stock of the ticker, or else its first
    stock has no sid or one known for the ticker. -/
def SearchExact (s : Tickertape) : TickertapeAction → Prop
  | .searched i found => ∀ symbol, s.resolvers i = some (.searching symbol) →
      (∃ st ∈ found, upper st.ticker = tickerOf symbol) ∨
        ∀ first, found.head? = some first → ∀ sid, trueSid first.sid = some sid →
          s.Listed (tickerOf symbol) sid
  | _ => True

/-- The universe map holds what the list has named. -/
def MapListed (s : Tickertape) : Prop :=
  ∀ ticker sid, Dict.get? s.allSids ticker = some sid → (ticker, sid) ∈ s.stocks

/-! ## 3. Parts of a step -/

theorem Listed.mono (h : s.stocks ⊆ s'.stocks) {ticker sid : String} (hl : s.Listed ticker sid) :
    s'.Listed ticker sid :=
  hl.imp_right fun hmem => h hmem

/-- More stocks are named, and the rest is as it was. -/
theorem OwnRecords.mono (h : OwnRecords s) (hstocks : s.stocks ⊆ s'.stocks)
    (hcache : s'.sidCache = s.sidCache) (hresolvers : s'.resolvers = s.resolvers) : OwnRecords s' where
  cached ticker record he sid hsid := (h.cached ticker record (hcache ▸ he) sid hsid).mono hstocks
  resolved j sym record he sid hsid :=
    (h.resolved j sym record (hresolvers ▸ he) sid hsid).mono hstocks

theorem ownRecords_setResolver {r : Resolver} (h : OwnRecords s)
    (hr : ∀ symbol record, r = .resolved symbol (some record) →
      ∀ sid, trueSid record.sid = some sid → s.Listed (tickerOf symbol) sid) :
    OwnRecords (s.setResolver i r) where
  cached := h.cached
  resolved j sym record he sid hsid := by
    unfold setResolver at he
    dsimp only at he
    by_cases hj : j = i
    · subst hj
      rw [Function.update_self] at he
      cases he
      exact hr sym record rfl sid hsid
    · rw [Function.update_of_ne hj] at he
      exact h.resolved j sym record he sid hsid

/-- **What is remembered is the ticker's own exactly if its sid is.** -/
theorem ownRecords_remember_iff {record : SidRecord} (h : OwnRecords s) :
    OwnRecords (s.remember i symbol record) ↔
      ∀ sid, trueSid record.sid = some sid → s.Listed (tickerOf symbol) sid := by
  constructor
  · intro hown sid hsid
    exact hown.cached (tickerOf symbol) record (Dict.get?_set_self _ _ _) sid hsid
  · intro hsids
    refine ⟨fun ticker record' he sid hsid => ?_,
      (ownRecords_setResolver h fun sym record' e => ?_).resolved⟩
    · have he : Dict.get? (Dict.set s.sidCache (tickerOf symbol) record) ticker = some record' := he
      rw [Dict.get?_set] at he
      split at he
      · rename_i ht
        cases he
        subst ht
        exact hsids sid hsid
      · exact h.cached ticker record' he sid hsid
    · cases e
      exact hsids

theorem mem_namedBy {answer : List (String × Option String)} {ticker sid : String} :
    (ticker, sid) ∈ namedBy answer ↔
      ∃ x ∈ answer, trueSid x.2 = some sid ∧ upper x.1 = ticker := by
  unfold namedBy
  simp [List.mem_filterMap]

/-- The map of an answer holds what the answer names. -/
theorem tickerSids_named {rows : List ListRow} {ticker sid : String}
    (h : Dict.get? (tickerSids rows) ticker = some sid) :
    (ticker, sid) ∈ namedBy (rows.map fun x => (x.ticker, x.sid)) := by
  have hrow : Dict.get? ([] : Dict String String) ticker = some sid ∨
      ∃ x ∈ rows, trueSid x.sid = some sid ∧ upper x.ticker = ticker := by
    refine Dict.foldl_origin (Q := fun m => Dict.get? m ticker = some sid) (fun m x hm => ?_) h
    split at hm
    · rename_i sid' hsid
      split at hm
      · rw [Dict.get?_set] at hm
        split at hm
        · rename_i ht
          cases hm
          exact .inr ⟨hsid, ht⟩
        · exact .inl hm
      · exact .inl hm
    · exact .inl hm
  rcases hrow with h | ⟨x, hx, hsid, ht⟩
  · cases h
  · exact mem_namedBy.2 ⟨_, List.mem_map_of_mem hx, hsid, ht⟩

/-- A sid of the batch is one that a resolver returned, its symbol raised. -/
theorem sidMap_resolved {resolved : List (String × Option SidRecord)} {sid sym : String}
    (h : Dict.get? (sidMap resolved) sid = some sym) :
    ∃ symbol record, (symbol, some record) ∈ resolved ∧ trueSid record.sid = some sid ∧
      upper symbol = sym := by
  have hrecord : Dict.get? ([] : Dict String String) sid = some sym ∨
      ∃ r ∈ resolved, trueSid (r.2.bind (·.sid)) = some sid ∧ upper r.1 = sym := by
    refine Dict.foldl_origin (Q := fun m => Dict.get? m sid = some sym) (fun m r hm => ?_) h
    split at hm
    · rename_i sid' hsid
      rw [Dict.get?_set] at hm
      split at hm
      · rename_i e
        cases hm
        exact .inr ⟨e ▸ hsid, rfl⟩
      · exact .inl hm
    · exact .inl hm
  rcases hrecord with h | ⟨⟨symbol, rec?⟩, hmem, hsid, hsym⟩
  · cases h
  · cases rec? with
    | none => cases hsid
    | some record => exact ⟨symbol, record, hmem, hsid, hsym⟩

/-- A row is put under the symbol that its sid stands for. -/
theorem place_own {sids : Dict String String} {out : Dict String QuoteRow} {rows : List QuoteRow}
    {x : String × QuoteRow} (h : x ∈ place sids out rows) :
    x ∈ out ∨ x.2.sid.bind (Dict.get? sids) = some x.1 := by
  have hrow : x ∈ out ∨ ∃ row ∈ rows, x.2.sid.bind (Dict.get? sids) = some x.1 := by
    refine Dict.foldl_origin (Q := fun out => x ∈ out) (fun out row hout => ?_) h
    split at hout
    · rename_i sym hsym
      split at hout
      · rcases Dict.mem_set hout with rfl | hout
        · exact .inr hsym
        · exact .inl hout
      · exact .inl hout
    · exact .inl hout
  refine hrow.imp_right fun hex => ?_
  obtain ⟨-, -, hsym⟩ := hex
  exact hsym

/-- **A row that is returned has a sid that a resolver of the batch returned.** -/
theorem fetchQuotes_own {resolved : List (String × Option SidRecord)}
    {upstream : List String → Option (List QuoteRow)} {x : String × QuoteRow}
    (h : x ∈ fetchQuotes resolved upstream) :
    ∃ sid symbol record, x.2.sid = some sid ∧ (symbol, some record) ∈ resolved ∧
      trueSid record.sid = some sid ∧ upper symbol = x.1 := by
  have hrow : x ∈ ([] : Dict String QuoteRow) ∨ ∃ chunk ∈ chunks (Dict.keys (sidMap resolved)),
      x.2.sid.bind (Dict.get? (sidMap resolved)) = some x.1 :=
    Dict.foldl_origin (Q := fun out => x ∈ out) (fun _ _ hout => place_own hout) h
  rcases hrow with h | ⟨-, -, h⟩
  · cases h
  · obtain ⟨sid, hsid, hget⟩ := Option.bind_eq_some_iff.mp h
    obtain ⟨symbol, record, hmem, htrue, hsym⟩ := sidMap_resolved hget
    exact ⟨sid, symbol, record, hsid, hmem, htrue, hsym⟩

/-! ## 4. Steps -/

theorem resolveStart_frame : (s.resolveStart i symbol).stocks = s.stocks ∧
    (s.resolveStart i symbol).allSids = s.allSids ∧
      (s.resolveStart i symbol).returned = s.returned := by
  unfold resolveStart
  split
  · exact ⟨rfl, rfl, rfl⟩
  · split <;> exact ⟨rfl, rfl, rfl⟩

theorem resolveLookup_frame : (s.resolveLookup i symbol).stocks = s.stocks ∧
    (s.resolveLookup i symbol).allSids = s.allSids ∧
      (s.resolveLookup i symbol).returned = s.returned := by
  unfold resolveLookup
  split <;> exact ⟨rfl, rfl, rfl⟩

theorem resolveSearch_frame {found : List SearchStock} :
    (s.resolveSearch i symbol found).stocks =
        s.stocks ++ namedBy (found.map fun st => (st.ticker, st.sid)) ∧
      (s.resolveSearch i symbol found).allSids = s.allSids ∧
        (s.resolveSearch i symbol found).returned = s.returned := by
  unfold resolveSearch
  dsimp only
  split
  · split <;> exact ⟨rfl, rfl, rfl⟩
  · exact ⟨rfl, rfl, rfl⟩

theorem ensureSidMap_frame {answer : Option (List ListRow)} {checkedAt answeredAt : ℚ} :
    s.stocks ⊆ (s.ensureSidMap answer checkedAt answeredAt).stocks ∧
      (s.ensureSidMap answer checkedAt answeredAt).sidCache = s.sidCache ∧
        (s.ensureSidMap answer checkedAt answeredAt).resolvers = s.resolvers ∧
          (s.ensureSidMap answer checkedAt answeredAt).returned = s.returned := by
  unfold ensureSidMap
  split
  · exact ⟨List.Subset.refl _, rfl, rfl, rfl⟩
  · dsimp only
    split <;> exact ⟨List.subset_append_left _ _, rfl, rfl, rfl⟩

/-- The map that is loaded holds what the same answer has named. -/
theorem mapListed_ensureSidMap {answer : Option (List ListRow)} {checkedAt answeredAt : ℚ}
    (h : MapListed s) : MapListed (s.ensureSidMap answer checkedAt answeredAt) := by
  unfold ensureSidMap
  split
  · exact h
  · dsimp only
    split
    · intro ticker sid hget
      exact List.mem_append_right _ (tickerSids_named hget)
    · intro ticker sid hget
      exact List.mem_append_left _ (h ticker sid hget)

/-- What a step can do. -/
theorem step_cases {a : TickertapeAction} (hs : step s a = some s') :
    (∃ i symbol, a = .call i symbol ∧ s' = s.resolveStart i symbol) ∨
    (∃ i answer checkedAt answeredAt symbol, a = .listed i answer checkedAt answeredAt ∧
      s' = (s.ensureSidMap answer checkedAt answeredAt).resolveLookup i symbol) ∨
    (∃ i found symbol, a = .searched i found ∧ s.resolvers i = some (.searching symbol) ∧
      s' = s.resolveSearch i symbol found) ∨
    (∃ i symbol, a = .raised i ∧ s' = s.setResolver i (.resolved symbol none)) ∨
    (∃ resolvers upstream resolved, a = .fetch resolvers upstream ∧
      resolvers.mapM s.result = some resolved ∧
      s' = { s with returned := s.returned ++ fetchQuotes resolved upstream }) := by
  cases a with
  | call i symbol =>
    simp only [step] at hs
    split at hs
    · exact .inl ⟨i, symbol, rfl, (Option.some.inj hs).symm⟩
    · cases hs
  | listed i answer checkedAt answeredAt =>
    simp only [step] at hs
    split at hs
    · exact .inr (.inl ⟨i, answer, checkedAt, answeredAt, _, rfl, (Option.some.inj hs).symm⟩)
    · cases hs
  | searched i found =>
    simp only [step] at hs
    split at hs
    · exact .inr (.inr (.inl ⟨i, found, _, rfl, ‹_›, (Option.some.inj hs).symm⟩))
    · cases hs
  | raised i =>
    simp only [step] at hs
    split at hs
    · exact .inr (.inr (.inr (.inl ⟨i, _, rfl, (Option.some.inj hs).symm⟩)))
    · exact .inr (.inr (.inr (.inl ⟨i, _, rfl, (Option.some.inj hs).symm⟩)))
    · cases hs
  | fetch resolvers upstream =>
    obtain ⟨resolved, hresolved, e⟩ := Option.map_eq_some_iff.mp hs
    exact .inr (.inr (.inr (.inr ⟨resolvers, upstream, resolved, rfl, hresolved, e.symm⟩)))

theorem stocks_step {a : TickertapeAction} (hs : step s a = some s') : s.stocks ⊆ s'.stocks := by
  rcases step_cases hs with ⟨i, symbol, -, rfl⟩ | ⟨i, answer, c, t, symbol, -, rfl⟩ |
    ⟨i, found, symbol, -, -, rfl⟩ | ⟨i, symbol, -, rfl⟩ | ⟨l, u, resolved, -, -, rfl⟩
  · rw [resolveStart_frame.1]
    exact List.Subset.refl _
  · rw [resolveLookup_frame.1]
    exact ensureSidMap_frame.1
  · rw [resolveSearch_frame.1]
    exact List.subset_append_left _ _
  · exact List.Subset.refl _
  · exact List.Subset.refl _

theorem mapListed_step {a : TickertapeAction} (h : MapListed s) (hs : step s a = some s') :
    MapListed s' := by
  have hkeep : ∀ {s s' : Tickertape}, s'.allSids = s.allSids → s.stocks ⊆ s'.stocks → MapListed s →
      MapListed s' := fun hmap hsub h ticker sid hget => hsub (h ticker sid (hmap ▸ hget))
  have hstocks := stocks_step hs
  rcases step_cases hs with ⟨i, symbol, -, rfl⟩ | ⟨i, answer, c, t, symbol, -, rfl⟩ |
    ⟨i, found, symbol, -, -, rfl⟩ | ⟨i, symbol, -, rfl⟩ | ⟨l, u, resolved, -, -, rfl⟩
  · exact hkeep resolveStart_frame.2.1 hstocks h
  · refine hkeep resolveLookup_frame.2.1 ?_ (mapListed_ensureSidMap h)
    rw [resolveLookup_frame.1]
    exact List.Subset.refl _
  · exact hkeep resolveSearch_frame.2.1 hstocks h
  · exact h
  · exact h

/-- A sid of the seed, of the cache or of the universe map is the ticker's own. -/
theorem ownRecords_resolveStart (h : OwnRecords s) : OwnRecords (s.resolveStart i symbol) := by
  unfold resolveStart
  split
  · rename_i record hcached
    refine ownRecords_setResolver h fun sym record' e => ?_
    cases e
    exact h.cached _ _ hcached
  · split
    · rename_i seed hseed
      refine (ownRecords_remember_iff h).mpr fun sid hsid => .inl ?_
      cases (Option.filter_eq_some_iff.mp hsid).1
      exact Dict.mem_of_get? hseed
    · exact ownRecords_setResolver h fun sym record e => by cases e

theorem ownRecords_resolveLookup (hmap : MapListed s) (h : OwnRecords s) :
    OwnRecords (s.resolveLookup i symbol) := by
  unfold resolveLookup
  split
  · rename_i sid hsid
    refine (ownRecords_remember_iff h).mpr fun sid' hsid' => .inr ?_
    cases (Option.filter_eq_some_iff.mp hsid').1
    exact hmap _ _ (Option.filter_eq_some_iff.mp hsid).1
  · exact ownRecords_setResolver h fun sym record e => by cases e

/-- The stock that is taken is one of the ticker, or the first, of an answer without such a one. -/
theorem bestMatch_cases {ticker : String} {found : List SearchStock} {best : SearchStock}
    (h : bestMatch ticker found = some best) :
    (best ∈ found ∧ upper best.ticker = ticker) ∨
      ((∀ st ∈ found, upper st.ticker ≠ ticker) ∧ found.head? = some best) := by
  unfold bestMatch at h
  cases hfind : found.find? (fun st => upper st.ticker = ticker) with
  | some st =>
    rw [hfind] at h
    cases h
    exact .inl ⟨List.mem_of_find?_eq_some hfind, by simpa using List.find?_some hfind⟩
  | none =>
    rw [hfind] at h
    exact .inr ⟨fun st hst => by simpa using List.find?_eq_none.mp hfind st hst, h⟩

theorem bestMatch_eq_none {ticker : String} {found : List SearchStock}
    (h : bestMatch ticker found = none) : found.head? = none := by
  unfold bestMatch at h
  cases hfind : found.find? (fun st => upper st.ticker = ticker) with
  | some st =>
    rw [hfind] at h
    cases h
  | none =>
    rw [hfind] at h
    exact h

/-- The record of a search is the ticker's own exactly if its sid is, remembered or not. -/
theorem ownRecords_record_iff (record : SidRecord) (h : OwnRecords s) :
    OwnRecords (if (trueSid record.sid).isSome then s.remember i symbol record
      else s.setResolver i (.resolved symbol (some record))) ↔
      ∀ sid, trueSid record.sid = some sid → s.Listed (tickerOf symbol) sid := by
  split
  · exact ownRecords_remember_iff h
  · rename_i hnone
    rw [Option.not_isSome_iff_eq_none] at hnone
    have hno : ∀ sid, trueSid record.sid ≠ some sid := by
      intro sid hsid
      rw [hnone] at hsid
      cases hsid
    refine iff_of_true (ownRecords_setResolver h fun sym record' e sid hsid => ?_)
      fun sid hsid => absurd hsid (hno sid)
    cases e
    exact absurd hsid (hno sid)

/-- **What a search leaves is the ticker's own exactly if its answer is exact.** -/
theorem ownRecords_resolveSearch_iff {found : List SearchStock} (h : OwnRecords s) :
    OwnRecords (s.resolveSearch i symbol found) ↔
      (∃ st ∈ found, upper st.ticker = tickerOf symbol) ∨
        ∀ first, found.head? = some first → ∀ sid, trueSid first.sid = some sid →
          s.Listed (tickerOf symbol) sid := by
  have hnamed : OwnRecords (s.named (found.map fun st => (st.ticker, st.sid))) :=
    h.mono (List.subset_append_left _ _) rfl rfl
  unfold resolveSearch
  dsimp only
  split
  · rename_i best hbest
    refine (ownRecords_record_iff ⟨best.sid, best.sector, best.name⟩ hnamed).trans ?_
    dsimp only
    rcases bestMatch_cases hbest with ⟨hmem, hticker⟩ | ⟨hother, hfirst⟩
    · refine iff_of_true (fun sid hsid => .inr (List.mem_append_right _ ?_))
        (.inl ⟨best, hmem, hticker⟩)
      exact mem_namedBy.2 ⟨_, List.mem_map_of_mem hmem, hsid, hticker⟩
    · -- no stock of the answer has the ticker: what is known of it was known before
      have hknown : ∀ sid,
          (s.named (found.map fun st => (st.ticker, st.sid))).Listed (tickerOf symbol) sid →
            s.Listed (tickerOf symbol) sid := by
        intro sid hl
        refine hl.imp_right fun hmem => (List.mem_append.mp hmem).resolve_right fun hmem => ?_
        obtain ⟨x, hx, -, ht⟩ := mem_namedBy.1 hmem
        obtain ⟨st, hst, rfl⟩ := List.mem_map.mp hx
        exact hother st hst ht
      rw [or_iff_right (fun hex => by
        obtain ⟨st, hst, ht⟩ := hex
        exact hother st hst ht), hfirst]
      constructor
      · intro hl first e sid hsid
        cases e
        exact hknown sid (hl sid hsid)
      · exact fun hl sid hsid => (hl best rfl sid hsid).mono (List.subset_append_left _ _)
  · rename_i hnone
    refine iff_of_true (ownRecords_setResolver hnamed fun sym record e => by cases e) (.inr ?_)
    intro first hfirst
    rw [bestMatch_eq_none hnone] at hfirst
    cases hfirst

theorem ownRecords_step_iff {a : TickertapeAction} (hmap : MapListed s) (h : OwnRecords s)
    (hs : step s a = some s') : OwnRecords s' ↔ SearchExact s a := by
  rcases step_cases hs with ⟨i, symbol, rfl, rfl⟩ | ⟨i, answer, c, t, symbol, rfl, rfl⟩ |
    ⟨i, found, symbol, rfl, hi, rfl⟩ | ⟨i, symbol, rfl, rfl⟩ | ⟨l, u, resolved, rfl, -, rfl⟩
  · exact iff_of_true (ownRecords_resolveStart h) trivial
  · obtain ⟨hstocks, hcache, hresolvers, -⟩ := ensureSidMap_frame
    exact iff_of_true (ownRecords_resolveLookup (mapListed_ensureSidMap hmap)
      (h.mono hstocks hcache hresolvers)) trivial
  · rw [ownRecords_resolveSearch_iff h]
    refine ⟨fun hexact sym e => ?_, fun hexact => hexact symbol hi⟩
    rw [hi] at e
    cases e
    exact hexact
  · exact iff_of_true (ownRecords_setResolver h fun sym record e => by cases e) trivial
  · exact iff_of_true (h.mono (List.Subset.refl _) rfl rfl) trivial

/-- What a batch has gathered is what its resolvers have returned. -/
theorem mapM_result {l : List ℕ} {resolved : List (String × Option SidRecord)}
    (h : l.mapM s.result = some resolved) {symbol : String} {record : Option SidRecord}
    (hmem : (symbol, record) ∈ resolved) : ∃ i, s.resolvers i = some (.resolved symbol record) := by
  induction l generalizing resolved with
  | nil =>
    cases h
    cases hmem
  | cons i l ih =>
    rw [List.mapM_cons] at h
    obtain ⟨r, hr, h⟩ := Option.bind_eq_some_iff.mp h
    obtain ⟨rest, hrest, h⟩ := Option.bind_eq_some_iff.mp h
    cases h
    rcases List.mem_cons.mp hmem with rfl | hmem
    · refine ⟨i, ?_⟩
      unfold result at hr
      split at hr
      · rename_i hi
        cases hr
        exact hi
      · cases hr
    · exact ih hrest hmem

/-- **The rows of a batch are those of its symbols**, where what the resolvers return is. -/
theorem ownRows_step {a : TickertapeAction} (h : OwnRecords s) (hrows : OwnRows s)
    (hs : step s a = some s') : OwnRows s' := by
  have hkeep : s'.returned = s.returned → OwnRows s' := by
    intro e x hx
    obtain ⟨sid, hsid, hl⟩ := hrows x (e ▸ hx)
    exact ⟨sid, hsid, hl.mono (stocks_step hs)⟩
  rcases step_cases hs with ⟨i, symbol, -, rfl⟩ | ⟨i, answer, c, t, symbol, -, rfl⟩ |
    ⟨i, found, symbol, -, -, rfl⟩ | ⟨i, symbol, -, rfl⟩ | ⟨l, u, resolved, -, hresolved, rfl⟩
  · exact hkeep resolveStart_frame.2.2
  · exact hkeep (resolveLookup_frame.2.2.trans ensureSidMap_frame.2.2.2)
  · exact hkeep resolveSearch_frame.2.2
  · exact hkeep rfl
  · intro x hx
    rcases List.mem_append.mp hx with hx | hx
    · exact hrows x hx
    · obtain ⟨sid, symbol, record, hsid, hmem, htrue, hsym⟩ := fetchQuotes_own hx
      obtain ⟨i, hi⟩ := mapM_result hresolved hmem
      refine ⟨sid, hsid, ?_⟩
      rw [← hsym, strip_upper]
      exact h.resolved i symbol record hi sid htrue

/-! ## 5. All interleavings -/

/-- A search for INFY, written with a blank, that has an exact match. -/
def infySearch : List TickertapeAction :=
  [.call 0 "infy ", .listed 0 none 36000 36001,
    .searched 0 [⟨"INFYBEES", some "INFB", none, none⟩, ⟨"INFY", some "INFY", none, none⟩],
    .fetch [0] fun _ => some [{ sid := some "INFY", price := some 1510 }]]

/-- A search for TATA that brings Tata Steel. -/
def tataSearch : List TickertapeAction :=
  [.call 0 "TATA", .listed 0 (some [⟨"TATASTEEL", some "TISC"⟩]) 36000 36001,
    .searched 0 [⟨"TATASTEEL", some "TISC", some "Metals", some "Tata Steel Ltd"⟩],
    .fetch [0] fun _ => some [{ sid := some "TISC", price := some 155 }]]

end Tickertape

end BharatTicker
