/-
  File:      BharatTicker/SbQuotes/YearRange.lean
  Subject:   WHETHER THE 52-WEEK BOUNDS OF A SERVED QUOTE CONTAIN ITS PRICE. `_sb_quote` clamps them to
             the tick that they come with; `_fill_open` copies them into a quote that was made of a row
             of another feed.

  * `SbQuote.Contains`, `BoundsFit` -- the relation, and when a tick's bounds fit a row;
  * `sbQuoteSingle`, `serve` -- `sb_quote`, and any sequence of it, requests for many symbols and
    turns of the warm loop;
  * `fillOpen_at` -- a fill sees one symbol at a time;
  * `fill_contains_iff` -- what is gathered and filled in contains the prices exactly where the ticks
    fit;
  * `year_range_iff`, `year_range_other_feed` -- all sequences, and two feeds that disagree.
-/
import BharatTicker.SbIntraday
import BharatTicker.SbQuotes.Exchanges
import BharatTicker.SbQuotes.SessionOpen

namespace BharatTicker

open Basis

/-! ## 1. Bounds -/

/-- The 52-week low is at most, and the high at least, each price that the quote has. -/
structure SbQuote.Contains (q : SbQuote) : Prop where
  low : ∀ w ∈ q.week52Low, (∀ x ∈ q.price, w ≤ x) ∧ ∀ x ∈ q.low, w ≤ x
  high : ∀ w ∈ q.week52High, (∀ x ∈ q.price, x ≤ w) ∧ ∀ x ∈ q.high, x ≤ w

/-- The bounds of the tick, or else its own prices, go as far as those of the row. -/
structure BoundsFit (row : TtRow) (tick : LiveTick) : Prop where
  low : ∀ w ∈ tick.week52Low, (∀ x ∈ row.price, w ≤ x ∨ tick.low ≤ x ∨ tick.ltp ≤ x) ∧
    ∀ x ∈ row.low, w ≤ x ∨ tick.low ≤ x ∨ tick.ltp ≤ x
  high : ∀ w ∈ tick.week52High, (∀ x ∈ row.price, x ≤ w ∨ x ≤ tick.high ∨ x ≤ tick.ltp) ∧
    ∀ x ∈ row.high, x ≤ w ∨ x ≤ tick.high ∨ x ≤ tick.ltp

section Bounds

variable (info : Option QuoteMeta) (tick : LiveTick)

/-- **The bounds are clamped to the tick that they come with.** -/
theorem sbQuote_contains : (sbQuote info tick).Contains := by
  constructor
  · intro w hw
    obtain ⟨v, -, rfl⟩ := Option.map_eq_some_iff.mp hw
    refine ⟨fun x hx => ?_, fun x hx => ?_⟩
    · obtain rfl := Option.some.inj hx
      exact (min_le_right _ _).trans (min_le_right _ _)
    · obtain rfl := Option.some.inj hx
      exact (min_le_right _ _).trans (min_le_left _ _)
  · intro w hw
    obtain ⟨v, -, rfl⟩ := Option.map_eq_some_iff.mp hw
    refine ⟨fun x hx => ?_, fun x hx => ?_⟩
    · obtain rfl := Option.some.inj hx
      exact (le_max_right _ _).trans (le_max_right _ _)
    · obtain rfl := Option.some.inj hx
      exact (le_max_left _ _).trans (le_max_right _ _)

theorem contains_of_unbounded {q : SbQuote} (hlow : q.week52Low = none)
    (hhigh : q.week52High = none) : q.Contains :=
  ⟨fun w hw => by simp [hlow] at hw, fun w hw => by simp [hhigh] at hw⟩

/-- Names have nothing to do with it. -/
theorem named_contains_iff (q : SbQuote) : (q.named info).Contains ↔ q.Contains :=
  ⟨fun h => ⟨h.low, h.high⟩, fun h => ⟨h.low, h.high⟩⟩

/-- **A row that is filled in from a tick** contains its prices exactly where the tick fits it. -/
theorem fill_contains (info' : Option QuoteMeta) (symbol : String) (row : TtRow) (now : ℚ) :
    ((sbQuoteFromTt info' symbol row).fill info tick now).Contains ↔ BoundsFit row tick := by
  have hlow : ((sbQuoteFromTt info' symbol row).fill info tick now).week52Low =
      tick.week52Low.map fun w => min w (min tick.low tick.ltp) := rfl
  have hhigh : ((sbQuoteFromTt info' symbol row).fill info tick now).week52High =
      tick.week52High.map fun w => max w (max tick.high tick.ltp) := rfl
  constructor
  · intro h
    constructor
    · intro w hw
      obtain ⟨hprice, hday⟩ := h.low (min w (min tick.low tick.ltp))
        (hlow.trans (by rw [Option.mem_def.mp hw]; rfl))
      simp only [min_le_iff] at hprice hday
      exact ⟨hprice, hday⟩
    · intro w hw
      obtain ⟨hprice, hday⟩ := h.high (max w (max tick.high tick.ltp))
        (hhigh.trans (by rw [Option.mem_def.mp hw]; rfl))
      simp only [le_max_iff] at hprice hday
      exact ⟨hprice, hday⟩
  · intro h
    constructor
    · intro w' hw'
      rw [hlow] at hw'
      obtain ⟨w, hw, rfl⟩ := Option.map_eq_some_iff.mp hw'
      simp only [min_le_iff]
      exact h.low w hw
    · intro w' hw'
      rw [hhigh] at hw'
      obtain ⟨w, hw, rfl⟩ := Option.map_eq_some_iff.mp hw'
      simp only [le_max_iff]
      exact h.high w hw

end Bounds

/-! ## 2. The endpoints -/

namespace QuotesState

/-- A request for one symbol. -/
structure SingleCall where
  symbol : String
  exchange : Exchange := .NSE
  enrich : Bool := true
  upstream : Upstream := {}

/-- `sb_quote`; the second component is `aliasedFrom`. -/
def sbQuoteSingle (cfg : QuoteSettings) (call : SingleCall) (now : ℚ) (st : QuotesState) :
    Except HttpException (SbQuote × Option String) × QuotesState :=
  let original := upper (strip call.symbol)
  match rejectIndex original with
  | some e => (.error e, st)
  | none =>
    let symbol := canonicalSymbol call.symbol
    let st := if call.enrich then st.enrichMeta call.upstream call.exchange symbol else st
    match st.liveQuote cfg call.upstream call.exchange now symbol with
    | (none, st) => (.error ⟨404, "No quote for " ++ symbol⟩, st)
    | (some tick, st) =>
      (.ok (sbQuote (st.info tick.symbol) tick, if symbol = original then none else some original),
        st)

/-- The quotes of `sb_quote` that have been served are kept beside the state. -/
structure Served where
  state : QuotesState := {}
  singles : List SbQuote := []

inductive ServeAction where
  | quotes (call : QuotesCall)
  | quote (call : SingleCall)
  /-- A turn of the warm loop, over the symbols that are to be kept hot. -/
  | warm (up : Upstream) (hot : List String)
  /-- `_live_quote` for another endpoint. -/
  | live (up : Upstream) (exchange : Exchange) (symbol : String)

/-- `_warm_symbols`. -/
def warmSymbols (hot : List String) : List String := (hot.map canonicalSymbol).take 200

def performServe (cfg : QuoteSettings) (now : ℚ) (s : Served) : ServeAction → Served
  | .quotes call => { s with state := s.state.sbQuotes cfg call now }
  | .quote call =>
    let r := s.state.sbQuoteSingle cfg call now
    { state := r.2, singles := s.singles ++ (r.1.toOption.map Prod.fst).toList }
  | .warm up hot => { s with state := s.state.warmRefreshOnce cfg up (warmSymbols hot) now }
  | .live up exchange symbol => { s with state := (s.state.liveQuote cfg up exchange now symbol).2 }

/-- An action at a time that is not before the last one's. -/
def serve (cfg : QuoteSettings) (s : Served) (a : ServeAction × ℚ) : Option Served :=
  if s.state.now ≤ a.2 then
    let s' := performServe cfg a.2 s a.1
    some { s' with state := { s'.state with now := a.2 } }
  else none

/-- Every quote that has been served, and every one that is kept warm, contains its prices. -/
structure AllContain (s : Served) : Prop where
  served : ∀ x ∈ s.state.served, x.2.2.Contains
  single : ∀ q ∈ s.singles, q.Contains
  warm : ∀ symbol hit, s.state.warm symbol = some hit → hit.2.Contains

/-- The tick in `_live_q_cache`, or else the feed's. -/
def tickFor (cfg : QuoteSettings) (up : Upstream) (e : Exchange) (now : ℚ) (st : QuotesState)
    (symbol : String) : Option LiveTick :=
  ((st.liveHit cfg e now symbol).map Prod.snd).or (up.live e symbol)

/-- Where a symbol is quoted from a row, the day's open is not remembered and there is a tick, this
    fits the row. -/
def FillsFit (cfg : QuoteSettings) (up : Upstream) (e : Exchange) (now : ℚ)
    (symbols : List String) (st : QuotesState) : Prop :=
  ∀ symbol ∈ symbols, ∀ row tick, fastRow up e false symbol = some row →
    (∀ o, st.sessionOpen symbol ≠ some (istDay now, o)) →
    st.tickFor cfg up e now symbol = some tick → BoundsFit row tick

/-- **The condition.** Each tick from which a request or a turn of the warm loop fills in the open of a
    row fits the row. -/
def Fits (cfg : QuoteSettings) (s : Served) (a : ServeAction × ℚ) : Prop :=
  match a.1 with
  | .quotes call => call.rich = false → call.fast = false →
    FillsFit cfg call.upstream call.exchange a.2
      (call.syms.filter fun symbol => (s.state.warmTaken cfg call a.2 symbol).isNone) s.state
  | .warm up hot => cfg.warmFast = false → FillsFit cfg up .NSE a.2 (warmSymbols hot) s.state
  | _ => True

/-! ## 3. One symbol at a time -/

/-- `str.upper` leaves a canonical symbol alone. -/
def Canonical (symbol : String) : Prop := upper symbol = symbol

theorem canonical_upper (s : String) : Canonical (upper s) := by
  unfold Canonical upper
  rw [String.toList_ofList, List.map_map]
  congr 1
  exact List.map_congr_left fun c _ => Char.toUpper_toUpper_eq_toUpper c

theorem canonical_canonicalSymbol (s : String) : Canonical (canonicalSymbol s) := by
  have hall : ∀ x ∈ symbolAliases, Canonical x.2 := by
    unfold Canonical
    decide
  unfold canonicalSymbol
  dsimp only
  cases halias : symbolAliases.lookup (upper (strip s)) with
  | none => exact canonical_upper _
  | some t => exact hall _ (lookup_mem halias)

theorem canonical_of_mem_syms {call : QuotesCall} {symbol : String} (h : symbol ∈ call.syms) :
    Canonical symbol := by
  obtain ⟨s, -, rfl⟩ := List.mem_map.mp (List.mem_of_mem_take h)
  exact canonical_canonicalSymbol s

theorem canonical_of_mem_warmSymbols {hot : List String} {symbol : String}
    (h : symbol ∈ warmSymbols hot) : Canonical symbol := by
  obtain ⟨s, -, rfl⟩ := List.mem_map.mp (List.mem_of_mem_take h)
  exact canonical_canonicalSymbol s

theorem Canonical.upper_ne {s t : String} (hs : Canonical s) (ht : Canonical t) (h : s ≠ t) :
    upper s ≠ upper t := by
  rwa [hs, ht]

/-- What a fill of the symbol depends on is the same. -/
structure SameAt (e : Exchange) (symbol : String) (acc acc' : QuoteMap × QuotesState) : Prop where
  quote : acc'.1 symbol = acc.1 symbol
  memo : acc'.2.sessionOpen symbol = acc.2.sessionOpen symbol
  live : acc'.2.liveCache e (upper symbol) = acc.2.liveCache e (upper symbol)
  info : acc'.2.info = acc.2.info

section Frames

variable {cfg : QuoteSettings} {up : Upstream} {e : Exchange} {now : ℚ} {rich : Bool}
  {st st' : QuotesState} {acc acc' acc'' : QuoteMap × QuotesState} {symbol other : String}

theorem SameAt.refl (e : Exchange) (symbol : String) (acc : QuoteMap × QuotesState) :
    SameAt e symbol acc acc := ⟨rfl, rfl, rfl, rfl⟩

theorem SameAt.trans (h : SameAt e symbol acc acc') (h' : SameAt e symbol acc' acc'') :
    SameAt e symbol acc acc'' :=
  ⟨h'.quote.trans h.quote, h'.memo.trans h.memo, h'.live.trans h.live, h'.info.trans h.info⟩

theorem liveQuote_tick (symbol : String) :
    (st.liveQuote cfg up e now symbol).1 = st.tickFor cfg up e now symbol := by
  unfold liveQuote tickFor
  cases st.liveHit cfg e now symbol with
  | some hit => rfl
  | none => cases up.live e symbol <;> rfl

theorem liveQuote_info (symbol : String) : (st.liveQuote cfg up e now symbol).2.info = st.info := by
  obtain ⟨live, memo, -, h⟩ := @liveQuote_touches cfg up e now st symbol
  rw [h]

/-- A live quote leaves the memo alone, and the cache of other symbols. -/
theorem liveQuote_frame (h : upper symbol ≠ upper other) (quotes : QuoteMap) :
    SameAt e symbol (quotes, st) (quotes, (st.liveQuote cfg up e now other).2) := by
  unfold liveQuote
  cases st.liveHit cfg e now other with
  | some hit => exact SameAt.refl ..
  | none =>
    cases up.live e other with
    | none => exact SameAt.refl ..
    | some tick =>
      refine ⟨rfl, rfl, ?_, rfl⟩
      dsimp only
      rw [Function.update_self, Function.update_of_ne h]

theorem SameAt.tick (h : SameAt e symbol acc acc') :
    acc'.2.tickFor cfg up e now symbol = acc.2.tickFor cfg up e now symbol := by
  unfold tickFor liveHit
  rw [h.live]

theorem filter_today_eq_none {st : QuotesState}
    (h : ∀ o, st.sessionOpen symbol ≠ some (istDay now, o)) :
    ((st.sessionOpen symbol).filter fun cached => cached.1 = istDay now) = none := by
  refine Option.filter_eq_none_iff.mpr fun cached hcached hday => h cached.2 ?_
  rw [← of_decide_eq_true hday]
  exact hcached

/-- What a fill makes of a quote. -/
theorem fillQuote_at (q : SbQuote) : (fillQuote cfg up e now acc symbol q).1 symbol =
    match (acc.2.sessionOpen symbol).filter fun cached => cached.1 = istDay now with
    | some cached => some { q with opening := some cached.2, filledAt := some now }
    | none =>
      match acc.2.tickFor cfg up e now symbol with
      | some tick => some (q.fill (acc.2.info tick.symbol) tick now)
      | none => acc.1 symbol := by
  have hself : ∀ q', Function.update acc.1 symbol (some q') symbol = some q' :=
    fun q' => Function.update_self ..
  rcases fillQuote_cases cfg up e now acc symbol q with ⟨o, hmemo, hfill⟩ |
    ⟨hno, ⟨tick, htick, hfill⟩ | ⟨htick, hfill⟩⟩
  · rw [hfill, hmemo, Option.filter_some, if_pos (decide_eq_true rfl)]
    exact hself _
  · rw [liveQuote_info] at hfill
    rw [hfill, filter_today_eq_none hno, ← liveQuote_tick, htick]
    exact hself _
  · rw [hfill, filter_today_eq_none hno, ← liveQuote_tick, htick]

theorem fillOne_congr (h : SameAt e symbol acc acc') :
    (fillOne cfg up e now acc' symbol).1 symbol = (fillOne cfg up e now acc symbol).1 symbol := by
  unfold fillOne
  rw [h.quote]
  cases hq : acc.1 symbol with
  | none => rw [h.quote, hq]
  | some q =>
    dsimp only
    split
    · rw [fillQuote_at, fillQuote_at, h.memo, h.tick, h.info, h.quote]
    · rw [h.quote]

/-- A fill of another symbol. -/
theorem fillOne_frame (hs : Canonical symbol) (ho : Canonical other) (h : symbol ≠ other) :
    SameAt e symbol acc (fillOne cfg up e now acc other) := by
  have hset : ∀ st q, SameAt e symbol (acc.1, st) (Function.update acc.1 other (some q), st) :=
    fun st q => ⟨Function.update_of_ne h .., rfl, rfl, rfl⟩
  have hmemo : ∀ quotes st o, SameAt e symbol (quotes, st)
      (quotes, { st with sessionOpen := Function.update st.sessionOpen other o }) :=
    fun quotes st o => ⟨rfl, Function.update_of_ne h .., rfl, rfl⟩
  have hlive : SameAt e symbol acc (acc.1, (acc.2.liveQuote cfg up e now other).2) :=
    liveQuote_frame (hs.upper_ne ho h) acc.1
  rcases fillOne_cases cfg up e now acc other with hone | ⟨q, -, -, hone⟩
  · rw [hone]
    exact SameAt.refl ..
  · rw [hone]
    rcases fillQuote_cases cfg up e now acc other q with ⟨o, -, hfill⟩ |
      ⟨-, ⟨tick, -, hfill⟩ | ⟨-, hfill⟩⟩
    · rw [hfill]
      exact hset acc.2 _
    · rw [hfill]
      exact (hlive.trans (hmemo ..)).trans (hset ..)
    · rw [hfill]
      exact hlive

theorem fillOpen_frame (hs : Canonical symbol) {symbols : List String}
    (hall : ∀ s ∈ symbols, Canonical s) (h : symbol ∉ symbols) :
    SameAt e symbol acc (fillOpen cfg up e now symbols acc) := by
  unfold fillOpen
  induction symbols generalizing acc with
  | nil => exact SameAt.refl ..
  | cons s symbols ih =>
    obtain ⟨hne, hnot⟩ := not_or.mp (List.mem_cons.not.mp h)
    exact (fillOne_frame hs (hall s List.mem_cons_self) hne).trans
      (ih (fun t ht => hall t (List.mem_cons_of_mem _ ht)) hnot)

/-- **A fill sees one symbol at a time.** -/
theorem fillOpen_at {symbols : List String} (hall : ∀ s ∈ symbols, Canonical s)
    (hnodup : symbols.Nodup) (h : symbol ∈ symbols) :
    (fillOpen cfg up e now symbols acc).1 symbol = (fillOne cfg up e now acc symbol).1 symbol := by
  have hs : Canonical symbol := hall symbol h
  induction symbols generalizing acc with
  | nil => cases h
  | cons s symbols ih =>
    obtain ⟨hnot, hnodup⟩ := List.nodup_cons.mp hnodup
    have hrest : ∀ t ∈ symbols, Canonical t := fun t ht => hall t (List.mem_cons_of_mem _ ht)
    change (fillOpen cfg up e now symbols (fillOne cfg up e now acc s)).1 symbol = _
    by_cases hsame : symbol = s
    · subst hsame
      exact (fillOpen_frame hs hrest hnot).quote
    · rw [ih hrest hnodup ((List.mem_cons.mp h).resolve_left hsame)]
      exact fillOne_congr (fillOne_frame hs (hall s List.mem_cons_self) hsame)

/-- The live quote of another symbol. -/
theorem batchOne_frame (hs : Canonical symbol) (ho : Canonical other) (h : symbol ≠ other) :
    SameAt e symbol acc (batchOne cfg up e now rich acc other) := by
  have hset : ∀ st q, SameAt e symbol (acc.1, st) (Function.update acc.1 other (some q), st) :=
    fun st q => ⟨Function.update_of_ne h .., rfl, rfl, rfl⟩
  have hlive : SameAt e symbol acc (acc.1, (acc.2.liveQuote cfg up e now other).2) :=
    liveQuote_frame (hs.upper_ne ho h) acc.1
  rcases batchOne_cases cfg up e now rich acc other with ⟨row, -, hone⟩ | ⟨-, tick, -, hone⟩ |
    ⟨-, -, hone⟩
  · rw [hone]
    exact hset acc.2 _
  · rw [hone]
    exact hlive.trans (hset ..)
  · rw [hone]
    exact hlive

/-- The row is set as the quote of the symbol. -/
def setRow (symbol : String) (row : TtRow) (acc : QuoteMap × QuotesState) :
    QuoteMap × QuotesState :=
  (Function.update acc.1 symbol (some (sbQuoteFromTt (acc.2.info symbol) symbol row)), acc.2)

theorem setRow_at (row : TtRow) :
    (setRow symbol row acc).1 symbol = some (sbQuoteFromTt (acc.2.info symbol) symbol row) :=
  Function.update_self ..

theorem batchOne_row {row : TtRow} (hrow : fastRow up e rich symbol = some row) :
    batchOne cfg up e now rich acc symbol = setRow symbol row acc := by
  unfold batchOne
  rw [hrow]
  rfl

theorem setRow_congr {row : TtRow} (hmemo : acc'.2.sessionOpen symbol = acc.2.sessionOpen symbol)
    (hlive : acc'.2.liveCache e (upper symbol) = acc.2.liveCache e (upper symbol))
    (hinfo : acc'.2.info = acc.2.info) :
    SameAt e symbol (setRow symbol row acc) (setRow symbol row acc') :=
  ⟨by rw [setRow_at, setRow_at, hinfo], hmemo, hlive, hinfo⟩

theorem batchQuotes_keeps (hs : Canonical symbol) {symbols : List String}
    (hall : ∀ s ∈ symbols, Canonical s) {row : TtRow} (hrow : fastRow up e rich symbol = some row)
    (h : SameAt e symbol (setRow symbol row acc) acc') :
    SameAt e symbol (setRow symbol row acc) (batchQuotes cfg up e now rich symbols acc') := by
  unfold batchQuotes
  induction symbols generalizing acc' with
  | nil => exact h
  | cons s symbols ih =>
    refine ih (fun t ht => hall t (List.mem_cons_of_mem _ ht)) ?_
    by_cases hsame : symbol = s
    · subst hsame
      rw [batchOne_row hrow]
      exact setRow_congr h.memo h.live h.info
    · exact h.trans (batchOne_frame hs (hall s List.mem_cons_self) hsame)

/-- **A symbol that has a row is quoted from it**, and what a fill of it depends on is left alone. -/
theorem batchQuotes_row (hs : Canonical symbol) {symbols : List String}
    (hall : ∀ s ∈ symbols, Canonical s) {row : TtRow} (hrow : fastRow up e rich symbol = some row)
    (h : symbol ∈ symbols) :
    SameAt e symbol (setRow symbol row acc) (batchQuotes cfg up e now rich symbols acc) := by
  induction symbols generalizing acc with
  | nil => cases h
  | cons s symbols ih =>
    have hrest : ∀ t ∈ symbols, Canonical t := fun t ht => hall t (List.mem_cons_of_mem _ ht)
    change SameAt e symbol _ (batchQuotes cfg up e now rich symbols (batchOne cfg up e now rich acc s))
    by_cases hsame : symbol = s
    · subst hsame
      rw [batchOne_row hrow]
      exact batchQuotes_keeps hs hrest hrow (SameAt.refl ..)
    · have hframe : SameAt e symbol acc (batchOne cfg up e now rich acc s) :=
        batchOne_frame hs (hall s List.mem_cons_self) hsame
      exact (setRow_congr hframe.memo hframe.live hframe.info).trans
        (ih hrest ((List.mem_cons.mp h).resolve_left hsame))

theorem batchOne_ne (h : symbol ≠ other) :
    (batchOne cfg up e now rich acc other).1 symbol = acc.1 symbol := by
  rcases batchOne_cases cfg up e now rich acc other with ⟨row, -, hone⟩ | ⟨-, tick, -, hone⟩ |
    ⟨-, -, hone⟩
  · rw [hone]
    exact Function.update_of_ne h ..
  · rw [hone]
    exact Function.update_of_ne h ..
  · rw [hone]

theorem fillOne_ne (h : symbol ≠ other) :
    (fillOne cfg up e now acc other).1 symbol = acc.1 symbol := by
  rcases fillOne_cases cfg up e now acc other with hone | ⟨q, -, -, hone⟩
  · rw [hone]
  · rw [hone]
    rcases fillQuote_cases cfg up e now acc other q with ⟨o, -, hfill⟩ |
      ⟨-, ⟨tick, -, hfill⟩ | ⟨-, hfill⟩⟩
    · rw [hfill]
      exact Function.update_of_ne h ..
    · rw [hfill]
      exact Function.update_of_ne h ..
    · rw [hfill]

theorem foldl_ne {f : QuoteMap × QuotesState → String → QuoteMap × QuotesState}
    (hf : ∀ acc other, symbol ≠ other → (f acc other).1 symbol = acc.1 symbol)
    {symbols : List String} (h : symbol ∉ symbols) :
    (symbols.foldl f acc).1 symbol = acc.1 symbol := by
  induction symbols generalizing acc with
  | nil => rfl
  | cons s symbols ih =>
    obtain ⟨hne, hnot⟩ := not_or.mp (List.mem_cons.not.mp h)
    exact (ih hnot).trans (hf acc s hne)

/-- **A symbol without a row** is quoted from a tick, or keeps the quote that it has. -/
theorem batchQuotes_tick {symbols : List String} {q : SbQuote}
    (h : symbol ∉ symbols ∨ fastRow up e rich symbol = none)
    (hq : (batchQuotes cfg up e now rich symbols acc).1 symbol = some q) :
    acc.1 symbol = some q ∨ ∃ info tick, q = sbQuote info tick := by
  unfold batchQuotes at hq
  induction symbols generalizing acc with
  | nil => exact .inl hq
  | cons s symbols ih =>
    have hnot : symbol ∉ symbols ∨ fastRow up e rich symbol = none :=
      h.imp_left fun h => (not_or.mp (List.mem_cons.not.mp h)).2
    refine (ih hnot hq).elim (fun hone => ?_) .inr
    by_cases hsame : symbol = s
    · subst hsame
      have hrow : fastRow up e rich symbol = none :=
        h.resolve_left fun h => h List.mem_cons_self
      rcases batchOne_cases cfg up e now rich acc symbol with ⟨row, hrow', -⟩ | ⟨-, tick, -, heq⟩ |
        ⟨-, -, heq⟩
      · rw [hrow] at hrow'
        cases hrow'
      · rw [heq] at hone
        rcases update_eq_some hone with ⟨-, rfl⟩ | ⟨-, hone⟩
        · exact .inr ⟨_, _, rfl⟩
        · exact .inl hone
      · rw [heq] at hone
        exact .inl hone
    · exact .inl ((batchOne_ne hsame).symm.trans hone)

end Frames

/-! ## 4. What is gathered and filled in -/

/-- The quote of the symbol, if there is one, contains its prices. -/
def HoldsAt (quotes : QuoteMap) (symbol : String) : Prop :=
  ∀ q, quotes symbol = some q → q.Contains

/-- A warm quote contains its prices, and has its open. -/
def WarmFit (quotes : QuoteMap) : Prop :=
  ∀ symbol q, quotes symbol = some q → q.Contains ∧ q.opening ≠ none

section Filled

variable {cfg : QuoteSettings} {up : Upstream} {e : Exchange} {now : ℚ} {rich : Bool}
  {st : QuotesState} {quotes : QuoteMap} {acc : QuoteMap × QuotesState} {symbol : String}
  {symbols asked : List String}

/-- Where no open is filled in, every quote that is gathered contains its prices. -/
theorem batchQuotes_holds (h : ∀ symbol, HoldsAt acc.1 symbol) (symbol : String) :
    HoldsAt (batchQuotes cfg up e now rich symbols acc).1 symbol := by
  unfold batchQuotes
  induction symbols generalizing acc with
  | nil => exact h symbol
  | cons s symbols ih =>
    refine ih fun t q hq => ?_
    rcases batchOne_cases cfg up e now rich acc s with ⟨row, -, hone⟩ | ⟨-, tick, -, hone⟩ |
      ⟨-, -, hone⟩
    · rw [hone] at hq
      rcases update_eq_some hq with ⟨-, rfl⟩ | ⟨-, hq⟩
      · exact contains_of_unbounded rfl rfl
      · exact h t q hq
    · rw [hone] at hq
      rcases update_eq_some hq with ⟨-, rfl⟩ | ⟨-, hq⟩
      · exact sbQuote_contains _ tick
      · exact h t q hq
    · rw [hone] at hq
      exact h t q hq

theorem fillOne_setRow (row : TtRow) :
    (fillOne cfg up e now (setRow symbol row (quotes, st)) symbol).1 symbol =
      match (st.sessionOpen symbol).filter fun cached => cached.1 = istDay now with
      | some cached => some { sbQuoteFromTt (st.info symbol) symbol row with
          opening := some cached.2, filledAt := some now }
      | none =>
        match st.tickFor cfg up e now symbol with
        | some tick =>
          some ((sbQuoteFromTt (st.info symbol) symbol row).fill (st.info tick.symbol) tick now)
        | none => some (sbQuoteFromTt (st.info symbol) symbol row) := by
  have hself : (setRow symbol row (quotes, st)).1 symbol =
      some (sbQuoteFromTt (st.info symbol) symbol row) := setRow_at row
  have hone : fillOne cfg up e now (setRow symbol row (quotes, st)) symbol =
      fillQuote cfg up e now (setRow symbol row (quotes, st)) symbol
        (sbQuoteFromTt (st.info symbol) symbol row) := by
    unfold fillOne
    rw [hself]
    rfl
  rw [hone, fillQuote_at, hself]
  rfl

/-- **The quote of a row, its open filled in.** -/
theorem fillOne_row_holds {row : TtRow} (h : SameAt e symbol (setRow symbol row (quotes, st)) acc) :
    HoldsAt (fillOne cfg up e now acc symbol).1 symbol ↔
      ∀ tick, (∀ o, st.sessionOpen symbol ≠ some (istDay now, o)) →
        st.tickFor cfg up e now symbol = some tick → BoundsFit row tick := by
  unfold HoldsAt
  rw [fillOne_congr h, fillOne_setRow]
  cases hcached : (st.sessionOpen symbol).filter fun cached => cached.1 = istDay now with
  | some cached =>
    -- the memo gives an open and nothing else
    obtain ⟨hmem, hday⟩ := Option.filter_eq_some_iff.mp hcached
    rw [decide_eq_true_eq] at hday
    refine iff_of_true (fun q hq => ?_) fun tick hno _ => absurd ?_ (hno cached.2)
    · cases hq
      exact contains_of_unbounded rfl rfl
    · rw [hmem, ← hday]
  | none =>
    have hno : ∀ o, st.sessionOpen symbol ≠ some (istDay now, o) := fun o ho => by
      rw [ho, Option.filter_some, if_pos (decide_eq_true rfl)] at hcached
      cases hcached
    cases htick : st.tickFor cfg up e now symbol with
    | none =>
      refine iff_of_true (fun q hq => ?_) fun tick _ ht => (by cases ht)
      cases hq
      exact contains_of_unbounded rfl rfl
    | some tick =>
      constructor
      · intro h tick' _ htick'
        obtain rfl := Option.some.inj htick'
        exact (fill_contains _ tick _ symbol row now).mp (h _ rfl)
      · intro h q hq
        cases hq
        exact (fill_contains _ tick _ symbol row now).mpr (h tick hno rfl)

/-- **What is gathered and filled in, for a symbol of the request.** -/
theorem filled_holds (hwarm : WarmFit quotes) (hall : ∀ s ∈ asked, Canonical s)
    (hsub : symbols ⊆ asked) (hmem : symbol ∈ asked) :
    HoldsAt (fillOpen cfg up e now asked.dedup
        (batchQuotes cfg up e now false symbols (quotes, st))).1 symbol ↔
      (symbol ∈ symbols → ∀ row tick, fastRow up e false symbol = some row →
        (∀ o, st.sessionOpen symbol ≠ some (istDay now, o)) →
        st.tickFor cfg up e now symbol = some tick → BoundsFit row tick) := by
  have hs : Canonical symbol := hall symbol hmem
  have hat : (fillOpen cfg up e now asked.dedup
      (batchQuotes cfg up e now false symbols (quotes, st))).1 symbol =
      (fillOne cfg up e now (batchQuotes cfg up e now false symbols (quotes, st)) symbol).1 symbol :=
    fillOpen_at (fun s h => hall s (List.mem_dedup.mp h)) asked.nodup_dedup (List.mem_dedup.mpr hmem)
  unfold HoldsAt
  rw [hat]
  by_cases htick : symbol ∉ symbols ∨ fastRow up e false symbol = none
  · -- a quote of a tick or of the warm cache: it has its open
    have hopened : ∀ q, (batchQuotes cfg up e now false symbols (quotes, st)).1 symbol = some q →
        q.Contains ∧ q.opening ≠ none := by
      intro q hq
      rcases batchQuotes_tick htick hq with hq | hq
      · exact hwarm symbol q hq
      · obtain ⟨info, tick, rfl⟩ := hq
        exact ⟨sbQuote_contains info tick, Option.some_ne_none _⟩
    rw [fillOne_opened fun q hq => (hopened q hq).2]
    refine iff_of_true (fun q hq => (hopened q hq).1) fun hin row tick hrow => ?_
    rcases htick with h | h
    · exact absurd hin h
    · rw [h] at hrow
      cases hrow
  · obtain ⟨hin, hrow⟩ := not_or.mp htick
    obtain ⟨row, hrow⟩ := Option.ne_none_iff_exists'.mp hrow
    have hsame : SameAt e symbol (setRow symbol row (quotes, st))
        (batchQuotes cfg up e now false symbols (quotes, st)) :=
      batchQuotes_row hs (fun s h => hall s (hsub h)) hrow (not_not.mp hin)
    refine (fillOne_row_holds hsame).trans ⟨fun h _ row' tick hrow' => ?_, fun h tick => ?_⟩
    · rw [hrow] at hrow'
      cases hrow'
      exact h tick
    · exact h (not_not.mp hin) row tick hrow

/-- **What is gathered and filled in contains its prices** exactly where the ticks fit the rows. -/
theorem fill_contains_iff (hwarm : WarmFit quotes) (hall : ∀ s ∈ asked, Canonical s)
    (hsub : symbols ⊆ asked) :
    (∀ symbol ∈ asked, HoldsAt (fillOpen cfg up e now asked.dedup
        (batchQuotes cfg up e now false symbols (quotes, st))).1 symbol) ↔
      FillsFit cfg up e now symbols st :=
  ⟨fun h symbol hin => (filled_holds hwarm hall hsub (hsub hin)).mp (h symbol (hsub hin)) hin,
    fun h symbol hmem => (filled_holds hwarm hall hsub hmem).mpr (h symbol)⟩

/-- The symbols that were not asked for keep their quotes. -/
theorem filled_other (hsub : symbols ⊆ asked) (hmem : symbol ∉ asked) :
    (fillOpen cfg up e now asked.dedup
      (batchQuotes cfg up e now false symbols (quotes, st))).1 symbol = quotes symbol :=
  (foldl_ne (fun _ _ hne => fillOne_ne hne) fun h => hmem (List.mem_dedup.mp h)).trans
    (foldl_ne (fun _ _ hne => batchOne_ne hne) fun h => hmem (hsub h))

end Filled

/-! ## 5. One step -/

/-- What is served, and what is kept warm, is left alone. -/
def Quiet (st st' : QuotesState) : Prop := st'.served = st.served ∧ st'.warm = st.warm

section Step

variable {cfg : QuoteSettings} {call : QuotesCall} {up : Upstream} {e : Exchange} {now : ℚ}
  {st st' : QuotesState} {acc : QuoteMap × QuotesState} {symbol : String} {s s' : Served}

theorem Touches.quiet (h : Touches e st st') : Quiet st st' := by
  obtain ⟨live, memo, -, rfl⟩ := h
  exact ⟨rfl, rfl⟩

theorem Quiet.trans {st'' : QuotesState} (h : Quiet st st') (h' : Quiet st' st'') : Quiet st st'' :=
  ⟨h'.1.trans h.1, h'.2.trans h.2⟩

theorem enrichMeta_quiet (symbol : String) : Quiet st (st.enrichMeta up e symbol) := by
  rw [enrichMeta_eq]
  exact ⟨rfl, rfl⟩

/-- **Names are given to quotes that stay as they are.** -/
theorem enriched_holds :
    Quiet acc.2 (enriched call acc).2 ∧
      ∀ symbol, HoldsAt (enriched call acc).1 symbol ↔ HoldsAt acc.1 symbol := by
  have hone : ∀ (acc : QuoteMap × QuotesState) other,
      Quiet acc.2 (enrichOne call.upstream call.exchange acc other).2 ∧ ∀ symbol,
        (HoldsAt (enrichOne call.upstream call.exchange acc other).1 symbol ↔
          HoldsAt acc.1 symbol) := by
    intro acc other
    unfold enrichOne
    cases hq : acc.1 other with
    | none => exact ⟨⟨rfl, rfl⟩, fun _ => Iff.rfl⟩
    | some q =>
      refine ⟨enrichMeta_quiet other, fun symbol => ?_⟩
      unfold HoldsAt
      dsimp only
      by_cases hsame : symbol = other
      · subst hsame
        rw [Function.update_self, hq]
        simp only [Option.some.injEq, forall_eq']
        exact named_contains_iff _ q
      · rw [Function.update_of_ne hsame]
  have hall : ∀ (symbols : List String) (acc : QuoteMap × QuotesState),
      Quiet acc.2 (enrichQuotes call.upstream call.exchange symbols acc).2 ∧ ∀ symbol,
        (HoldsAt (enrichQuotes call.upstream call.exchange symbols acc).1 symbol ↔
          HoldsAt acc.1 symbol) := by
    intro symbols
    induction symbols with
    | nil => exact fun acc => ⟨⟨rfl, rfl⟩, fun _ => Iff.rfl⟩
    | cons other symbols ih =>
      intro acc
      have hrest := ih (enrichOne call.upstream call.exchange acc other)
      exact ⟨(hone acc other).1.trans hrest.1,
        fun symbol => (hrest.2 symbol).trans ((hone acc other).2 symbol)⟩
  unfold enriched
  split
  · exact hall _ acc
  · exact ⟨⟨rfl, rfl⟩, fun _ => Iff.rfl⟩

theorem filled_quiet : Quiet st (st.filled cfg call now).2 := by
  have hgather : Touches call.exchange st (st.gather cfg call now).2 := batchQuotes_touches _ (_, st)
  unfold filled
  dsimp only
  split
  · exact (hgather.trans (fillOpen_touches _ _)).quiet
  · exact hgather.quiet

/-- **The quotes of a request for many symbols.** -/
theorem filled_iff (hwarm : ∀ symbol hit, st.warm symbol = some hit → hit.2.Contains) :
    (∀ symbol ∈ call.syms, HoldsAt (st.filled cfg call now).1 symbol) ↔
      (call.rich = false → call.fast = false →
        FillsFit cfg call.upstream call.exchange now
          (call.syms.filter fun symbol => (st.warmTaken cfg call now symbol).isNone) st) := by
  have htaken : ∀ symbol, HoldsAt (st.warmTaken cfg call now) symbol := by
    intro symbol q hq
    obtain ⟨⟨t, ht⟩, -⟩ := warmTaken_cases hq
    exact hwarm symbol (t, q) ht
  unfold filled gather
  dsimp only
  split
  · rename_i hmode
    obtain ⟨hrich, hfast⟩ := hmode
    rw [hrich]
    have hfit : WarmFit (st.warmTaken cfg call now) := fun symbol q hq =>
      ⟨htaken symbol q hq, (warmTaken_cases hq).2 hfast⟩
    refine (fill_contains_iff hfit (fun s hs => canonical_of_mem_syms hs)
      (List.filter_subset_self _)).trans ⟨fun h _ _ => h, fun h => h rfl hfast⟩
  · rename_i hmode
    refine iff_of_true (fun symbol _ => batchQuotes_holds htaken symbol) fun hrich hfast => ?_
    exact absurd ⟨hrich, hfast⟩ hmode

/-- The clock has nothing to do with it. -/
theorem allContain_clock : AllContain { s with state := { s.state with now := now } } ↔
    AllContain s :=
  ⟨fun h => ⟨h.served, h.single, h.warm⟩, fun h => ⟨h.served, h.single, h.warm⟩⟩

/-- **A request for many symbols.** -/
theorem sbQuotes_iff (h : AllContain s) :
    AllContain (performServe cfg now s (.quotes call)) ↔
      (call.rich = false → call.fast = false →
        FillsFit cfg call.upstream call.exchange now
          (call.syms.filter fun symbol => (s.state.warmTaken cfg call now symbol).isNone) s.state) := by
  obtain ⟨hnamed, hat⟩ := @enriched_holds call (s.state.filled cfg call now)
  obtain ⟨hserved, hwarm⟩ := filled_quiet.trans hnamed
  have hnew : (s.state.sbQuotes cfg call now).served = s.state.served ++
      call.syms.filterMap fun symbol =>
        ((enriched call (s.state.filled cfg call now)).1 symbol).map fun q => (now, symbol, q) :=
    congrArg (· ++ _) hserved
  refine Iff.trans ?_ (filled_iff h.warm)
  constructor
  · intro h' symbol hmem
    refine (hat symbol).mp fun q hq => ?_
    refine h'.served (now, symbol, q) (hnew ▸ ?_)
    refine List.mem_append_right _ (List.mem_filterMap.mpr ⟨symbol, hmem, ?_⟩)
    rw [hq]
    rfl
  · intro hholds
    refine ⟨fun x hx => ?_, h.single, fun symbol hit hhit => ?_⟩
    · rcases List.mem_append.mp (hnew ▸ hx) with hx | hx
      · exact h.served x hx
      · obtain ⟨symbol, hmem, hx⟩ := List.mem_filterMap.mp hx
        obtain ⟨q, hq, rfl⟩ := Option.map_eq_some_iff.mp hx
        exact (hat symbol).mpr (hholds symbol hmem) q hq
    · exact h.warm symbol hit ((congrFun hwarm symbol).symm.trans hhit)

/-- What is put into the warm cache has to contain its prices. -/
theorem warmed_iff (h : AllContain s) (hquiet : Quiet s.state acc.2) :
    AllContain { s with
        state := { acc.2 with
          warm := fun symbol => match acc.1 symbol with
            | some q => some (now, q)
            | none => acc.2.warm symbol } } ↔
      ∀ symbol, HoldsAt acc.1 symbol := by
  obtain ⟨hserved, hwarm⟩ := hquiet
  constructor
  · intro h' symbol q hq
    refine h'.warm symbol (now, q) ?_
    dsimp only
    rw [hq]
  · intro hholds
    refine ⟨fun x hx => h.served x (hserved ▸ hx), h.single, fun symbol hit hhit => ?_⟩
    dsimp only at hhit
    cases hq : acc.1 symbol with
    | some q =>
      rw [hq] at hhit
      cases hhit
      exact hholds symbol q hq
    | none =>
      rw [hq] at hhit
      exact h.warm symbol hit ((congrFun hwarm symbol).symm.trans hhit)

/-- **A turn of the warm loop.** -/
theorem warmRefreshOnce_iff (h : AllContain s) {hot : List String} :
    AllContain (performServe cfg now s (.warm up hot)) ↔
      (cfg.warmFast = false → FillsFit cfg up .NSE now (warmSymbols hot) s.state) := by
  have hnone : WarmFit fun _ => none := fun _ _ hq => (by cases hq)
  have hbatch : Touches .NSE s.state
      (batchQuotes cfg up .NSE now false (warmSymbols hot) (fun _ => none, s.state)).2 :=
    batchQuotes_touches _ (_, s.state)
  have hquiet : Quiet s.state (if cfg.warmFast then
      batchQuotes cfg up .NSE now false (warmSymbols hot) (fun _ => none, s.state)
    else fillOpen cfg up .NSE now (warmSymbols hot).dedup
      (batchQuotes cfg up .NSE now false (warmSymbols hot) (fun _ => none, s.state))).2 := by
    split
    · exact hbatch.quiet
    · exact (hbatch.trans (fillOpen_touches _ _)).quiet
  refine (warmed_iff h hquiet).trans ?_
  cases cfg.warmFast with
  | true =>
    refine iff_of_true (fun symbol => ?_) fun hfast => (by cases hfast)
    exact batchQuotes_holds (fun t q hq => (by cases hq)) symbol
  | false =>
    rw [forall_prop_of_true rfl, ← fill_contains_iff hnone
      (fun _ ht => canonical_of_mem_warmSymbols ht) (List.Subset.refl _)]
    refine ⟨fun hholds symbol _ => hholds symbol, fun hholds symbol => ?_⟩
    by_cases hmem : symbol ∈ warmSymbols hot
    · exact hholds symbol hmem
    · intro q hq
      cases (filled_other (List.Subset.refl _) hmem).symm.trans hq

/-- `sb_quote` answers with the quote of a tick. -/
theorem sbQuoteSingle_spec {call : SingleCall} :
    Quiet st (st.sbQuoteSingle cfg call now).2 ∧
      ∀ x, (st.sbQuoteSingle cfg call now).1 = .ok x → x.1.Contains := by
  have hmeta : Quiet st (if call.enrich then
      st.enrichMeta call.upstream call.exchange (canonicalSymbol call.symbol) else st) := by
    split
    · exact enrichMeta_quiet _
    · exact ⟨rfl, rfl⟩
  unfold sbQuoteSingle
  dsimp only
  cases rejectIndex (upper (strip call.symbol)) with
  | some err => exact ⟨⟨rfl, rfl⟩, fun x hx => (by cases hx)⟩
  | none =>
    generalize (if call.enrich then
      st.enrichMeta call.upstream call.exchange (canonicalSymbol call.symbol) else st) = st₁
      at hmeta ⊢
    have hquiet := (@liveQuote_touches cfg call.upstream call.exchange now st₁
      (canonicalSymbol call.symbol)).quiet
    rcases hlive : st₁.liveQuote cfg call.upstream call.exchange now (canonicalSymbol call.symbol)
      with ⟨_ | tick, st₂⟩
    · rw [hlive] at hquiet
      exact ⟨hmeta.trans hquiet, fun x hx => (by cases hx)⟩
    · rw [hlive] at hquiet
      refine ⟨hmeta.trans hquiet, fun x hx => ?_⟩
      cases hx
      exact sbQuote_contains _ tick

/-- **A request for one symbol.** -/
theorem sbQuoteSingle_contain (h : AllContain s) {call : SingleCall} :
    AllContain (performServe cfg now s (.quote call)) := by
  obtain ⟨⟨hserved, hwarm⟩, hok⟩ := @sbQuoteSingle_spec cfg now s.state call
  unfold performServe
  dsimp only
  generalize s.state.sbQuoteSingle cfg call now = r at hserved hwarm hok ⊢
  obtain ⟨answer, st⟩ := r
  refine ⟨fun x hx => h.served x (hserved ▸ hx), fun q hq => ?_,
    fun t hit hhit => h.warm t hit (hwarm ▸ hhit)⟩
  rcases List.mem_append.mp hq with hq | hq
  · exact h.single q hq
  · cases answer with
    | error err => cases hq
    | ok x =>
      rw [List.mem_singleton.mp hq]
      exact hok x rfl

/-- A live quote for another endpoint. -/
theorem liveQuote_contain (h : AllContain s) {symbol : String} :
    AllContain (performServe cfg now s (.live up e symbol)) := by
  obtain ⟨hserved, hwarm⟩ := (@liveQuote_touches cfg up e now s.state symbol).quiet
  exact ⟨fun x hx => h.served x (hserved ▸ hx), h.single, fun t hit hhit => h.warm t hit (hwarm ▸ hhit)⟩

/-- **One step.** -/
theorem serve_contain {a : ServeAction × ℚ} (h : AllContain s) (hstep : serve cfg s a = some s') :
    AllContain s' ↔ Fits cfg s a := by
  obtain ⟨-, hstep⟩ := Option.ite_none_right_eq_some.mp hstep
  cases hstep
  rw [allContain_clock]
  obtain ⟨action, now⟩ := a
  cases action with
  | quotes call => exact sbQuotes_iff h
  | quote call => exact iff_of_true (sbQuoteSingle_contain h) trivial
  | warm up hot => exact warmRefreshOnce_iff h
  | live up e symbol => exact iff_of_true (liveQuote_contain h) trivial

end Step

/-! ## 6. All sequences -/

/-- **In every sequence of requests and turns of the warm loop**, each quote that is served or kept
    warm contains its prices exactly as long as the ticks that opens are filled in from fit the rows. -/
theorem year_range_iff (cfg : QuoteSettings) (t₀ : ℚ) {actions : List (ServeAction × ℚ)}
    {s : Served} (hr : run (serve cfg) { state := { now := t₀ } } actions = some s) :
    Always (serve cfg) AllContain { state := { now := t₀ } } actions ↔
      StepsMeet (serve cfg) (Fits cfg) { state := { now := t₀ } } actions := by
  have h0 : AllContain { state := { now := t₀ } } :=
    ⟨fun x hx => (by cases hx), fun q hq => (by cases hq), fun _ _ hhit => (by cases hhit)⟩
  have hstep : ∀ s a s', True → AllContain s → serve cfg s a = some s' →
      (AllContain s' ↔ Fits cfg s a) := fun s a s' _ h hs => serve_contain h hs
  rw [always_iff_meet (fun _ _ _ h _ => h) hstep trivial hr, and_iff_right h0]

/-! ## 7. Two feeds -/

/-- RELIANCE has come down to 95, and to 94 today, in the rows of the batch feed; the live feed still
    has it at 100, with a low of 99. -/
def lagging (week52Low : ℚ) : Upstream where
  rows := fun _ => some { price := some 95, high := some 101, low := some 94 }
  live := fun _ symbol =>
    some
      { symbol := symbol
        ltp := 100
        opening := 99
        high := 101
        low := 99
        week52Low := some week52Low
        source := "groww" }

def askReliance (week52Low : ℚ) : List (ServeAction × ℚ) :=
  [(.quotes
    { symbols := ["RELIANCE"], exchange := .NSE, upstream := lagging week52Low }, 1)]

/-- A year's low of 90 is below what either feed has. -/
theorem year_range_below :
    ∃ s, run (serve {}) { state := { now := 0 } } (askReliance 90) = some s ∧
      s.state.served.length = 1 ∧
      Always (serve {}) AllContain { state := { now := 0 } } (askReliance 90) := by
  have hrun : (run (serve {}) { state := { now := 0 } } (askReliance 90)).map
      (fun s => s.state.served.length) = some 1 := by
    decide
  obtain ⟨s, hs, hlen⟩ := Option.map_eq_some_iff.mp hrun
  have hfits : StepsMeet (serve {}) (Fits {}) { state := { now := 0 } } (askReliance 90) := by
    refine ⟨fun _ _ symbol _ row tick hrow _ htick => ?_, fun _ _ => trivial⟩
    have hlagging : fastRow (lagging 90) .NSE false symbol =
        some { price := some 95, high := some 101, low := some 94 } := by
      simp [fastRow, lagging]
    cases hlagging.symm.trans hrow
    cases htick
    constructor
    · intro w hw
      cases hw
      norm_num
    · intro w hw
      cases hw
  exact ⟨s, hs, hlen, (year_range_iff {} 0 hs).mpr hfits⟩

/-- A year's low of 98 is served beside a price of 95. -/
theorem year_range_other_feed :
    ∃ s x, run (serve {}) { state := { now := 0 } } (askReliance 98) = some s ∧
      x ∈ s.state.served ∧ x.2.2.price = some 95 ∧ x.2.2.week52Low = some 98 ∧
      ¬ x.2.2.Contains := by
  have hrun : (run (serve {}) { state := { now := 0 } } (askReliance 98)).map
      (fun s => s.state.served.map fun x => (x.2.2.price, x.2.2.week52Low)) =
      some [(some 95, some 98)] := by
    decide
  obtain ⟨s, hs, hserved⟩ := Option.map_eq_some_iff.mp hrun
  obtain ⟨x, hx, hprices⟩ := List.map_eq_singleton_iff.mp hserved
  obtain ⟨hprice, hlow⟩ := Prod.mk.inj hprices
  refine ⟨s, x, hs, hx ▸ List.mem_singleton_self x, hprice, hlow, fun h => ?_⟩
  exact absurd ((h.low 98 hlow).1 95 hprice) (by norm_num)

end QuotesState

end BharatTicker
