/-
  File:      BharatTicker/SbQuotes.lean
  Subject:   BULK QUOTES (`api/endpoints/superbrain.py`: `sb_quotes`, `_batch_quotes`, `_fill_open`,
             `_warm_refresh_once`) AND WHAT THEY REMEMBER.

  Four memories outlive a request: `_live_q_cache` (a tick for a second), `_warm_cache` (quotes of
  the hot symbols), `_SESSION_OPEN` (the session open of a symbol, by date) and `_META_CACHE` (name
  and sector of a symbol). A request is one step at one reading of the clock; what the feeds answer
  in it is its input.

  * `LiveTick`, `TtRow`, `QuoteMeta`, `SbQuote` -- ticks, rows of the batch feed, names, quotes;
  * `liveQuote`, `batchQuotes`, `fillOpen`, `enrichMeta` -- the functions;
  * `sbQuotes`, `warmRefreshOnce` -- a request, and a turn of the warm loop;
  * `step` -- any sequence of these.
-/
import BharatTicker.Basis.Dict
import BharatTicker.Basis.Run
import BharatTicker.IstClock
import BharatTicker.MarketData

namespace BharatTicker

open Basis

/-! ## 1. Ticks and quotes -/

/-- A tick of the live feed, its prices as floats. -/
structure LiveTick where
  symbol : String
  ltp : ℚ
  opening : ℚ
  high : ℚ
  low : ℚ
  upperCircuit : Option ℚ := none
  lowerCircuit : Option ℚ := none
  week52High : Option ℚ := none
  week52Low : Option ℚ := none
  vwap : Option ℚ := none
  isin : Option String := none
  source : String
  deriving DecidableEq, Repr

/-- A row of the batch feed. -/
structure TtRow where
  price : Option ℚ
  high : Option ℚ := none
  low : Option ℚ := none
  deriving DecidableEq, Repr

/-- An entry of `_META_CACHE`. `filledFor` is a ghost: the exchange of the request that put it
    there. -/
structure QuoteMeta where
  name : Option String := none
  sector : Option String := none
  isin : Option String := none
  vwap : Option ℚ := none
  filledFor : Exchange
  deriving DecidableEq, Repr

/-- A quote, without what is computed from the fields kept here or from the clock. `filledAt` is a
    ghost: when `_fill_open` put the open. -/
structure SbQuote where
  symbol : String
  companyName : String
  sector : Option String := none
  price : Option ℚ
  opening : Option ℚ := none
  high : Option ℚ
  low : Option ℚ
  upperCircuit : Option ℚ := none
  lowerCircuit : Option ℚ := none
  week52High : Option ℚ := none
  week52Low : Option ℚ := none
  vwap : Option ℚ := none
  isin : Option String := none
  source : String
  filledAt : Option ℚ := none
  deriving DecidableEq, Repr

/-- A text that Python takes for true. -/
def trueText (s : Option String) : Option String := s.filter fun x => x ≠ ""

/-- A text that is not dropped from the quote. -/
def shownText (s : Option String) : Option String := s.filter fun x => strip x ≠ ""

/-- `_sb_quote`, with the entry of `_META_CACHE`: the 52-week bounds take in the price and the day's
    range. -/
def sbQuote (info : Option QuoteMeta) (tick : LiveTick) : SbQuote where
  symbol := tick.symbol
  companyName := (trueText (info.bind (·.name))).getD tick.symbol
  sector := shownText (info.bind (·.sector))
  price := some tick.ltp
  opening := some tick.opening
  high := some tick.high
  low := some tick.low
  upperCircuit := tick.upperCircuit
  lowerCircuit := tick.lowerCircuit
  week52High := tick.week52High.map fun w => max w (max tick.high tick.ltp)
  week52Low := tick.week52Low.map fun w => min w (min tick.low tick.ltp)
  vwap := tick.vwap.filter (· ≠ 0) <|> info.bind (·.vwap)
  isin := shownText (trueText tick.isin <|> info.bind (·.isin))
  source := tick.source

/-- `_sb_quote_from_tt`: such a quote has no open. -/
def sbQuoteFromTt (info : Option QuoteMeta) (symbol : String) (row : TtRow) : SbQuote where
  symbol := symbol
  companyName := (trueText (info.bind (·.name))).getD symbol
  sector := info.bind (·.sector)
  price := row.price
  high := row.high
  low := row.low
  source := "tickertape_realtime_nse"

/-- The open of a fetched tick, and what else the quote lacks and the tick has. -/
def SbQuote.fill (q : SbQuote) (info : Option QuoteMeta) (tick : LiveTick) (now : ℚ) : SbQuote :=
  let rich := sbQuote info tick
  { q with
    opening := some tick.opening
    filledAt := some now
    upperCircuit := q.upperCircuit <|> rich.upperCircuit
    lowerCircuit := q.lowerCircuit <|> rich.lowerCircuit
    week52High := q.week52High <|> rich.week52High
    week52Low := q.week52Low <|> rich.week52Low
    vwap := q.vwap <|> rich.vwap }

/-- The name and the sector of an enriched quote. -/
def SbQuote.named (q : SbQuote) (info : Option QuoteMeta) : SbQuote :=
  { q with
    companyName := (trueText (info.bind (·.name))).getD q.companyName
    sector := trueText (info.bind (·.sector)) <|> q.sector }

/-! ## 2. State -/

/-- `SB_LIVE_QUOTE_TTL_S`, `SB_WARM_TTL_S`, `SB_WARM_FAST`. -/
structure QuoteSettings where
  liveTtl : ℚ := 1
  warmTtl : ℚ := 10
  warmFast : Bool := true

/-- What `get_details` answers. -/
structure Details where
  name : Option String := none
  sector : Option String := none
  isin : Option String := none
  vwap : Option ℚ := none

/-- What the feeds answer in one request: `fetch_quotes`, `get_quote_through` (`none` where it finds
    no tick or raises), `resolve` (name and sector), `get_isin` and `get_details`, of the exchange it
    is asked for. -/
structure Upstream where
  rows : String → Option TtRow := fun _ => none
  live : Exchange → String → Option LiveTick := fun _ _ => none
  resolve : String → Option (Option String × Option String) := fun _ => none
  isin : String → Option String := fun _ => none
  details : Exchange → String → Option Details := fun _ _ => none

/-- `{count, failed, sources, quotes}`. -/
structure QuotesResponse where
  count : ℕ
  failed : List String
  sources : Dict String ℕ
  quotes : List SbQuote
  deriving DecidableEq, Repr

/-- `_live_q_cache`, `_warm_cache`, `_SESSION_OPEN`, `_META_CACHE`, the clock, and ghosts: the quotes
    served, each with its time and symbol, and the responses, each with its exchange. -/
structure QuotesState where
  liveCache : Exchange → String → Option (ℚ × LiveTick) := fun _ _ => none
  warm : String → Option (ℚ × SbQuote) := fun _ => none
  sessionOpen : String → Option (ℤ × ℚ) := fun _ => none
  info : String → Option QuoteMeta := fun _ => none
  now : ℚ := 0
  served : List (ℚ × String × SbQuote) := []
  /-- `none`: 400, no symbols. -/
  responses : List (Exchange × Option QuotesResponse) := []

/-- `by_sym`. -/
abbrev QuoteMap := String → Option SbQuote

structure QuotesCall where
  symbols : List String
  exchange : Exchange
  enrich : Bool := false
  rich : Bool := false
  fast : Bool := false
  upstream : Upstream := {}

/-- `[_canon(s) for s in symbols.split(",") if s.strip()][:200]`, of the parts. -/
def QuotesCall.syms (call : QuotesCall) : List String :=
  ((call.symbols.filter fun s => strip s ≠ "").map canonicalSymbol).take 200

/-- The response, over the quotes that there are in the end. -/
def QuotesCall.response (call : QuotesCall) (quotes : QuoteMap) : Option QuotesResponse :=
  if call.syms = [] then none
  else
    let out := call.syms.filterMap quotes
    some
      { count := out.length
        failed := call.syms.filter fun s => (quotes s).isNone
        sources := out.foldl (fun d q => Dict.set d q.source ((Dict.get? d q.source).getD 0 + 1)) []
        quotes := out }

namespace QuotesState

/-! ## 3. Functions -/

section Functions

variable (cfg : QuoteSettings) (up : Upstream) (e : Exchange) (now : ℚ)

/-- `hit and time.time() - hit[0] < _LIVE_Q_TTL_S`. -/
def liveHit (st : QuotesState) (symbol : String) : Option (ℚ × LiveTick) :=
  (st.liveCache e (upper symbol)).filter fun hit => now - hit.1 < cfg.liveTtl

/-- `_live_quote`, with no other caller at the same time. -/
def liveQuote (st : QuotesState) (symbol : String) : Option LiveTick × QuotesState :=
  match st.liveHit cfg e now symbol with
  | some hit => (some hit.2, st)
  | none =>
    match up.live e symbol with
    | some tick =>
      (some tick, { st with
        liveCache := Function.update st.liveCache e
          (Function.update (st.liveCache e) (upper symbol) (some (now, tick))) })
    | none => (none, st)

/-- The row that the fast path takes for a symbol: there is one, and its price is true. -/
def fastRow (rich : Bool) (symbol : String) : Option TtRow :=
  if e = .NSE ∧ rich = false then
    ((up.rows symbol) <|> (up.rows (upper symbol))).filter fun row =>
      match row.price with
      | some price => price ≠ 0
      | none => false
  else none

/-- `_batch_quotes` for one symbol. -/
def batchOne (rich : Bool) (acc : QuoteMap × QuotesState) (symbol : String) :
    QuoteMap × QuotesState :=
  match fastRow up e rich symbol with
  | some row =>
    (Function.update acc.1 symbol (some (sbQuoteFromTt (acc.2.info symbol) symbol row)), acc.2)
  | none =>
    match acc.2.liveQuote cfg up e now symbol with
    | (some tick, st) =>
      (Function.update acc.1 symbol (some (sbQuote (st.info tick.symbol) tick)), st)
    | (none, st) => (acc.1, st)

def batchQuotes (rich : Bool) (symbols : List String) (acc : QuoteMap × QuotesState) :
    QuoteMap × QuotesState :=
  symbols.foldl (batchOne cfg up e now rich) acc

/-- `_fill_open` for one symbol without an open: the memo of the day, or a fetch. -/
def fillQuote (acc : QuoteMap × QuotesState) (symbol : String) (q : SbQuote) :
    QuoteMap × QuotesState :=
  match (acc.2.sessionOpen symbol).filter fun cached => cached.1 = istDay now with
  | some cached =>
    (Function.update acc.1 symbol (some { q with opening := some cached.2, filledAt := some now }),
      acc.2)
  | none =>
    match acc.2.liveQuote cfg up e now symbol with
    | (some tick, st) =>
      (Function.update acc.1 symbol (some (q.fill (st.info tick.symbol) tick now)), { st with
        sessionOpen := Function.update st.sessionOpen symbol (some (istDay now, tick.opening)) })
    | (none, st) => (acc.1, st)

def fillOne (acc : QuoteMap × QuotesState) (symbol : String) : QuoteMap × QuotesState :=
  match acc.1 symbol with
  | some q => if q.opening = none then fillQuote cfg up e now acc symbol q else acc
  | none => acc

/-- `_fill_open`. -/
def fillOpen (symbols : List String) (acc : QuoteMap × QuotesState) : QuoteMap × QuotesState :=
  symbols.foldl (fillOne cfg up e now) acc

/-- The entry that `_enrich_meta` makes for a symbol without one. -/
def fetchMeta (symbol : String) : Option QuoteMeta :=
  let isin := up.isin symbol
  match (up.resolve symbol).filter fun found => (trueText found.2).isSome with
  | some found => some { name := found.1, sector := found.2, isin := isin, filledFor := e }
  | none =>
    match up.details e symbol with
    | some d =>
      some
        { name := d.name, sector := d.sector, isin := trueText isin <|> d.isin, vwap := d.vwap
          filledFor := e }
    | none => if (trueText isin).isSome then some { isin := isin, filledFor := e } else none

/-- `_enrich_meta`. -/
def enrichMeta (symbol : String) (st : QuotesState) : QuotesState :=
  match st.info symbol with
  | some _ => st
  | none =>
    match fetchMeta up e symbol with
    | some info => { st with info := Function.update st.info symbol (some info) }
    | none => st

/-- The enrichment of one quote. -/
def enrichOne (acc : QuoteMap × QuotesState) (symbol : String) : QuoteMap × QuotesState :=
  match acc.1 symbol with
  | some q =>
    let st := acc.2.enrichMeta up e symbol
    (Function.update acc.1 symbol (some (q.named (st.info symbol))), st)
  | none => acc

def enrichQuotes (symbols : List String) (acc : QuoteMap × QuotesState) : QuoteMap × QuotesState :=
  symbols.foldl (enrichOne up e) acc

/-- `_warm_get`. -/
def warmGet (rich fast : Bool) (st : QuotesState) (symbol : String) : Option SbQuote :=
  match st.warm symbol with
  | some hit =>
    if cfg.warmTtl ≤ now - hit.1 then none
    else if rich then none
    else if fast = false ∧ hit.2.opening = none then none
    else some hit.2
  | none => none

end Functions

/-- The warm quotes that a request takes. -/
def warmTaken (cfg : QuoteSettings) (call : QuotesCall) (now : ℚ) (st : QuotesState)
    (symbol : String) : Option SbQuote :=
  if symbol ∈ call.syms ∧ call.enrich = false ∧ call.rich = false then
    warmGet cfg now call.rich call.fast st symbol
  else none

/-- The quotes of a request, before the open is filled in. -/
def gather (cfg : QuoteSettings) (call : QuotesCall) (now : ℚ) (st : QuotesState) :
    QuoteMap × QuotesState :=
  let warm := st.warmTaken cfg call now
  batchQuotes cfg call.upstream call.exchange now call.rich
    (call.syms.filter fun s => (warm s).isNone) (warm, st)

/-- The quotes with their opens, where the request asks for them. -/
def filled (cfg : QuoteSettings) (call : QuotesCall) (now : ℚ) (st : QuotesState) :
    QuoteMap × QuotesState :=
  let acc := st.gather cfg call now
  if call.rich = false ∧ call.fast = false then
    fillOpen cfg call.upstream call.exchange now call.syms.dedup acc
  else acc

/-- The quotes with their names, where the request asks for them. -/
def enriched (call : QuotesCall) (acc : QuoteMap × QuotesState) : QuoteMap × QuotesState :=
  if call.enrich = true then enrichQuotes call.upstream call.exchange call.syms.dedup acc else acc

/-- `sb_quotes`. -/
def sbQuotes (cfg : QuoteSettings) (call : QuotesCall) (now : ℚ) (st : QuotesState) : QuotesState :=
  let acc := enriched call (st.filled cfg call now)
  { acc.2 with
    served := acc.2.served ++
      call.syms.filterMap fun s => (acc.1 s).map fun q => (now, s, q)
    responses := acc.2.responses ++ [(call.exchange, call.response acc.1)] }

/-- `_warm_refresh_once`. -/
def warmRefreshOnce (cfg : QuoteSettings) (up : Upstream) (symbols : List String) (now : ℚ)
    (st : QuotesState) : QuotesState :=
  let acc := batchQuotes cfg up .NSE now false symbols (fun _ => none, st)
  let acc := if cfg.warmFast then acc else fillOpen cfg up .NSE now symbols.dedup acc
  { acc.2 with
    warm := fun s => match acc.1 s with
      | some q => some (now, q)
      | none => acc.2.warm s }

/-- An enrichment writes one entry of `_META_CACHE`, if there is none, and nothing else. -/
theorem enrichMeta_eq (up : Upstream) (e : Exchange) (symbol : String) (st : QuotesState) :
    st.enrichMeta up e symbol = { st with
      info := Function.update st.info symbol ((st.info symbol).or (fetchMeta up e symbol)) } := by
  have hself : ∀ old, st.info symbol = old →
      { st with info := Function.update st.info symbol old } = st := by
    rintro _ rfl
    rw [Function.update_eq_self]
  unfold enrichMeta
  cases hold : st.info symbol with
  | some info => exact (hself _ hold).symm
  | none =>
    cases fetchMeta up e symbol with
    | some info => rfl
    | none => exact (hself _ hold).symm

/-- The quote of a symbol, after one has been set. -/
theorem update_eq_some {quotes : QuoteMap} {symbol s : String} {q q' : SbQuote}
    (h : Function.update quotes symbol (some q') s = some q) :
    (s = symbol ∧ q' = q) ∨ (s ≠ symbol ∧ quotes s = some q) := by
  by_cases hs : s = symbol
  · subst hs
    rw [Function.update_self] at h
    exact .inl ⟨rfl, Option.some.inj h⟩
  · rw [Function.update_of_ne hs] at h
    exact .inr ⟨hs, h⟩

/-- **What `_batch_quotes` does with a symbol**: the row's quote, that of a tick, or none. -/
theorem batchOne_cases (cfg : QuoteSettings) (up : Upstream) (e : Exchange) (now : ℚ) (rich : Bool)
    (acc : QuoteMap × QuotesState) (symbol : String) :
    let live := acc.2.liveQuote cfg up e now symbol
    (∃ row, fastRow up e rich symbol = some row ∧ batchOne cfg up e now rich acc symbol =
      (Function.update acc.1 symbol (some (sbQuoteFromTt (acc.2.info symbol) symbol row)), acc.2)) ∨
    (fastRow up e rich symbol = none ∧ ∃ tick, live.1 = some tick ∧
      batchOne cfg up e now rich acc symbol =
        (Function.update acc.1 symbol (some (sbQuote (live.2.info tick.symbol) tick)), live.2)) ∨
    (fastRow up e rich symbol = none ∧ live.1 = none ∧
      batchOne cfg up e now rich acc symbol = (acc.1, live.2)) := by
  intro live
  unfold batchOne
  cases hrow : fastRow up e rich symbol with
  | some row => exact .inl ⟨row, rfl, rfl⟩
  | none =>
    rcases hlive : live with ⟨_ | tick, st⟩
    · exact .inr (.inr ⟨rfl, rfl, by rw [show acc.2.liveQuote cfg up e now symbol = _ from hlive]⟩)
    · refine .inr (.inl ⟨rfl, tick, rfl, ?_⟩)
      rw [show acc.2.liveQuote cfg up e now symbol = _ from hlive]

/-- **What `_fill_open` does with a quote that has no open**: the open of the memo, that of a tick, or
    none. -/
theorem fillQuote_cases (cfg : QuoteSettings) (up : Upstream) (e : Exchange) (now : ℚ)
    (acc : QuoteMap × QuotesState) (symbol : String) (q : SbQuote) :
    let live := acc.2.liveQuote cfg up e now symbol
    (∃ o, acc.2.sessionOpen symbol = some (istDay now, o) ∧ fillQuote cfg up e now acc symbol q =
      (Function.update acc.1 symbol (some { q with opening := some o, filledAt := some now }),
        acc.2)) ∨
    (∀ o, acc.2.sessionOpen symbol ≠ some (istDay now, o)) ∧
      ((∃ tick, live.1 = some tick ∧ fillQuote cfg up e now acc symbol q =
        (Function.update acc.1 symbol (some (q.fill (live.2.info tick.symbol) tick now)),
          { live.2 with
            sessionOpen := Function.update live.2.sessionOpen symbol
              (some (istDay now, tick.opening)) })) ∨
      (live.1 = none ∧ fillQuote cfg up e now acc symbol q = (acc.1, live.2))) := by
  intro live
  unfold fillQuote
  cases hmemo : (acc.2.sessionOpen symbol).filter fun cached => cached.1 = istDay now with
  | some cached =>
    obtain ⟨hcached, hday⟩ := Option.filter_eq_some_iff.mp hmemo
    have hday : cached.1 = istDay now := of_decide_eq_true hday
    exact .inl ⟨cached.2, by rw [hcached, ← hday], rfl⟩
  | none =>
    refine .inr ⟨fun o ho => ?_, ?_⟩
    · rw [ho, Option.filter_some, if_pos (decide_eq_true rfl)] at hmemo
      cases hmemo
    · rcases hlive : live with ⟨_ | tick, st⟩
      · exact .inr ⟨rfl, by rw [show acc.2.liveQuote cfg up e now symbol = _ from hlive]⟩
      · exact .inl ⟨tick, rfl, by rw [show acc.2.liveQuote cfg up e now symbol = _ from hlive]⟩

theorem fillOne_cases (cfg : QuoteSettings) (up : Upstream) (e : Exchange) (now : ℚ)
    (acc : QuoteMap × QuotesState) (symbol : String) :
    fillOne cfg up e now acc symbol = acc ∨ ∃ q, acc.1 symbol = some q ∧ q.opening = none ∧
      fillOne cfg up e now acc symbol = fillQuote cfg up e now acc symbol q := by
  unfold fillOne
  cases hq : acc.1 symbol with
  | none => exact .inl rfl
  | some q =>
    by_cases hopen : q.opening = none
    · exact .inr ⟨q, rfl, hopen, if_pos hopen⟩
    · exact .inl (if_neg hopen)

theorem fetchMeta_filledFor {up : Upstream} {e : Exchange} {symbol : String} {info : QuoteMeta}
    (h : fetchMeta up e symbol = some info) : info.filledFor = e := by
  unfold fetchMeta at h
  dsimp only at h
  split at h
  · cases h
    rfl
  · split at h
    · cases h
      rfl
    · obtain ⟨-, h⟩ := Option.ite_none_right_eq_some.mp h
      cases h
      rfl

/-! ## 4. Sequences -/

inductive QuotesAction where
  | quotes (call : QuotesCall)
  | warmRefresh (up : Upstream) (symbols : List String)
  /-- `_live_quote` for another endpoint. -/
  | live (up : Upstream) (exchange : Exchange) (symbol : String)

def QuotesAction.upstream : QuotesAction → Upstream
  | .quotes call => call.upstream
  | .warmRefresh up _ => up
  | .live up _ _ => up

def perform (cfg : QuoteSettings) (now : ℚ) (st : QuotesState) : QuotesAction → QuotesState
  | .quotes call => st.sbQuotes cfg call now
  | .warmRefresh up symbols => st.warmRefreshOnce cfg up symbols now
  | .live up exchange symbol => (st.liveQuote cfg up exchange now symbol).2

/-- An action at a time that is not before the last one's. -/
def step (cfg : QuoteSettings) (st : QuotesState) (a : QuotesAction × ℚ) : Option QuotesState :=
  if st.now ≤ a.2 then some { perform cfg a.2 st a.1 with now := a.2 } else none

end QuotesState

end BharatTicker
