/-
  File:      BharatTicker/Tickertape.lean
  Subject:   TICKERTAPE (`engine/tickertape.py`): `resolve`, `_ensure_sid_map` and `fetch_quotes`.

  A resolver is a task with two suspension points: it awaits the universe list, then `/search`.
  Between these the resolvers of all calls take their steps in any order; they share `_sid_cache` and
  `_all_sids`. What upstream answers is the input of a step.

  * `SidRecord`, `ListRow`, `SearchStock`, `QuoteRow` -- what is kept, and what upstream sends;
  * `ensureSidMap`, `bestMatch`, `resolveStart`, `resolveLookup`, `resolveSearch` -- the parts of
    `resolve`;
  * `sidMap`, `fetchQuotes` -- a batch;
  * `step` -- any interleaving.
-/
import BharatTicker.Basis.Dict
import BharatTicker.Basis.Run
import BharatTicker.MarketData

namespace BharatTicker

open Basis

/-! ## 1. Data -/

/-- `{sid, sector, name}`. -/
structure SidRecord where
  sid : Option String
  sector : Option String := none
  name : Option String := none
  deriving DecidableEq, Repr

/-- A row of `/stocks/list`; a `ticker` that is absent is the empty text. -/
structure ListRow where
  ticker : String
  sid : Option String
  deriving DecidableEq, Repr

/-- A stock in an answer of `/search`. -/
structure SearchStock where
  ticker : String
  sid : Option String
  sector : Option String := none
  name : Option String := none
  deriving DecidableEq, Repr

/-- A row of `/stocks/quotes`. -/
structure QuoteRow where
  sid : Option String
  price : Option ℚ
  close : Option ℚ := none
  change : Option ℚ := none
  high : Option ℚ := none
  low : Option ℚ := none
  volume : Option ℚ := none
  date : Option String := none
  deriving DecidableEq, Repr

/-- A sid that Python takes for true. -/
def trueSid (sid : Option String) : Option String := sid.filter fun x => x ≠ ""

/-- `symbol.strip().upper()`. -/
def tickerOf (symbol : String) : String := upper (strip symbol)

/-- A call of `resolve`, the symbol as its caller wrote it: before the universe list, before the
    search, and at its end (`none` also where it raised). -/
inductive Resolver where
  | loading (symbol : String)
  | searching (symbol : String)
  | resolved (symbol : String) (record : Option SidRecord)
  deriving DecidableEq, Repr

/-- `_sid_cache`, `_all_sids`, `_all_sids_at` and the resolvers; ghosts: the stocks that upstream
    answers have named, and the rows that `fetch_quotes` has returned. -/
structure Tickertape where
  sidCache : Dict String SidRecord := []
  allSids : Dict String String := []
  allSidsAt : ℚ := 0
  resolvers : ℕ → Option Resolver := fun _ => none
  stocks : List (String × String) := []
  returned : List (String × QuoteRow) := []

namespace Tickertape

/-! ## 2. `resolve` -/

/-- `_SID_SEED`. -/
def sidSeed : Dict String String := [("RELIANCE", "RELI")]

/-- `_SIDMAP_TTL`. -/
def sidMapTtl : ℚ := 86400

/-- The loop over the rows of `/stocks/list`. -/
def tickerSids (rows : List ListRow) : Dict String String :=
  rows.foldl (fun m x =>
    match trueSid x.sid with
    | some sid => if upper x.ticker ≠ "" then Dict.set m (upper x.ticker) sid else m
    | none => m) []

/-- The stocks that an answer names: ticker and sid. -/
def namedBy (answer : List (String × Option String)) : List (String × String) :=
  answer.filterMap fun x => (trueSid x.2).map fun sid => (upper x.1, sid)

/-- The ghost takes down what an answer names. -/
def named (answer : List (String × Option String)) (s : Tickertape) : Tickertape :=
  { s with stocks := s.stocks ++ namedBy answer }

/-- `_ensure_sid_map`, the map asked for at `checkedAt`. No other task changes it between that and the
    answer: `_all_sids_lock` is held. -/
def ensureSidMap (answer : Option (List ListRow)) (checkedAt answeredAt : ℚ) (s : Tickertape) :
    Tickertape :=
  if s.allSids ≠ [] ∧ checkedAt - s.allSidsAt < sidMapTtl then s
  else
    let rows := answer.getD []
    let s := s.named (rows.map fun x => (x.ticker, x.sid))
    if tickerSids rows ≠ [] then
      { s with allSids := tickerSids rows, allSidsAt := answeredAt }
    else s

/-- The stock that is taken: the first of the ticker, or else the first. -/
def bestMatch (ticker : String) (stocks : List SearchStock) : Option SearchStock :=
  stocks.find? (fun st => upper st.ticker = ticker) <|> stocks.head?

/-- `rec = {..}; _sid_cache[symbol] = rec; return rec`. -/
def remember (i : ℕ) (symbol : String) (record : SidRecord) (s : Tickertape) : Tickertape :=
  { s with
    sidCache := Dict.set s.sidCache (tickerOf symbol) record
    resolvers := Function.update s.resolvers i (some (.resolved symbol (some record))) }

def setResolver (i : ℕ) (r : Resolver) (s : Tickertape) : Tickertape :=
  { s with resolvers := Function.update s.resolvers i (some r) }

/-- `resolve` up to `await _ensure_sid_map()`. -/
def resolveStart (i : ℕ) (symbol : String) (s : Tickertape) : Tickertape :=
  match Dict.get? s.sidCache (tickerOf symbol) with
  | some record => s.setResolver i (.resolved symbol (some record))
  | none =>
    match Dict.get? sidSeed (tickerOf symbol) with
    | some seed => s.remember i symbol { sid := some seed }
    | none => s.setResolver i (.loading symbol)

/-- From there up to `await _search(symbol)`. -/
def resolveLookup (i : ℕ) (symbol : String) (s : Tickertape) : Tickertape :=
  match trueSid (Dict.get? s.allSids (tickerOf symbol)) with
  | some sid => s.remember i symbol { sid := some sid }
  | none => s.setResolver i (.searching symbol)

/-- The rest, over the stocks that `_search` has brought (none while it is limited). -/
def resolveSearch (i : ℕ) (symbol : String) (found : List SearchStock) (s : Tickertape) :
    Tickertape :=
  let s := s.named (found.map fun st => (st.ticker, st.sid))
  match bestMatch (tickerOf symbol) found with
  | some best =>
    let record : SidRecord := ⟨best.sid, best.sector, best.name⟩
    if (trueSid record.sid).isSome then s.remember i symbol record
    else s.setResolver i (.resolved symbol (some record))
  | none => s.setResolver i (.resolved symbol none)

/-! ## 3. `fetch_quotes` -/

/-- `_BATCH_SIDS`. -/
def batchSids : ℕ := 50

/-- `sid → SYMBOL`, over what the resolvers have returned, in the order of the symbols. -/
def sidMap (resolved : List (String × Option SidRecord)) : Dict String String :=
  resolved.foldl (fun m r =>
    match trueSid (r.2.bind (·.sid)) with
    | some sid => Dict.set m sid (upper r.1)
    | none => m) []

/-- The loop over the rows of one chunk. -/
def place (sids : Dict String String) (out : Dict String QuoteRow) (rows : List QuoteRow) :
    Dict String QuoteRow :=
  rows.foldl (fun out row =>
    match row.sid.bind (Dict.get? sids) with
    | some sym => if sym ≠ "" then Dict.set out sym row else out
    | none => out) out

/-- `[sids[i:i + _BATCH_SIDS] for i in range(0, len(sids), _BATCH_SIDS)]`. -/
def chunks (sids : List String) : List (List String) :=
  (List.range ((sids.length + batchSids - 1) / batchSids)).map fun k =>
    (sids.drop (k * batchSids)).take batchSids

/-- `fetch_quotes` after the resolvers; `upstream` is the answer to the request for a chunk. -/
def fetchQuotes (resolved : List (String × Option SidRecord))
    (upstream : List String → Option (List QuoteRow)) : Dict String QuoteRow :=
  let sids := sidMap resolved
  (chunks (Dict.keys sids)).foldl (fun out chunk =>
    place sids out ((upstream chunk).getD [])) []

/-- What a resolver has returned, with its symbol. -/
def result (s : Tickertape) (i : ℕ) : Option (String × Option SidRecord) :=
  match s.resolvers i with
  | some (.resolved symbol record) => some (symbol, record)
  | _ => none

/-! ## 4. Interleavings -/

inductive TickertapeAction where
  /-- `resolve` is called, by `fetch_quotes` or another. -/
  | call (i : ℕ) (symbol : String)
  | listed (i : ℕ) (answer : Option (List ListRow)) (checkedAt answeredAt : ℚ)
  | searched (i : ℕ) (found : List SearchStock)
  /-- An answer that it cannot read. -/
  | raised (i : ℕ)
  /-- `fetch_quotes`, all its resolvers being done. -/
  | fetch (resolvers : List ℕ) (upstream : List String → Option (List QuoteRow))

def step (s : Tickertape) : TickertapeAction → Option Tickertape
  | .call i symbol =>
    match s.resolvers i with
    | none => some (s.resolveStart i symbol)
    | some _ => none
  | .listed i answer checkedAt answeredAt =>
    match s.resolvers i with
    | some (.loading symbol) =>
      some ((s.ensureSidMap answer checkedAt answeredAt).resolveLookup i symbol)
    | _ => none
  | .searched i found =>
    match s.resolvers i with
    | some (.searching symbol) => some (s.resolveSearch i symbol found)
    | _ => none
  | .raised i =>
    match s.resolvers i with
    | some (.loading symbol) | some (.searching symbol) =>
      some (s.setResolver i (.resolved symbol none))
    | _ => none
  | .fetch resolvers upstream =>
    (resolvers.mapM s.result).map fun resolved =>
      { s with returned := s.returned ++ fetchQuotes resolved upstream }

end Tickertape

end BharatTicker
