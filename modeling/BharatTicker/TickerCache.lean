/-
  File:      BharatTicker/TickerCache.lean
  Subject:   THE TICKER CACHE OVER THE IN-PROCESS STORE (`cache/ticker_cache.py`, `models/tick.py`).

  A tick has here all the fields that the cache writes, prices as the decimals they are, and for the
  timestamp and the latency the texts that the cache makes of them. A write is a pipeline of store
  operations; `time.time()` is one reading for each call.

  * `FullTick`, `MarketDepth` -- valid ticks and order books;
  * `tickToHash`, `setTick`, `setMarketDepth` -- writes;
  * `getTick`, `getMarketDepth`, `getBulkTicks` -- reads;
  * `CacheHistory`, `step` -- the store under any sequence of these calls.
-/
import BharatTicker.MemoryStore
import BharatTicker.Provider

namespace BharatTicker

open Basis

/-! ## 1. Ticks and order books -/

structure MarketDepthLevel where
  price : Decimal
  quantity : Nat
  orders : Nat
  deriving DecidableEq, Repr

structure MarketDepth where
  buy : List MarketDepthLevel := []
  sell : List MarketDepthLevel := []
  totalBuyQuantity : Nat := 0
  totalSellQuantity : Nat := 0
  deriving DecidableEq, Repr

inductive BookSide where
  | buy
  | sell
  deriving DecidableEq, Repr

def BookSide.str : BookSide → String
  | .buy => "buy"
  | .sell => "sell"

def MarketDepth.levels (depth : MarketDepth) : BookSide → List MarketDepthLevel
  | .buy => depth.buy
  | .sell => depth.sell

/-- What is written of a level. -/
inductive LevelKind where
  | price
  | qty
  | orders
  deriving DecidableEq, Repr

def LevelKind.str : LevelKind → String
  | .price => "price"
  | .qty => "qty"
  | .orders => "orders"

def LevelKind.value (level : MarketDepthLevel) : LevelKind → String
  | .price => level.price.str
  | .qty => toString level.quantity
  | .orders => toString level.orders

/-- `^INE[A-Z0-9]{9}$`. -/
def isinPattern (s : String) : Bool :=
  s.toList.take 3 = ['I', 'N', 'E'] && s.toList.length = 12 &&
    (s.toList.drop 3).all fun c => c.isUpper || c.isDigit

/-- `ge=0`. -/
def nonNegative (d : Decimal) : Bool := !d.negative || d.isZero

/-- A valid `TickData`: its fields meet the constraints of the model. -/
structure FullTick where
  symbol : String
  isin : Option String := none
  exchange : Exchange
  series : Option String := none
  ltp : Decimal
  opening : Decimal
  high : Decimal
  low : Decimal
  close : Decimal
  change : Decimal := {}
  pctChange : Decimal := {}
  volume : Nat := 0
  value : Option Decimal := none
  vwap : Option Decimal := none
  upperCircuit : Option Decimal := none
  lowerCircuit : Option Decimal := none
  week52High : Option Decimal := none
  week52Low : Option Decimal := none
  timestamp : String
  source : String
  sourceLatencyMs : String := "0.0"
  symbol_length : 1 ≤ symbol.length ∧ symbol.length ≤ 30 := by decide
  isin_pattern : ∀ s, isin = some s → isinPattern s = true := by decide
  prices_nonNegative : ∀ d ∈ [ltp, opening, high, low, close], nonNegative d = true := by decide
  options_nonNegative : ∀ d, some d ∈ [value, vwap, upperCircuit, lowerCircuit, week52High,
    week52Low] → nonNegative d = true := by simp

/-- A tick without an ISIN, and one without the optional prices, meet their constraints. -/
theorem no_isin : ∀ s, (none : Option String) = some s → isinPattern s = true := by
  intro s h
  cases h

theorem no_options :
    ∀ d, some d ∈ [(none : Option Decimal), none, none, none, none, none] →
      nonNegative d = true := by
  simp

/-- The settings of the cache, and the `maxlen` of the store's streams. -/
structure CacheSettings where
  tickTtlSeconds : Int := 5
  depthTtlSeconds : Int := 2
  streamMaxlen : Nat := 100000

/-- What `set_tick` publishes, before it is made a text. -/
structure TickMessage where
  symbol : String
  exchange : Exchange
  ltp : String
  change : String
  pctChange : String
  volume : Nat
  timestamp : String
  deriving DecidableEq, Repr

namespace TickerCache

/-! ## 2. Writes -/

/-- `f"{REDIS_PREFIX_STOCK}:{exchange}:{symbol}:latest"`. -/
def tickKey (exchange : Exchange) (symbol : String) : String :=
  "stock:" ++ exchange.str ++ ":" ++ symbol ++ ":latest"

/-- `f"{REDIS_PREFIX_STOCK}:{exchange}:{symbol}:depth"`. -/
def depthKey (exchange : Exchange) (symbol : String) : String :=
  "stock:" ++ exchange.str ++ ":" ++ symbol ++ ":depth"

/-- `str(d) if d else ""`. -/
def optionalStr (d : Option Decimal) : String :=
  match d with
  | some d => if d.isZero then "" else d.str
  | none => ""

/-- `_tick_to_hash`; `cachedAt` is `str(time.time())`. -/
def tickToHash (tick : FullTick) (cachedAt : String) : Hash :=
  [("symbol", tick.symbol),
    ("exchange", tick.exchange.str),
    ("isin", tick.isin.getD ""),
    ("series", tick.series.getD ""),
    ("ltp", tick.ltp.str),
    ("open", tick.opening.str),
    ("high", tick.high.str),
    ("low", tick.low.str),
    ("close", tick.close.str),
    ("change", tick.change.str),
    ("pct_change", tick.pctChange.str),
    ("volume", toString tick.volume),
    ("value", optionalStr tick.value),
    ("vwap", optionalStr tick.vwap),
    ("upper_circuit", optionalStr tick.upperCircuit),
    ("lower_circuit", optionalStr tick.lowerCircuit),
    ("week_52_high", optionalStr tick.week52High),
    ("week_52_low", optionalStr tick.week52Low),
    ("timestamp", tick.timestamp),
    ("source", tick.source),
    ("source_latency_ms", tick.sourceLatencyMs),
    ("cached_at", cachedAt)]

def streamData (tick : FullTick) : Hash :=
  [("symbol", tick.symbol), ("ltp", tick.ltp.str), ("volume", toString tick.volume),
    ("timestamp", tick.timestamp), ("source", tick.source)]

def pubsubData (tick : FullTick) : TickMessage where
  symbol := tick.symbol
  exchange := tick.exchange
  ltp := tick.ltp.str
  change := tick.change.str
  pctChange := tick.pctChange.str
  volume := tick.volume
  timestamp := tick.timestamp

/-- `f"ticks:{tick.exchange}"`. -/
def tickChannel (exchange : Exchange) : String := "ticks:" ++ exchange.str

/-- `set_tick`: the four operations of its pipeline. `dumps` is `orjson.dumps(...).decode()`. -/
def setTick (cfg : CacheSettings) (dumps : TickMessage → String) (tick : FullTick)
    (cachedAt : String) (now : ℚ) (s : MemoryStore) : MemoryStore :=
  let key := tickKey tick.exchange tick.symbol
  let s := (s.hset key (tickToHash tick cachedAt)).2
  let s := (s.expire key cfg.tickTtlSeconds now).2
  let s := (s.xadd cfg.streamMaxlen ("stream:ticks:" ++ tick.exchange.str) (streamData tick) now).2
  (s.publish (tickChannel tick.exchange) (dumps (pubsubData tick))).2

/-- `f"buy_{i}_price"` and the like. -/
def levelField (side : BookSide) (i : Nat) (kind : LevelKind) : String :=
  side.str ++ "_" ++ toString i ++ "_" ++ kind.str

/-- The body of `for i, level in enumerate(...)`. -/
def levelFields (side : BookSide) (level : MarketDepthLevel) (i : Nat) : Hash :=
  [(levelField side i .price, level.price.str),
    (levelField side i .qty, toString level.quantity),
    (levelField side i .orders, toString level.orders)]

/-- `enumerate(depth.buy[:5])`, `enumerate(depth.sell[:5])`. -/
def sideFields (side : BookSide) (levels : List MarketDepthLevel) : Hash :=
  (levels.take 5).zipIdx.flatMap fun e => levelFields side e.1 e.2

/-- The hash that `set_market_depth` writes; `updatedAt` is `datetime.now().isoformat()`. -/
def depthToHash (depth : MarketDepth) (updatedAt : String) : Hash :=
  sideFields .buy depth.buy ++ sideFields .sell depth.sell ++
    [("total_buy_qty", toString depth.totalBuyQuantity),
      ("total_sell_qty", toString depth.totalSellQuantity),
      ("updated_at", updatedAt)]

/-- `set_market_depth`. -/
def setMarketDepth (cfg : CacheSettings) (symbol : String) (exchange : Exchange)
    (depth : MarketDepth) (updatedAt : String) (now : ℚ) (s : MemoryStore) : MemoryStore :=
  let key := depthKey exchange symbol
  let s := (s.hset key (depthToHash depth updatedAt)).2
  (s.expire key cfg.depthTtlSeconds now).2

/-! ## 3. Reads -/

/-- `None` for an empty dictionary. -/
def orNone (data : Hash) : Option Hash := if data = [] then none else some data

/-- `get_tick`. -/
def getTick (symbol : String) (exchange : Exchange) (now : ℚ) (s : MemoryStore) :
    Option Hash × MemoryStore :=
  let (data, s) := s.hgetall (tickKey exchange symbol) now
  (orNone data, s)

/-- `get_market_depth`. -/
def getMarketDepth (symbol : String) (exchange : Exchange) (now : ℚ) (s : MemoryStore) :
    Option Hash × MemoryStore :=
  let (data, s) := s.hgetall (depthKey exchange symbol) now
  (orNone data, s)

/-- The pipeline of `get_bulk_ticks`: one `hgetall` for each symbol. -/
def bulkResults (symbols : List String) (exchange : Exchange) (now : ℚ) (s : MemoryStore) :
    List Hash × MemoryStore :=
  match symbols with
  | [] => ([], s)
  | symbol :: symbols =>
    let (data, s) := s.hgetall (tickKey exchange symbol) now
    let (results, s) := bulkResults symbols exchange now s
    (data :: results, s)

/-- `get_bulk_ticks`: the dictionary of the symbols with something cached. -/
def getBulkTicks (symbols : List String) (exchange : Exchange) (now : ℚ) (s : MemoryStore) :
    Dict String Hash × MemoryStore :=
  let (results, s) := bulkResults symbols exchange now s
  (Dict.update [] ((symbols.zip results).filter fun e => e.2 ≠ []), s)

/-! ## 4. Histories -/

/-- A tick that was written, with the two readings of the clock that its write made. -/
structure WrittenTick where
  tick : FullTick
  cachedAt : String
  time : ℚ

/-- The store and the time of the last call, with these ghosts for each pair: the last tick written,
    and the order books written since a read removed the hash, newest first. -/
structure CacheHistory where
  store : MemoryStore := {}
  now : ℚ := 0
  ticks : Exchange → String → Option WrittenTick := fun _ _ => none
  books : Exchange → String → List MarketDepth := fun _ _ => []

/-- The calls; each is made at a time. -/
inductive CacheCall where
  | setTick (tick : FullTick) (cachedAt : String)
  | setMarketDepth (symbol : String) (exchange : Exchange) (depth : MarketDepth)
      (updatedAt : String)
  | getTick (symbol : String) (exchange : Exchange)
  | getMarketDepth (symbol : String) (exchange : Exchange)
  | getBulkTicks (symbols : List String) (exchange : Exchange)

/-- `f` with another value at one pair. -/
def updatePair {α : Type} (f : Exchange → String → α) (exchange : Exchange) (symbol : String)
    (a : α) : Exchange → String → α :=
  Function.update f exchange (Function.update (f exchange) symbol a)

def perform (cfg : CacheSettings) (dumps : TickMessage → String) (s : CacheHistory) :
    CacheCall → CacheHistory
  | .setTick tick cachedAt =>
    { s with
      store := setTick cfg dumps tick cachedAt s.now s.store
      ticks := updatePair s.ticks tick.exchange tick.symbol (some ⟨tick, cachedAt, s.now⟩) }
  | .setMarketDepth symbol exchange depth updatedAt =>
    { s with
      store := setMarketDepth cfg symbol exchange depth updatedAt s.now s.store
      books := updatePair s.books exchange symbol (depth :: s.books exchange symbol) }
  | .getTick symbol exchange => { s with store := (getTick symbol exchange s.now s.store).2 }
  | .getMarketDepth symbol exchange =>
    { s with
      store := (getMarketDepth symbol exchange s.now s.store).2
      books := updatePair s.books exchange symbol
        (if s.store.dead (depthKey exchange symbol) s.now then [] else s.books exchange symbol) }
  | .getBulkTicks symbols exchange =>
    { s with store := (getBulkTicks symbols exchange s.now s.store).2 }

/-- A call at a time that is not before the last one's. -/
def step (cfg : CacheSettings) (dumps : TickMessage → String) (s : CacheHistory)
    (a : CacheCall × ℚ) : Option CacheHistory :=
  if s.now ≤ a.2 then some (perform cfg dumps { s with now := a.2 } a.1) else none

/-! ### Pairs and keys -/

section Keys

variable {e e' : Exchange} {symbol symbol' : String}

@[simp] theorem updatePair_self {α : Type} (f : Exchange → String → α) (e : Exchange)
    (symbol : String) (a : α) : updatePair f e symbol a e symbol = a := by
  simp [updatePair]

theorem updatePair_of_ne {α : Type} {f : Exchange → String → α} {a : α}
    (h : ¬ (e' = e ∧ symbol' = symbol)) : updatePair f e symbol a e' symbol' = f e' symbol' := by
  unfold updatePair
  by_cases he : e' = e
  · subst he
    have hs : symbol' ≠ symbol := fun hs => h ⟨rfl, hs⟩
    simp [Function.update_of_ne hs]
  · simp [Function.update_of_ne he]

theorem exchange_str_injective (h : e.str = e'.str) : e = e' := by
  cases e <;> cases e' <;> first | rfl | (revert h; decide)

/-- The parts of a key can be read off it. -/
theorem key_parts {kind : String} (h : "stock:" ++ e.str ++ ":" ++ symbol ++ kind =
    "stock:" ++ e'.str ++ ":" ++ symbol' ++ kind) : e = e' ∧ symbol = symbol' := by
  have hlist := congrArg String.toList h
  simp only [String.toList_append, List.append_assoc] at hlist
  have hlen : ∀ e : Exchange, e.str.toList.length = 3 := by
    intro e
    cases e <;> rfl
  obtain ⟨-, hrest⟩ := List.append_inj hlist rfl
  obtain ⟨he, hrest⟩ := List.append_inj hrest (by rw [hlen, hlen])
  obtain ⟨-, hrest⟩ := List.append_inj hrest rfl
  exact ⟨exchange_str_injective (String.toList_injective he),
    String.toList_injective (List.append_cancel_right hrest)⟩

/-- **Two pairs have different keys.** -/
theorem tickKey_injective (h : tickKey e symbol = tickKey e' symbol') :
    e = e' ∧ symbol = symbol' := key_parts h

theorem depthKey_injective (h : depthKey e symbol = depthKey e' symbol') :
    e = e' ∧ symbol = symbol' := key_parts h

/-- Ticks and order books are kept under different keys: these end in different letters. -/
theorem tickKey_ne_depthKey : tickKey e symbol ≠ depthKey e' symbol' := by
  intro h
  have hlast := congrArg (fun s => s.toList.getLast?) h
  have hlatest : ":latest".toList.getLast? = some 't' := by decide
  have hdepth : ":depth".toList.getLast? = some 'h' := by decide
  simp only [tickKey, depthKey, String.toList_append, List.getLast?_append, hlatest, hdepth] at hlast
  cases hlast

end Keys

end TickerCache

end BharatTicker
