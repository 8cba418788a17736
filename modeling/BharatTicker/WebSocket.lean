/-
  File:      BharatTicker/WebSocket.lean
  Subject:   THE STREAMING ENDPOINTS (`api/endpoints/websocket.py`: `websocket_all_ticks`,
             `websocket_symbol_ticks`, `_pubsub_listener`) OVER THE IN-PROCESS STORE.

  Every client has a queue of its own, subscribed to both channels, and a listener task that takes
  one message after another from it. The listener is suspended where it waits for the next message
  and where it sends one; a client that disconnects has its listener cancelled and its queue
  unsubscribed without a suspension between the two. `dumps` is `orjson.dumps(...).decode()`, and
  `symbolOf` is `json.loads(...).get("symbol")`, `none` for a text that is no JSON.

  * `WsClient`, `WsState` -- clients, the store, and what was published (a ghost);
  * `keeps` -- the filter of a listener;
  * `step` -- connections, publications, listeners, pings and disconnections in any order;
  * `step_cases` -- what one step does.
-/
import BharatTicker.MarketData
import BharatTicker.TickerCache

namespace BharatTicker

open Basis

/-! ## 1. Clients -/

/-- What a client gets: messages of the listener, and answers to its pings. -/
inductive Frame where
  | tick (data : String)
  | pong
  deriving DecidableEq, Repr

def Frame.data : Frame → Option String
  | .tick data => some data
  | .pong => none

/-- Where `_pubsub_listener` is suspended: in `queue.get()`, in `send_text(data)`; or it is over. -/
inductive Listener where
  | waiting
  | sending (data : String)
  | ended
  deriving DecidableEq, Repr

def Listener.inFlight : Listener → List String
  | .sending data => [data]
  | _ => []

/-- A client. `path` is the `{symbol}` of its URL, `none` for `/ws/ticks`; `joined` and `left` are
    ghosts: how much had been published when it was subscribed and when it was unsubscribed. -/
structure WsClient where
  path : Option String
  listener : Listener := .waiting
  frames : List Frame := []
  joined : Nat
  left : Option Nat := none
  deriving DecidableEq, Repr

/-- The messages of the listener that were sent. -/
def WsClient.sent (c : WsClient) : List String := c.frames.filterMap Frame.data

/-- `symbol.strip().upper()`, the symbol that a client asks for. -/
def WsClient.symbol (c : WsClient) : Option String := c.path.map fun path => upper (strip path)

/-- The clients by the number of their queue, the store, and a ghost: what `set_tick` published. -/
structure WsState where
  store : MemoryStore := {}
  clients : Nat → Option WsClient := fun _ => none
  published : List TickMessage := []

/-- The arguments of `pubsub.subscribe`. -/
def tickChannels : List String := ["ticks:NSE", "ticks:BSE"]

/-! ## 2. Steps -/

/-- The filter of `_pubsub_listener`: `if symbol_filter:`, then
    `json.loads(data).get("symbol") != symbol_filter`. -/
def keeps (symbolOf : String → Option String) (symbolFilter : Option String) (data : String) :
    Bool :=
  match symbolFilter with
  | none => true
  | some symbol => symbol = "" || symbolOf data = some symbol

inductive WsAction where
  /-- A client connects and is subscribed; its listener is created. -/
  | connect (id : Nat) (path : Option String)
  | setTick (tick : FullTick) (cachedAt : String) (now : ℚ)
  /-- The listener takes a message from its queue, and sends it or goes on. -/
  | listen (id : Nat)
  /-- `send_text` returns, or raises, which ends the listener. -/
  | sendDone (id : Nat) (ok : Bool)
  | ping (id : Nat)
  /-- The client is gone: its listener is cancelled, maybe after the message in flight went out. -/
  | disconnect (id : Nat) (delivered : Bool)

namespace WsState

def setClient (s : WsState) (id : Nat) (c : WsClient) : WsState :=
  { s with clients := Function.update s.clients id (some c) }

def connect (s : WsState) (id : Nat) (path : Option String) : Option WsState :=
  match s.clients id with
  | none =>
    some (setClient { s with store := s.store.subscribe id tickChannels } id
      { path := path, joined := s.published.length })
  | some _ => none

def setTick (cfg : CacheSettings) (dumps : TickMessage → String) (s : WsState) (tick : FullTick)
    (cachedAt : String) (now : ℚ) : WsState :=
  { s with
    store := TickerCache.setTick cfg dumps tick cachedAt now s.store
    published := s.published ++ [TickerCache.pubsubData tick] }

def listen (symbolOf : String → Option String) (s : WsState) (id : Nat) : Option WsState := do
  let c ← s.clients id
  if c.listener = .waiting then
    let (payload, store) ← s.store.listen id
    let listener := if keeps symbolOf c.symbol payload.data then .sending payload.data else .waiting
    return setClient { s with store := store } id { c with listener := listener }
  else none

def sendDone (s : WsState) (id : Nat) (ok : Bool) : Option WsState := do
  let c ← s.clients id
  match c.listener with
  | .sending data =>
    return s.setClient id (if ok then
      { c with listener := .waiting, frames := c.frames ++ [.tick data] }
    else { c with listener := .ended })
  | _ => none

def ping (s : WsState) (id : Nat) : Option WsState := do
  let c ← s.clients id
  if c.left = none then return s.setClient id { c with frames := c.frames ++ [.pong] } else none

def disconnect (s : WsState) (id : Nat) (delivered : Bool) : Option WsState := do
  let c ← s.clients id
  if c.left = none then
    let out := if delivered then c.listener.inFlight else []
    return setClient { s with store := s.store.unsubscribe id tickChannels } id
      { c with
        listener := .ended
        frames := c.frames ++ out.map .tick
        left := some s.published.length }
  else none

def step (cfg : CacheSettings) (dumps : TickMessage → String) (symbolOf : String → Option String)
    (s : WsState) : WsAction → Option WsState
  | .connect id path => s.connect id path
  | .setTick tick cachedAt now => some (s.setTick cfg dumps tick cachedAt now)
  | .listen id => s.listen symbolOf id
  | .sendDone id ok => s.sendDone id ok
  | .ping id => s.ping id
  | .disconnect id delivered => s.disconnect id delivered

/-! ### What one step does -/

section Steps

variable {symbolOf : String → Option String} {s s' : WsState} {id : Nat}

theorem setClient_self (s : WsState) (id : Nat) (c : WsClient) :
    (s.setClient id c).clients id = some c := Function.update_self ..

theorem setClient_of_ne (s : WsState) {id n : Nat} (h : n ≠ id) (c : WsClient) :
    (s.setClient id c).clients n = s.clients n := Function.update_of_ne h ..

theorem connect_cases {path : Option String} (h : s.connect id path = some s') :
    s.clients id = none ∧ s' = setClient { s with store := s.store.subscribe id tickChannels } id
      { path := path, joined := s.published.length } := by
  unfold connect at h
  split at h
  · rename_i hc
    exact ⟨hc, (Option.some.inj h).symm⟩
  · cases h

theorem listen_cases (h : s.listen symbolOf id = some s') :
    ∃ c payload rest, s.clients id = some c ∧ c.listener = .waiting ∧
      s.store.queues id = payload :: rest ∧
      s' = setClient
        { s with store := { s.store with queues := Function.update s.store.queues id rest } } id
        { c with listener :=
            if keeps symbolOf c.symbol payload.data then .sending payload.data else .waiting } := by
  obtain ⟨c, hc, h⟩ := Option.bind_eq_some_iff.mp h
  obtain ⟨hw, h⟩ := Option.ite_none_right_eq_some.mp h
  obtain ⟨r, hr, h⟩ := Option.bind_eq_some_iff.mp h
  cases hq : s.store.queues id with
  | nil => simp [MemoryStore.listen, hq] at hr
  | cons payload rest =>
    simp only [MemoryStore.listen, hq, Option.some.injEq] at hr
    subst hr
    exact ⟨c, payload, rest, hc, hw, rfl, (Option.some.inj h).symm⟩

theorem listen_eq {c : WsClient} {payload : Payload} {rest : List Payload}
    (hc : s.clients id = some c) (hw : c.listener = .waiting)
    (hq : s.store.queues id = payload :: rest) :
    s.listen symbolOf id = some (setClient
      { s with store := { s.store with queues := Function.update s.store.queues id rest } } id
      { c with listener :=
          if keeps symbolOf c.symbol payload.data then .sending payload.data else .waiting }) := by
  simp [listen, MemoryStore.listen, hc, hw, hq]

theorem sendDone_eq {c : WsClient} {data : String} (hc : s.clients id = some c)
    (hl : c.listener = .sending data) :
    s.sendDone id true = some (s.setClient id
      { c with listener := .waiting, frames := c.frames ++ [.tick data] }) := by
  simp [sendDone, hc, hl]

theorem sendDone_cases {ok : Bool} (h : s.sendDone id ok = some s') :
    ∃ c data, s.clients id = some c ∧ c.listener = .sending data ∧
      s' = s.setClient id (if ok then
        { c with listener := .waiting, frames := c.frames ++ [.tick data] }
      else { c with listener := .ended }) := by
  obtain ⟨c, hc, h⟩ := Option.bind_eq_some_iff.mp h
  cases hl : c.listener with
  | sending data =>
    simp only [hl] at h
    exact ⟨c, data, hc, hl, (Option.some.inj h).symm⟩
  | waiting =>
    simp only [hl] at h
    cases h
  | ended =>
    simp only [hl] at h
    cases h

theorem ping_cases (h : s.ping id = some s') :
    ∃ c, s.clients id = some c ∧ s' = s.setClient id { c with frames := c.frames ++ [.pong] } := by
  obtain ⟨c, hc, h⟩ := Option.bind_eq_some_iff.mp h
  obtain ⟨-, h⟩ := Option.ite_none_right_eq_some.mp h
  exact ⟨c, hc, (Option.some.inj h).symm⟩

theorem disconnect_cases {delivered : Bool} (h : s.disconnect id delivered = some s') :
    ∃ c, s.clients id = some c ∧ c.left = none ∧
      s' = setClient { s with store := s.store.unsubscribe id tickChannels } id
        { c with
          listener := .ended
          frames := c.frames ++ (if delivered then c.listener.inFlight else []).map .tick
          left := some s.published.length } := by
  obtain ⟨c, hc, h⟩ := Option.bind_eq_some_iff.mp h
  obtain ⟨hl, h⟩ := Option.ite_none_right_eq_some.mp h
  exact ⟨c, hc, hl, (Option.some.inj h).symm⟩

end Steps

end WsState

end BharatTicker
