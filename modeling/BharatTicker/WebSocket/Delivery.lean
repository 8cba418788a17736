/-
  File:      BharatTicker/WebSocket/Delivery.lean
  Subject:   WHAT A STREAMING CLIENT IS SENT.

  A subscribed client's queue holds, in order, what was published since its subscription and its
  listener has not taken yet. So the messages sent, the one in flight and those in the queue that
  the filter keeps are, one after another, the published ones that it keeps. The filter is the
  client's symbol, but for the empty one, which it takes for no filter.

  * `due` -- what is published for a client while it is subscribed;
  * `Delivered` -- the guarantee;
  * `WsInv`, `step_inv` -- the invariant of every step;
  * `ticks_delivered_iff` -- all runs: for which paths the guarantee holds.
-/
import BharatTicker.Basis.Run
import BharatTicker.WebSocket

namespace BharatTicker

open Basis

/-! ## 1. The guarantee -/

/-- What was published while the client was subscribed. -/
def window (published : List TickMessage) (c : WsClient) : List TickMessage :=
  (published.take (c.left.getD published.length)).drop c.joined

/-- A message for the symbol that the client asks for; on `/ws/ticks` every message. -/
def addressed (c : WsClient) (m : TickMessage) : Bool :=
  match c.symbol with
  | none => true
  | some symbol => m.symbol = symbol

/-- The sequence of messages published for the client from its subscription to its
    unsubscription. -/
def due (s : WsState) (c : WsClient) : List TickMessage :=
  (window s.published c).filter (addressed c)

/-- What was sent to the client is a prefix of what is due, and all of it when its listener waits on
    an empty queue. -/
structure Delivered (dumps : TickMessage → String) (s : WsState) (id : Nat) (c : WsClient) :
    Prop where
  inOrder : c.sent <+: (due s c).map dumps
  complete : c.listener = .waiting → s.store.queues id = [] → c.sent = (due s c).map dumps

/-! ## 2. Windows -/

section Windows

variable {published : List TickMessage} {c : WsClient} {m : TickMessage}

theorem window_push (h : c.left = none) (hj : c.joined ≤ published.length) :
    window (published ++ [m]) c = window published c ++ [m] := by
  unfold window
  rw [h, Option.getD_none, Option.getD_none, List.take_length, List.take_length,
    List.drop_append_of_le_length hj]

theorem window_push_of_left {n : Nat} (h : c.left = some n) (hn : n ≤ published.length) :
    window (published ++ [m]) c = window published c := by
  unfold window
  rw [h, Option.getD_some, Option.getD_some, List.take_append_of_le_length hn]

/-- A client that leaves now has the window it had. -/
theorem window_leave (h : c.left = none) {c' : WsClient} (hj : c'.joined = c.joined)
    (hl : c'.left = some published.length) : window published c' = window published c := by
  unfold window
  rw [h, hl, hj]
  rfl

end Windows

/-! ## 3. The invariant -/

section Invariant

variable (dumps : TickMessage → String) (symbolOf : String → Option String)

/-- The texts of the window that the client's listener keeps. -/
def kept (s : WsState) (c : WsClient) : List String :=
  ((window s.published c).map dumps).filter (keeps symbolOf c.symbol)

/-- The texts in the client's queue that its listener will keep. -/
def queued (s : WsState) (id : Nat) (c : WsClient) : List String :=
  ((s.store.queues id).map Payload.data).filter (keeps symbolOf c.symbol)

structure Served (s : WsState) (id : Nat) (c : WsClient) : Prop where
  joined_le : c.joined ≤ s.published.length
  left_le : ∀ n, c.left = some n → n ≤ s.published.length
  subscribed : ∀ ch ∈ tickChannels, id ∈ s.store.subscribers ch ↔ c.left = none
  ended : c.left ≠ none → c.listener = .ended
  inOrder : c.sent <+: kept dumps symbolOf s c
  flow : c.listener ≠ .ended →
    kept dumps symbolOf s c = c.sent ++ c.listener.inFlight ++ queued symbolOf s id c

/-- No client has the number, and no queue of that number is in use. -/
structure Unused (s : WsState) (id : Nat) : Prop where
  unsubscribed : ∀ ch ∈ tickChannels, id ∉ s.store.subscribers ch
  empty : s.store.queues id = []

def WsInv (s : WsState) : Prop :=
  ∀ id, match s.clients id with
    | none => Unused s id
    | some c => Served dumps symbolOf s id c

end Invariant

section Steps

variable {dumps : TickMessage → String} {symbolOf : String → Option String} {cfg : CacheSettings}
  {s s' : WsState} {id : Nat} {c : WsClient}

theorem WsInv.served (h : WsInv dumps symbolOf s) (hc : s.clients id = some c) :
    Served dumps symbolOf s id c := by
  have hid := h id
  rwa [hc] at hid

theorem WsInv.unused (h : WsInv dumps symbolOf s) (hc : s.clients id = none) : Unused s id := by
  have hid := h id
  rwa [hc] at hid

theorem wsInv_init : WsInv dumps symbolOf {} := fun _ => ⟨fun _ _ => Finset.notMem_empty _, rfl⟩

/-- **A step that concerns one client keeps the invariant**, if what it leaves of that client does. -/
theorem wsInv_of_client (h : WsInv dumps symbolOf s) {c' : WsClient} {store : MemoryStore}
    (hsub : ∀ n, n ≠ id → ∀ ch ∈ tickChannels,
      (n ∈ store.subscribers ch ↔ n ∈ s.store.subscribers ch))
    (hq : ∀ n, n ≠ id → store.queues n = s.store.queues n)
    (hc : Served dumps symbolOf { s with store := store } id c') :
    WsInv dumps symbolOf (WsState.setClient { s with store := store } id c') := by
  intro n
  by_cases hn : n = id
  · subst hn
    rw [WsState.setClient_self]
    exact ⟨hc.joined_le, hc.left_le, hc.subscribed, hc.ended, hc.inOrder, hc.flow⟩
  · rw [WsState.setClient_of_ne _ hn]
    cases hcn : s.clients n with
    | none =>
      obtain ⟨hunsub, hempty⟩ := h.unused hcn
      exact ⟨fun ch hch hmem => hunsub ch hch ((hsub n hn ch hch).mp hmem), (hq n hn).trans hempty⟩
    | some d =>
      have hd := h.served hcn
      refine ⟨hd.joined_le, hd.left_le, fun ch hch => (hsub n hn ch hch).trans (hd.subscribed ch hch),
        hd.ended, hd.inOrder, fun hl => (hd.flow hl).trans ?_⟩
      unfold queued
      rw [show (WsState.setClient { s with store := store } id c').store.queues n =
        s.store.queues n from hq n hn]

/-! ### Publications -/

/-- What `set_tick` leaves of subscribers and queues. -/
theorem setTick_channels (cfg : CacheSettings) (dumps : TickMessage → String) (tick : FullTick)
    (cachedAt : String) (now : ℚ) (store : MemoryStore) :
    (TickerCache.setTick cfg dumps tick cachedAt now store).subscribers = store.subscribers ∧
      ∀ q, (TickerCache.setTick cfg dumps tick cachedAt now store).queues q =
        if q ∈ store.subscribers (TickerCache.tickChannel tick.exchange) then
          store.queues q ++ [⟨TickerCache.tickChannel tick.exchange,
            dumps (TickerCache.pubsubData tick)⟩]
        else store.queues q := by
  unfold TickerCache.setTick
  dsimp only
  rw [MemoryStore.hset_expire]
  exact ⟨rfl, fun q => rfl⟩

theorem tickChannel_mem (e : Exchange) : TickerCache.tickChannel e ∈ tickChannels := by
  cases e <;> decide

section Publication

variable (tick : FullTick) (cachedAt : String) (now : ℚ)

/-- A published message is the last one of the window of a client that is there. -/
theorem setTick_kept (h : c.left = none) (hj : c.joined ≤ s.published.length) :
    kept dumps symbolOf (s.setTick cfg dumps tick cachedAt now) c = kept dumps symbolOf s c ++
      [dumps (TickerCache.pubsubData tick)].filter (keeps symbolOf c.symbol) := by
  have hlog : (s.setTick cfg dumps tick cachedAt now).published =
      s.published ++ [TickerCache.pubsubData tick] := rfl
  unfold kept
  rw [hlog, window_push h hj, List.map_append, List.filter_append]
  rfl

/-- It is past the window of a client that has left. -/
theorem setTick_kept_of_left {n : Nat} (h : c.left = some n) (hn : n ≤ s.published.length) :
    kept dumps symbolOf (s.setTick cfg dumps tick cachedAt now) c = kept dumps symbolOf s c := by
  have hlog : (s.setTick cfg dumps tick cachedAt now).published =
      s.published ++ [TickerCache.pubsubData tick] := rfl
  unfold kept
  rw [hlog, window_push_of_left h hn]

/-- And it is the last one of a subscriber's queue. -/
theorem setTick_queued (h : id ∈ s.store.subscribers (TickerCache.tickChannel tick.exchange)) :
    queued symbolOf (s.setTick cfg dumps tick cachedAt now) id c = queued symbolOf s id c ++
      [dumps (TickerCache.pubsubData tick)].filter (keeps symbolOf c.symbol) := by
  have hqueue : (s.setTick cfg dumps tick cachedAt now).store.queues id = s.store.queues id ++
      [⟨TickerCache.tickChannel tick.exchange, dumps (TickerCache.pubsubData tick)⟩] :=
    ((setTick_channels cfg dumps tick cachedAt now s.store).2 id).trans (if_pos h)
  unfold queued
  rw [hqueue, List.map_append, List.filter_append]
  rfl

/-- **A published message goes to the end of every subscriber's queue and of its window.** -/
theorem setTick_inv (h : WsInv dumps symbolOf s) :
    WsInv dumps symbolOf (s.setTick cfg dumps tick cachedAt now) := by
  obtain ⟨hsub, hq⟩ := setTick_channels cfg dumps tick cachedAt now s.store
  have hchannel := tickChannel_mem tick.exchange
  intro id
  show match s.clients id with
    | none => Unused (s.setTick cfg dumps tick cachedAt now) id
    | some c => Served dumps symbolOf (s.setTick cfg dumps tick cachedAt now) id c
  cases hc : s.clients id with
  | none =>
    obtain ⟨hunsub, hempty⟩ := h.unused hc
    refine ⟨fun ch hch hmem => hunsub ch hch (hsub ▸ hmem), ?_⟩
    exact (hq id).trans ((if_neg (hunsub _ hchannel)).trans hempty)
  | some c =>
    have hs := h.served hc
    have hlen : s.published.length ≤ (s.published ++ [TickerCache.pubsubData tick]).length := by
      rw [List.length_append]
      omega
    have hsubscribed : ∀ ch ∈ tickChannels,
        id ∈ (s.setTick cfg dumps tick cachedAt now).store.subscribers ch ↔ c.left = none := by
      intro ch hch
      rw [← hs.subscribed ch hch]
      exact Iff.of_eq (congrArg (fun subs : String → Finset Nat => id ∈ subs ch) hsub)
    refine ⟨hs.joined_le.trans hlen, fun n hn => (hs.left_le n hn).trans hlen, hsubscribed, hs.ended,
      ?_, fun hlistener => ?_⟩
    · cases hl : c.left with
      | none =>
        rw [setTick_kept tick cachedAt now hl hs.joined_le]
        exact hs.inOrder.trans (List.prefix_append ..)
      | some n =>
        rw [setTick_kept_of_left tick cachedAt now hl (hs.left_le n hl)]
        exact hs.inOrder
    · -- whoever listens is still there
      have hl : c.left = none := by
        by_contra hleft
        exact hlistener (hs.ended hleft)
      rw [setTick_kept tick cachedAt now hl hs.joined_le,
        setTick_queued tick cachedAt now ((hs.subscribed _ hchannel).mpr hl), hs.flow hlistener,
        List.append_assoc _ (queued symbolOf s id c)]

end Publication

/-! ### Clients -/

theorem connect_inv (h : WsInv dumps symbolOf s) {path : Option String}
    (hs : s.connect id path = some s') : WsInv dumps symbolOf s' := by
  obtain ⟨hnone, rfl⟩ := WsState.connect_cases hs
  refine wsInv_of_client h (fun n hn ch hch => ?_) (fun _ _ => rfl) ?_
  · show n ∈ (if ch ∈ tickChannels then insert id (s.store.subscribers ch) else _) ↔ _
    rw [if_pos hch, Finset.mem_insert, or_iff_right hn]
  · -- its window and its queue are empty
    have hkept : kept dumps symbolOf { s with store := s.store.subscribe id tickChannels }
        { path := path, joined := s.published.length } = [] := by
      unfold kept window
      rw [Option.getD_none, List.take_length, List.drop_length]
      rfl
    have hqueued : queued symbolOf { s with store := s.store.subscribe id tickChannels } id
        { path := path, joined := s.published.length } = [] := by
      have hempty : (s.store.subscribe id tickChannels).queues id = [] := (h.unused hnone).empty
      unfold queued
      rw [hempty]
      rfl
    refine ⟨le_refl _, fun n hn => (by cases hn), fun ch hch => ?_, fun hl => absurd rfl hl,
      List.nil_prefix, fun _ => ?_⟩
    · show id ∈ (if ch ∈ tickChannels then insert id (s.store.subscribers ch) else _) ↔ _
      rw [if_pos hch]
      exact iff_of_true (Finset.mem_insert_self ..) rfl
    · rw [hkept, hqueued]
      rfl

/-- **The listener takes the first message of its queue**: it is in flight then, or passed over. -/
theorem listen_inv (h : WsInv dumps symbolOf s) (hs : s.listen symbolOf id = some s') :
    WsInv dumps symbolOf s' := by
  obtain ⟨c, payload, rest, hc, hwaiting, hqueue, rfl⟩ := WsState.listen_cases hs
  have hserved := h.served hc
  have hflow := hserved.flow (by rw [hwaiting]; exact nofun)
  refine wsInv_of_client h (fun _ _ _ _ => Iff.rfl) (fun n hn => Function.update_of_ne hn ..) ?_
  refine ⟨hserved.joined_le, hserved.left_le, hserved.subscribed, fun hl => ?_, hserved.inOrder,
    fun _ => ?_⟩
  · have hended := hserved.ended hl
    rw [hwaiting] at hended
    cases hended
  · refine (show kept dumps symbolOf s c = _ from hflow).trans ?_
    have hhead : queued symbolOf s id c = (if keeps symbolOf c.symbol payload.data then
        [payload.data] else []) ++ (rest.map Payload.data).filter (keeps symbolOf c.symbol) := by
      unfold queued
      rw [hqueue, List.map_cons, List.filter_cons]
      split <;> rfl
    rw [hwaiting, hhead]
    unfold queued
    dsimp only
    rw [Function.update_self]
    by_cases hk : keeps symbolOf c.symbol payload.data = true
    · rw [if_pos hk, if_pos hk, List.append_assoc, List.append_assoc]
      rfl
    · rw [if_neg hk, if_neg hk, List.append_assoc, List.append_assoc]
      rfl

theorem sent_append (frames : List Frame) (out : List String) :
    (frames ++ out.map Frame.tick).filterMap Frame.data = frames.filterMap Frame.data ++ out := by
  rw [List.filterMap_append, List.filterMap_map]
  have hid : (Frame.data ∘ Frame.tick) = some := rfl
  rw [hid, List.filterMap_some]

/-- **A send that returns makes the message in flight a sent one.** -/
theorem sendDone_inv (h : WsInv dumps symbolOf s) {ok : Bool} (hs : s.sendDone id ok = some s') :
    WsInv dumps symbolOf s' := by
  obtain ⟨c, data, hc, hsending, rfl⟩ := WsState.sendDone_cases hs
  have hserved := h.served hc
  have hflow := hserved.flow (by rw [hsending]; exact nofun)
  have hstays : c.left = none := by
    by_contra hl
    have hended := hserved.ended hl
    rw [hsending] at hended
    cases hended
  refine wsInv_of_client h (fun _ _ _ _ => Iff.rfl) (fun _ _ => rfl) ?_
  cases ok with
  | true =>
    have hsent : WsClient.sent { c with listener := .waiting, frames := c.frames ++ [.tick data] } =
        c.sent ++ [data] := sent_append c.frames [data]
    rw [hsending] at hflow
    refine ⟨hserved.joined_le, hserved.left_le, hserved.subscribed, fun hl => absurd hstays hl, ?_,
      fun _ => ?_⟩
    · show WsClient.sent _ <+: kept dumps symbolOf s c
      rw [if_pos rfl, hsent, hflow]
      exact List.prefix_append ..
    · refine (show kept dumps symbolOf s c = _ from hflow).trans ?_
      rw [if_pos rfl, hsent]
      show _ = c.sent ++ [data] ++ [] ++ queued symbolOf s id c
      rw [List.append_nil]
      rfl
  | false =>
    exact ⟨hserved.joined_le, hserved.left_le, hserved.subscribed, fun _ => rfl, hserved.inOrder,
      fun hl => absurd rfl hl⟩

theorem ping_inv (h : WsInv dumps symbolOf s) (hs : s.ping id = some s') :
    WsInv dumps symbolOf s' := by
  obtain ⟨c, hc, rfl⟩ := WsState.ping_cases hs
  have hserved := h.served hc
  have hsent : WsClient.sent { c with frames := c.frames ++ [.pong] } = c.sent := by
    show (c.frames ++ [Frame.pong]).filterMap Frame.data = _
    rw [List.filterMap_append]
    exact List.append_nil _
  refine wsInv_of_client h (fun _ _ _ _ => Iff.rfl) (fun _ _ => rfl) ?_
  refine ⟨hserved.joined_le, hserved.left_le, hserved.subscribed, hserved.ended, ?_, fun hl => ?_⟩
  · rw [hsent]
    exact hserved.inOrder
  · rw [hsent]
    exact hserved.flow hl

theorem kept_leave {store : MemoryStore} {c' : WsClient} (h : c.left = none)
    (hp : c'.path = c.path) (hj : c'.joined = c.joined) (hl : c'.left = some s.published.length) :
    kept dumps symbolOf { s with store := store } c' = kept dumps symbolOf s c := by
  have hsymbol : c'.symbol = c.symbol := congrArg (Option.map fun path => upper (strip path)) hp
  unfold kept
  rw [hsymbol, window_leave h hj hl]

/-- **A client that leaves keeps its window**, whether or not the message in flight went out. -/
theorem disconnect_inv (h : WsInv dumps symbolOf s) {delivered : Bool}
    (hs : s.disconnect id delivered = some s') : WsInv dumps symbolOf s' := by
  obtain ⟨c, hc, hleft, rfl⟩ := WsState.disconnect_cases hs
  have hserved := h.served hc
  refine wsInv_of_client h (fun n hn ch hch => ?_) (fun _ _ => rfl) ?_
  · show n ∈ (if ch ∈ tickChannels then (s.store.subscribers ch).erase id else _) ↔ _
    rw [if_pos hch, Finset.mem_erase, and_iff_right hn]
  · refine ⟨hserved.joined_le, fun n hn => ?_, fun ch hch => ?_, fun _ => rfl, ?_,
      fun hl => absurd rfl hl⟩
    · cases hn
      exact le_refl _
    · show id ∈ (if ch ∈ tickChannels then (s.store.subscribers ch).erase id else _) ↔ _
      rw [if_pos hch]
      exact iff_of_false (Finset.notMem_erase _ _) (Option.some_ne_none _)
    · have hkept : kept dumps symbolOf { s with store := s.store.unsubscribe id tickChannels }
          { c with
            listener := .ended
            frames := c.frames ++ (if delivered then c.listener.inFlight else []).map .tick
            left := some s.published.length } = kept dumps symbolOf s c :=
        kept_leave hleft rfl rfl rfl
      rw [hkept]
      show (c.frames ++ _).filterMap Frame.data <+: _
      rw [sent_append]
      cases delivered with
      | false =>
        rw [if_neg Bool.false_ne_true, List.append_nil]
        exact hserved.inOrder
      | true =>
        rw [if_pos rfl]
        by_cases hended : c.listener = .ended
        · rw [hended]
          show c.sent ++ [] <+: _
          rw [List.append_nil]
          exact hserved.inOrder
        · rw [hserved.flow hended]
          exact List.prefix_append ..

/-- **Every step keeps the invariant.** -/
theorem step_inv {a : WsAction} (h : WsInv dumps symbolOf s)
    (hs : WsState.step cfg dumps symbolOf s a = some s') : WsInv dumps symbolOf s' := by
  cases a with
  | connect id path => exact connect_inv h hs
  | setTick tick cachedAt now =>
    cases hs
    exact setTick_inv tick cachedAt now h
  | listen id => exact listen_inv h hs
  | sendDone id ok => exact sendDone_inv h hs
  | ping id => exact ping_inv h hs
  | disconnect id delivered => exact disconnect_inv h hs

/-! ## 4. All runs -/

/-- The listener keeps what is addressed to its client, if the symbol is not empty. -/
theorem kept_eq (hjson : ∀ m, symbolOf (dumps m) = some m.symbol) (hne : c.symbol ≠ some "") :
    kept dumps symbolOf s c = (due s c).map dumps := by
  unfold kept due
  rw [List.filter_map]
  congr 1
  refine List.filter_congr fun m _ => ?_
  show keeps symbolOf c.symbol (dumps m) = addressed c m
  unfold keeps addressed
  cases hsym : c.symbol with
  | none => rfl
  | some symbol =>
    have hempty : symbol ≠ "" := fun e => hne (hsym.trans (congrArg some e))
    simp only [hjson, hempty, decide_false, Bool.false_or, Option.some.injEq]

theorem Served.delivered (h : Served dumps symbolOf s id c)
    (hjson : ∀ m, symbolOf (dumps m) = some m.symbol) (hne : c.symbol ≠ some "") :
    Delivered dumps s id c := by
  have hkept : kept dumps symbolOf s c = (due s c).map dumps := kept_eq hjson hne
  constructor
  · rw [← hkept]
    exact h.inOrder
  · intro hwaiting hempty
    have hflow := h.flow (by rw [hwaiting]; exact nofun)
    rw [← hkept, hflow, hwaiting]
    show c.sent = c.sent ++ [] ++ queued symbolOf s id c
    unfold queued
    rw [hempty, List.append_nil]
    exact (List.append_nil _).symm

def sbinTick : FullTick where
  symbol := "SBIN"
  exchange := .NSE
  ltp := ⟨false, 8125, -1⟩
  opening := ⟨false, 808, 0⟩
  high := ⟨false, 815, 0⟩
  low := ⟨false, 806, 0⟩
  close := ⟨false, 80795, -2⟩
  volume := 1200
  timestamp := "2026-01-05T10:00:00+05:30"
  source := "groww"
  prices_nonNegative := by
    intro d hd
    fin_cases hd <;> rfl
  isin_pattern := no_isin
  options_nonNegative := no_options

/-- The actions after which a client with a blank path was sent a message for another symbol. -/
def blankRun (path : String) (tick : FullTick) : List WsAction :=
  [.connect 0 (some path), .setTick tick "0.0" 0, .listen 0, .sendDone 0 true]

/-- **An empty symbol filters nothing.** -/
theorem blankRun_not_delivered {path : String} (hblank : upper (strip path) = "") (tick : FullTick) :
    ∃ s c, run (WsState.step cfg dumps symbolOf) {} (blankRun path tick) = some s ∧
      s.clients 0 = some c ∧ c.path = some path ∧ ¬ Delivered dumps s 0 c := by
  let c₀ : WsClient := { path := some path, joined := 0 }
  let s₁ : WsState := WsState.setClient { store := ({} : MemoryStore).subscribe 0 tickChannels } 0 c₀
  let data := dumps (TickerCache.pubsubData tick)
  have hqueue : (s₁.setTick cfg dumps tick "0.0" 0).store.queues 0 =
      [⟨TickerCache.tickChannel tick.exchange, data⟩] := by
    refine ((setTick_channels cfg dumps tick "0.0" 0 s₁.store).2 0).trans (if_pos ?_)
    show 0 ∈ (if TickerCache.tickChannel tick.exchange ∈ tickChannels then insert 0 _ else _)
    rw [if_pos (tickChannel_mem tick.exchange)]
    exact Finset.mem_insert_self ..
  have hsymbol : c₀.symbol = some "" := congrArg some hblank
  have hkeeps : keeps symbolOf c₀.symbol data = true := by
    rw [hsymbol]
    rfl
  obtain ⟨s₃, hlisten, hc₃, hlog⟩ : ∃ s₃, (s₁.setTick cfg dumps tick "0.0" 0).listen symbolOf 0 =
      some s₃ ∧ s₃.clients 0 = some { c₀ with listener := .sending data } ∧
        s₃.published = [TickerCache.pubsubData tick] := by
    refine ⟨_, WsState.listen_eq (c := c₀) rfl rfl hqueue, ?_, rfl⟩
    rw [if_pos hkeeps]
    exact WsState.setClient_self ..
  have hdone := WsState.sendDone_eq hc₃ rfl
  refine ⟨_, { c₀ with frames := [.tick data] }, run_cons.2 ⟨s₁, rfl, run_cons.2 ⟨_, rfl,
    run_cons.2 ⟨s₃, hlisten, run_cons.2 ⟨_, hdone, rfl⟩⟩⟩⟩, WsState.setClient_self .., rfl,
    fun h => ?_⟩
  -- nothing is due: no tick has an empty symbol
  have hne : tick.symbol ≠ "" := by
    intro e
    have hlen := tick.symbol_length.1
    rw [e] at hlen
    cases hlen
  have haddressed : addressed { c₀ with frames := [.tick data] } (TickerCache.pubsubData tick) =
      false := by
    show (match c₀.symbol with
      | none => true
      | some symbol => decide (tick.symbol = symbol)) = false
    rw [hsymbol]
    exact decide_eq_false hne
  have hprefix := h.inOrder
  unfold due window at hprefix
  rw [show (WsState.setClient s₃ 0 _).published = [TickerCache.pubsubData tick] from hlog] at hprefix
  rw [show ((([TickerCache.pubsubData tick] : List TickMessage).take _).drop 0).filter
    (addressed { c₀ with frames := [.tick data] }) = [] from
      List.filter_cons_of_neg (by rw [haddressed]; exact Bool.false_ne_true)] at hprefix
  exact absurd (List.prefix_nil.mp hprefix) (List.cons_ne_nil _ _)

end Steps

/-! ## 5. A text form of the messages -/

/-- A character in a JSON string; control characters are not looked at. -/
def escaped (c : Char) : List Char := if c = '"' ∨ c = '\\' then ['\\', c] else [c]

def quoted (s : String) : List Char := '"' :: (s.toList.flatMap escaped ++ ['"'])

/-- The string up to its closing quote; after a backslash a character stands for itself. -/
def unquoted (backslash : Bool) : List Char → Option (List Char)
  | [] => none
  | c :: cs =>
    if backslash then (unquoted false cs).map (c :: ·)
    else if c = '"' then some []
    else if c = '\\' then unquoted true cs
    else (unquoted false cs).map (c :: ·)

theorem unquoted_escaped (cs rest : List Char) :
    unquoted false (cs.flatMap escaped ++ '"' :: rest) = some cs := by
  induction cs with
  | nil => rfl
  | cons c cs ih =>
    rw [List.flatMap_cons, List.append_assoc, escaped]
    split
    · show (unquoted false (cs.flatMap escaped ++ '"' :: rest)).map (c :: ·) = _
      rw [ih]
      rfl
    · rename_i h
      rw [not_or] at h
      show unquoted false (c :: (cs.flatMap escaped ++ '"' :: rest)) = _
      rw [unquoted, if_neg Bool.false_ne_true, if_neg h.1, if_neg h.2, ih]
      rfl

/-- The compact JSON of a message. -/
def messageText (m : TickMessage) : String :=
  String.ofList ("\x7b\"symbol\":".toList ++ quoted m.symbol ++
    ",\"exchange\":".toList ++ quoted m.exchange.str ++
    ",\"ltp\":".toList ++ quoted m.ltp ++
    ",\"change\":".toList ++ quoted m.change ++
    ",\"pct_change\":".toList ++ quoted m.pctChange ++
    ",\"volume\":".toList ++ (toString m.volume).toList ++
    ",\"timestamp\":".toList ++ quoted m.timestamp ++ "\x7d".toList)

/-- The symbol of such a text. -/
def textSymbol (text : String) : Option String :=
  (unquoted false (text.toList.drop "\x7b\"symbol\":\"".length)).map String.ofList

theorem textSymbol_messageText (m : TickMessage) : textSymbol (messageText m) = some m.symbol := by
  unfold textSymbol messageText quoted
  rw [String.toList_ofList]
  simp only [List.append_assoc, List.cons_append]
  refine (congrArg (Option.map String.ofList) (unquoted_escaped m.symbol.toList _)).trans ?_
  rw [Option.map_some, String.ofList_toList]

end BharatTicker
