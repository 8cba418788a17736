/-
  File:      BharatTicker/WebSocket/Registered.lean
  Subject:   THE LIST OF CONNECTED SOCKETS (`api/endpoints/websocket.py`: `ConnectionManager`,
             `websocket_all_ticks`, `websocket_symbol_ticks`).

  Every socket has a handler. It registers the socket, subscribes, reads until the client leaves or
  something is raised, and cleans up; whatever it awaits may raise, and the server may cancel it there.
  `except Exception` does not catch a `CancelledError`, and `finally` only stands around the reading. Pings
  change nothing here, and the listener task is not kept.

  * `ConnectionManager` -- the sockets by channel;
  * `HandlerPhase`, `WsHandlers.step` -- the handlers, in any order;
  * `RegInv`, `step_regInv` -- who is listed, in every run;
  * `registered_iff` -- the sockets listed are those whose handlers run, as long as no handler is
    cancelled while it subscribes or cleans up.
-/
import BharatTicker.Basis.Dict
import BharatTicker.WebSocket

namespace BharatTicker

open Basis

/-! ## 1. The sockets by channel -/

/-- `_connections`; sockets are equal only to themselves. -/
structure ConnectionManager where
  connections : Dict String (List ℕ) := []
  deriving DecidableEq, Repr

namespace ConnectionManager

/-- The sockets of a channel. -/
def listed (m : ConnectionManager) (channel : String) : List ℕ :=
  (Dict.get? m.connections channel).getD []

/-- `connect`, once the socket is accepted. -/
def connect (m : ConnectionManager) (ws : ℕ) (channel : String) : ConnectionManager :=
  let conns := if channel ∈ Dict.keys m.connections then m.connections
    else Dict.set m.connections channel []
  ⟨Dict.set conns channel ((Dict.get? conns channel).getD [] ++ [ws])⟩

/-- `disconnect`. -/
def disconnect (m : ConnectionManager) (ws : ℕ) (channel : String) : ConnectionManager :=
  match Dict.get? m.connections channel with
  | some conns => ⟨Dict.set m.connections channel (conns.filter (· ≠ ws))⟩
  | none => m

/-- `_total_connections`. -/
def totalConnections (m : ConnectionManager) : ℕ := Dict.total List.length m.connections

variable {m : ConnectionManager} {ws i : ℕ} {channel c : String}

/-- A channel that is not there is made first. -/
theorem connect_eq (m : ConnectionManager) (ws : ℕ) (channel : String) :
    m.connect ws channel = ⟨Dict.set m.connections channel (m.listed channel ++ [ws])⟩ ∨
      Dict.get? m.connections channel = none ∧
        m.connect ws channel = ⟨Dict.set (Dict.set m.connections channel []) channel [ws]⟩ := by
  unfold connect
  by_cases h : channel ∈ Dict.keys m.connections
  · rw [if_pos h]
    exact .inl rfl
  · rw [if_neg h]
    refine .inr ⟨Dict.get?_eq_none_iff.mpr h, ?_⟩
    simp only [Dict.get?_set_self, Option.getD_some, List.nil_append]

theorem listed_connect : (m.connect ws channel).listed c =
    if c = channel then m.listed c ++ [ws] else m.listed c := by
  by_cases hc : c = channel
  · subst hc
    rw [if_pos rfl]
    rcases connect_eq m ws c with h | ⟨hnone, h⟩
    · rw [h]
      simp only [listed, Dict.get?_set_self, Option.getD_some]
    · rw [h]
      simp only [listed, Dict.get?_set_self, Option.getD_some, hnone, Option.getD_none, List.nil_append]
  · rw [if_neg hc]
    rcases connect_eq m ws channel with h | ⟨-, h⟩
    · rw [h]
      simp only [listed, Dict.get?_set_of_ne _ _ hc]
    · rw [h]
      simp only [listed, Dict.get?_set_of_ne _ _ hc]

theorem listed_disconnect : (m.disconnect ws channel).listed c =
    if c = channel then (m.listed c).filter (· ≠ ws) else m.listed c := by
  unfold disconnect
  split
  · rename_i conns hconns
    by_cases hc : c = channel
    · subst hc
      simp only [listed, Dict.get?_set_self, Option.getD_some, hconns, if_pos]
    · simp only [listed, Dict.get?_set_of_ne _ _ hc, if_neg hc]
  · rename_i hnone
    by_cases hc : c = channel
    · subst hc
      simp only [listed, hnone, Option.getD_none, List.filter_nil, if_pos]
    · rw [if_neg hc]

/-- `get?` of a channel, summed up. -/
theorem length_listed (m : ConnectionManager) (channel : String) :
    ((Dict.get? m.connections channel).map List.length).getD 0 = (m.listed channel).length := by
  unfold listed
  cases Dict.get? m.connections channel <;> rfl

theorem totalConnections_connect (m : ConnectionManager) (ws : ℕ) (channel : String) :
    (m.connect ws channel).totalConnections = m.totalConnections + 1 := by
  rcases connect_eq m ws channel with h | ⟨hnone, h⟩
  · have htotal := Dict.total_set List.length m.connections channel (m.listed channel ++ [ws])
    rw [length_listed, List.length_append, List.length_singleton] at htotal
    rw [h]
    dsimp only [totalConnections]
    omega
  · have hempty := Dict.total_set List.length m.connections channel []
    have htotal := Dict.total_set List.length (Dict.set m.connections channel []) channel [ws]
    rw [hnone, Option.map_none, Option.getD_none, List.length_nil] at hempty
    rw [Dict.get?_set_self, Option.map_some, Option.getD_some, List.length_nil,
      List.length_singleton] at htotal
    rw [h]
    dsimp only [totalConnections]
    omega

/-- A socket is listed once, and taken off. -/
theorem totalConnections_disconnect (hnodup : (m.listed channel).Nodup) (hws : ws ∈ m.listed channel) :
    (m.disconnect ws channel).totalConnections + 1 = m.totalConnections := by
  unfold disconnect
  cases hconns : Dict.get? m.connections channel with
  | none =>
    simp only [listed, hconns, Option.getD_none, List.not_mem_nil] at hws
  | some conns =>
    have hlisted : m.listed channel = conns := by simp only [listed, hconns, Option.getD_some]
    rw [hlisted] at hnodup hws
    have htotal := Dict.total_set List.length m.connections channel (conns.filter (· ≠ ws))
    rw [hconns, Option.map_some, Option.getD_some] at htotal
    have hfilter : (conns.filter (· ≠ ws)).length + 1 = conns.length := by
      have herase : conns.filter (· ≠ ws) = conns.erase ws := by
        rw [hnodup.erase_eq_filter]
        exact List.filter_congr fun x _ => by simp [bne, beq_eq_decide]
      rw [herase, List.length_erase_add_one hws]
    simp only [totalConnections]
    omega

/-- A second call changes nothing. -/
theorem disconnect_twice (m : ConnectionManager) (ws : ℕ) (channel : String) :
    (m.disconnect ws channel).disconnect ws channel = m.disconnect ws channel := by
  unfold disconnect
  cases hconns : Dict.get? m.connections channel with
  | none => simp only [hconns]
  | some conns =>
    simp only [Dict.get?_set_self, List.filter_filter, Bool.and_self]
    exact congrArg _ (Dict.set_set m.connections channel _ _)

end ConnectionManager

/-! ## 2. The handlers -/

/-- What is raised once the cleanup is done. -/
inductive Pending where
  | nothing
  | exception
  | cancelled
  deriving DecidableEq, Repr

/-- What a handler awaits. -/
inductive HandlerPhase where
  | accepting
  | subscribing
  | reading
  | unsubscribing (pending : Pending)
  | closing (pending : Pending)
  /-- It is over; `left` tells whether without having taken its socket off the list. -/
  | ended (left : Bool)
  deriving DecidableEq, Repr

namespace HandlerPhase

/-- From the registration to the end. -/
def running : HandlerPhase → Bool
  | .subscribing | .reading | .unsubscribing _ | .closing _ => true
  | .accepting | .ended _ => false

/-- The socket is on the list. -/
def listed : HandlerPhase → Bool
  | .subscribing | .reading | .unsubscribing _ | .closing _ | .ended true => true
  | .accepting | .ended false => false

end HandlerPhase

/-- `path` is the `{symbol}` of its URL, `none` for `/ws/ticks`. -/
structure WsHandler where
  path : Option String
  phase : HandlerPhase
  deriving DecidableEq, Repr

def WsHandler.channel (w : WsHandler) : String :=
  match w.path with
  | none => "all"
  | some path => "symbol:" ++ upper (strip path)

structure WsHandlers where
  manager : ConnectionManager := {}
  handlers : Dict ℕ WsHandler := []
  deriving DecidableEq, Repr

/-- What becomes of what a handler awaits; `ok` is false where it raises. -/
inductive WsHandlerAction where
  | open (i : ℕ) (path : Option String)
  | accepted (i : ℕ) (ok : Bool)
  | subscribed (i : ℕ) (ok : Bool)
  /-- The loop is left, by a `WebSocketDisconnect` or by another exception. -/
  | leaves (i : ℕ) (disconnected : Bool)
  | unsubscribed (i : ℕ) (ok : Bool)
  | closed (i : ℕ) (ok : Bool)
  | cancel (i : ℕ)
  deriving DecidableEq, Repr

namespace WsHandlers

def setPhase (s : WsHandlers) (i : ℕ) (w : WsHandler) (phase : HandlerPhase) : WsHandlers :=
  { s with handlers := Dict.set s.handlers i { w with phase := phase } }

/-- `manager.connect`. -/
def register (s : WsHandlers) (i : ℕ) (w : WsHandler) : WsHandlers :=
  { s.setPhase i w .subscribing with manager := s.manager.connect i w.channel }

/-- `manager.disconnect`, and the handler is over. -/
def unregister (s : WsHandlers) (i : ℕ) (w : WsHandler) : WsHandlers :=
  { s.setPhase i w (.ended false) with manager := s.manager.disconnect i w.channel }

/-- The end of `finally`: an exception that is pending comes to `except Exception`, which takes the
    socket off once more. -/
def cleaned (s : WsHandlers) (i : ℕ) (w : WsHandler) : Pending → WsHandlers
  | .nothing | .cancelled => s.unregister i w
  | .exception =>
    { s.unregister i w with
      manager := (s.manager.disconnect i w.channel).disconnect i w.channel }

/-- A `CancelledError`, where the handler is. -/
def cancelled (s : WsHandlers) (i : ℕ) (w : WsHandler) : Option WsHandlers :=
  match w.phase with
  | .accepting => some (s.setPhase i w (.ended false))
  | .reading => some (s.setPhase i w (.unsubscribing .cancelled))
  -- past `except Exception`, and out of `finally`
  | .subscribing | .unsubscribing _ | .closing _ => some (s.setPhase i w (.ended true))
  | .ended _ => none

/-- One action. -/
def step (s : WsHandlers) : WsHandlerAction → Option WsHandlers
  | .open i path =>
    match Dict.get? s.handlers i with
    | none => some { s with handlers := Dict.set s.handlers i ⟨path, .accepting⟩ }
    | some _ => none
  | .accepted i ok =>
    (Dict.get? s.handlers i).bind fun w =>
      if w.phase = .accepting then
        some (if ok then s.register i w else s.setPhase i w (.ended false))
      else none
  | .subscribed i ok =>
    (Dict.get? s.handlers i).bind fun w =>
      if w.phase = .subscribing then
        some (if ok then s.setPhase i w .reading else s.unregister i w)
      else none
  | .leaves i disconnected =>
    (Dict.get? s.handlers i).bind fun w =>
      if w.phase = .reading then
        some (s.setPhase i w (.unsubscribing (if disconnected then .nothing else .exception)))
      else none
  | .unsubscribed i ok =>
    (Dict.get? s.handlers i).bind fun w =>
      match w.phase with
      | .unsubscribing pending =>
        some (if ok then s.setPhase i w (.closing pending) else s.unregister i w)
      | _ => none
  | .closed i ok =>
    (Dict.get? s.handlers i).bind fun w =>
      match w.phase with
      | .closing pending => some (if ok then s.cleaned i w pending else s.unregister i w)
      | _ => none
  | .cancel i => (Dict.get? s.handlers i).bind fun w => s.cancelled i w

/-- No handler is cancelled while it subscribes or cleans up. -/
def CancelledReading (s : WsHandlers) : WsHandlerAction → Prop
  | .cancel i => ∀ w ∈ Dict.get? s.handlers i, w.phase = .accepting ∨ w.phase = .reading
  | .open .. | .accepted .. | .subscribed .. | .leaves .. | .unsubscribed .. | .closed .. => True

instance (s : WsHandlers) : ∀ a, Decidable (s.CancelledReading a)
  | .cancel i => inferInstanceAs (Decidable (∀ w ∈ Dict.get? s.handlers i,
      w.phase = .accepting ∨ w.phase = .reading))
  | .open .. | .accepted .. | .subscribed .. | .leaves .. | .unsubscribed .. | .closed .. =>
    inferInstanceAs (Decidable True)

/-- The handlers that run. -/
def runningCount (s : WsHandlers) : ℕ := Dict.total (fun w => w.phase.running.toNat) s.handlers

/-- **The sockets on the list are those whose handlers run.** -/
def Registered (s : WsHandlers) : Prop :=
  (∀ channel i, i ∈ s.manager.listed channel ↔
    ∃ w, Dict.get? s.handlers i = some w ∧ w.channel = channel ∧ w.phase.running = true) ∧
    s.manager.totalConnections = s.runningCount

end WsHandlers

/-! ## 3. Who is listed -/

/-- **Who is listed, in every run.** -/
structure RegInv (s : WsHandlers) : Prop where
  listed : ∀ channel i, i ∈ s.manager.listed channel ↔
    ∃ w, Dict.get? s.handlers i = some w ∧ w.channel = channel ∧ w.phase.listed = true
  nodup : ∀ channel, (s.manager.listed channel).Nodup
  keys : (Dict.keys s.handlers).Nodup
  total : s.manager.totalConnections = Dict.total (fun w => w.phase.listed.toNat) s.handlers

section Registered

variable {s s' : WsHandlers} {i : ℕ} {w : WsHandler} {phase : HandlerPhase}

/-- What a handler's move changes of a sum over the handlers. -/
theorem total_setPhase (f : HandlerPhase → Bool) (hi : Dict.get? s.handlers i = some w)
    (phase : HandlerPhase) :
    Dict.total (fun w => (f w.phase).toNat) (s.setPhase i w phase).handlers + (f w.phase).toNat =
      Dict.total (fun w => (f w.phase).toNat) s.handlers + (f phase).toNat := by
  have htotal := Dict.total_set (fun w : WsHandler => (f w.phase).toNat) s.handlers i { w with phase := phase }
  rwa [hi, Option.map_some, Option.getD_some] at htotal

/-- Only the handler that moves is another one after. -/
theorem setPhase_exists (hi : Dict.get? s.handlers i = some w) (p : HandlerPhase → Bool)
    (channel : String) (j : ℕ) :
    (∃ w', Dict.get? (s.setPhase i w phase).handlers j = some w' ∧ w'.channel = channel ∧
      p w'.phase = true) ↔
      if j = i then w.channel = channel ∧ p phase = true
      else ∃ w', Dict.get? s.handlers j = some w' ∧ w'.channel = channel ∧ p w'.phase = true := by
  by_cases hj : j = i
  · subst hj
    rw [if_pos rfl]
    unfold WsHandlers.setPhase
    dsimp only
    rw [Dict.get?_set_self]
    refine ⟨?_, fun h => ⟨_, rfl, h⟩⟩
    rintro ⟨w', hw', h⟩
    cases hw'
    exact h
  · rw [if_neg hj]
    unfold WsHandlers.setPhase
    dsimp only
    rw [Dict.get?_set_of_ne _ _ hj]

/-- A handler moves on, on the list or off it as before. -/
theorem setPhase_regInv (h : RegInv s) (hi : Dict.get? s.handlers i = some w)
    (hphase : phase.listed = w.phase.listed) : RegInv (s.setPhase i w phase) where
  listed channel j := by
    rw [setPhase_exists hi]
    by_cases hj : j = i
    · subst hj
      rw [if_pos rfl, hphase]
      refine (h.listed channel j).trans ⟨?_, fun hw => ⟨w, hi, hw⟩⟩
      rintro ⟨w', hw', h⟩
      rw [hi] at hw'
      cases hw'
      exact h
    · rw [if_neg hj]
      exact h.listed channel j
  nodup := h.nodup
  keys := Dict.nodup_keys_set h.keys i _
  total := by
    have htotal := total_setPhase HandlerPhase.listed hi phase
    have hold := h.total
    rw [hphase] at htotal
    change s.manager.totalConnections = _
    omega

/-- **A handler registers its socket.** -/
theorem register_regInv (h : RegInv s) (hi : Dict.get? s.handlers i = some w)
    (hphase : w.phase.listed = false) : RegInv (s.register i w) where
  listed channel j := by
    change j ∈ (s.manager.connect i w.channel).listed channel ↔
      ∃ w', Dict.get? (s.setPhase i w .subscribing).handlers j = some w' ∧ _
    rw [setPhase_exists hi, ConnectionManager.listed_connect]
    by_cases hc : channel = w.channel
    · subst hc
      rw [if_pos rfl, List.mem_append, List.mem_singleton]
      by_cases hj : j = i
      · rw [if_pos hj]
        exact iff_of_true (.inr hj) ⟨rfl, rfl⟩
      · rw [if_neg hj, or_iff_left hj]
        exact h.listed w.channel j
    · rw [if_neg hc, h.listed channel j]
      by_cases hj : j = i
      · subst hj
        rw [if_pos rfl]
        refine iff_of_false ?_ fun hw => hc hw.1.symm
        rintro ⟨w', hw', -, hlisted⟩
        rw [hi] at hw'
        cases hw'
        rw [hphase] at hlisted
        cases hlisted
      · rw [if_neg hj]
  nodup channel := by
    change ((s.manager.connect i w.channel).listed channel).Nodup
    rw [ConnectionManager.listed_connect]
    split
    · refine List.nodup_append.mpr ⟨h.nodup channel, List.nodup_singleton i, fun j hj k hk => ?_⟩
      rw [List.mem_singleton.mp hk]
      rintro rfl
      -- a socket that is not registered yet is on no list
      obtain ⟨w', hw', -, hlisted⟩ := (h.listed channel j).mp hj
      rw [hi] at hw'
      cases hw'
      rw [hphase] at hlisted
      cases hlisted
    · exact h.nodup channel
  keys := Dict.nodup_keys_set h.keys i _
  total := by
    have htotal := total_setPhase HandlerPhase.listed hi .subscribing
    have hold := h.total
    rw [hphase] at htotal
    change (s.manager.connect i w.channel).totalConnections =
      Dict.total (fun w => w.phase.listed.toNat) (s.setPhase i w .subscribing).handlers
    rw [ConnectionManager.totalConnections_connect, hold]
    exact htotal.symm

/-- **A handler takes its socket off.** -/
theorem unregister_regInv (h : RegInv s) (hi : Dict.get? s.handlers i = some w)
    (hphase : w.phase.listed = true) : RegInv (s.unregister i w) where
  listed channel j := by
    change j ∈ (s.manager.disconnect i w.channel).listed channel ↔
      ∃ w', Dict.get? (s.setPhase i w (.ended false)).handlers j = some w' ∧ _
    rw [setPhase_exists hi, ConnectionManager.listed_disconnect]
    by_cases hj : j = i
    · subst hj
      rw [if_pos rfl]
      refine iff_of_false (fun hmem => ?_) fun hw => by cases hw.2
      by_cases hc : channel = w.channel
      · subst hc
        rw [if_pos rfl, List.mem_filter] at hmem
        simp at hmem
      · rw [if_neg hc, h.listed channel j] at hmem
        obtain ⟨w', hw', hchannel, -⟩ := hmem
        rw [hi] at hw'
        cases hw'
        exact hc hchannel.symm
    · rw [if_neg hj, ← h.listed channel j]
      split
      · rw [List.mem_filter, decide_eq_true_eq, and_iff_left hj]
      · rfl
  nodup channel := by
    change ((s.manager.disconnect i w.channel).listed channel).Nodup
    rw [ConnectionManager.listed_disconnect]
    split
    · exact (h.nodup channel).filter _
    · exact h.nodup channel
  keys := Dict.nodup_keys_set h.keys i _
  total := by
    have htotal := total_setPhase HandlerPhase.listed hi (.ended false)
    have hold := h.total
    have hmem : i ∈ s.manager.listed w.channel := (h.listed w.channel i).mpr ⟨w, hi, rfl, hphase⟩
    have hless := ConnectionManager.totalConnections_disconnect (h.nodup w.channel) hmem
    rw [hphase] at htotal
    change (s.manager.disconnect i w.channel).totalConnections =
      Dict.total (fun w => w.phase.listed.toNat) (s.setPhase i w (.ended false)).handlers
    simp only [Bool.toNat_true, HandlerPhase.listed, Bool.toNat_false, add_zero] at htotal
    simp only [HandlerPhase.listed] at hold htotal ⊢
    omega

theorem cleaned_eq (s : WsHandlers) (i : ℕ) (w : WsHandler) (pending : Pending) :
    s.cleaned i w pending = s.unregister i w := by
  cases pending with
  | nothing | cancelled => rfl
  | exception =>
    simp only [WsHandlers.cleaned, WsHandlers.unregister, ConnectionManager.disconnect_twice]

/-- A new handler is not on the list yet. -/
theorem open_regInv (h : RegInv s) (hi : Dict.get? s.handlers i = none) (path : Option String) :
    RegInv { s with handlers := Dict.set s.handlers i ⟨path, .accepting⟩ } where
  listed channel j := by
    refine (h.listed channel j).trans ?_
    dsimp only
    by_cases hj : j = i
    · subst hj
      rw [Dict.get?_set_self, hi]
      refine iff_of_false ?_ ?_
      · rintro ⟨w', hw', -⟩
        cases hw'
      · rintro ⟨w', hw', -, hlisted⟩
        cases hw'
        cases hlisted
    · rw [Dict.get?_set_of_ne _ _ hj]
  nodup := h.nodup
  keys := Dict.nodup_keys_set h.keys i _
  total := by
    have htotal :=
      Dict.total_set (fun w : WsHandler => w.phase.listed.toNat) s.handlers i ⟨path, .accepting⟩
    rw [hi, Option.map_none, Option.getD_none] at htotal
    exact h.total.trans htotal.symm

/-! ## 4. One action -/

/-- **What one action does.** -/
inductive WsMoves (s s' : WsHandlers) (a : WsHandlerAction) : Prop where
  | opens (i : ℕ) (path : Option String) (hi : Dict.get? s.handlers i = none)
      (hs : s' = { s with handlers := Dict.set s.handlers i ⟨path, .accepting⟩ })
      (hread : s.CancelledReading a)
  | moves (i : ℕ) (w : WsHandler) (phase : HandlerPhase) (hi : Dict.get? s.handlers i = some w)
      (hlisted : phase.listed = w.phase.listed) (hleft : phase ≠ .ended true)
      (hs : s' = s.setPhase i w phase) (hread : s.CancelledReading a)
  | registers (i : ℕ) (w : WsHandler) (hi : Dict.get? s.handlers i = some w)
      (hphase : w.phase.listed = false) (hs : s' = s.register i w) (hread : s.CancelledReading a)
  | unregisters (i : ℕ) (w : WsHandler) (hi : Dict.get? s.handlers i = some w)
      (hphase : w.phase.listed = true) (hs : s' = s.unregister i w) (hread : s.CancelledReading a)
  | leaves (i : ℕ) (w : WsHandler) (hi : Dict.get? s.handlers i = some w)
      (hphase : w.phase.listed = true) (hs : s' = s.setPhase i w (.ended true))
      (hread : ¬ s.CancelledReading a)

theorem cancel_cases (hi : Dict.get? s.handlers i = some w) (hs : s.cancelled i w = some s') :
    WsMoves s s' (.cancel i) := by
  have hread : s.CancelledReading (.cancel i) ↔ w.phase = .accepting ∨ w.phase = .reading := by
    refine ⟨fun h => h w hi, fun h w' hw' => ?_⟩
    rw [hi] at hw'
    cases hw'
    exact h
  unfold WsHandlers.cancelled at hs
  split at hs <;> rename_i hphase
  · cases hs
    exact .moves i w _ hi (by rw [hphase]; rfl) (fun e => by cases e) rfl (hread.mpr (.inl hphase))
  · cases hs
    exact .moves i w _ hi (by rw [hphase]; rfl) (fun e => by cases e) rfl (hread.mpr (.inr hphase))
  · cases hs
    exact .leaves i w hi (by rw [hphase]; rfl) rfl (by rw [hread, hphase]; simp)
  · cases hs
    exact .leaves i w hi (by rw [hphase]; rfl) rfl (by rw [hread, hphase]; simp)
  · cases hs
    exact .leaves i w hi (by rw [hphase]; rfl) rfl (by rw [hread, hphase]; simp)
  · cases hs

theorem wsStep_cases {a : WsHandlerAction} (hs : s.step a = some s') : WsMoves s s' a := by
  cases a with
  | «open» i path =>
    simp only [WsHandlers.step] at hs
    split at hs
    · rename_i hi
      cases hs
      exact .opens i path hi rfl trivial
    · cases hs
  | accepted i ok =>
    obtain ⟨w, hi, hs⟩ := Option.bind_eq_some_iff.mp hs
    obtain ⟨hphase, hs⟩ := Option.ite_none_right_eq_some.mp hs
    cases hs
    cases ok with
    | true => exact .registers i w hi (by rw [hphase]; rfl) rfl trivial
    | false => exact .moves i w _ hi (by rw [hphase]; rfl) (fun e => by cases e) rfl trivial
  | subscribed i ok =>
    obtain ⟨w, hi, hs⟩ := Option.bind_eq_some_iff.mp hs
    obtain ⟨hphase, hs⟩ := Option.ite_none_right_eq_some.mp hs
    cases hs
    cases ok with
    | true => exact .moves i w _ hi (by rw [hphase]; rfl) (fun e => by cases e) rfl trivial
    | false => exact .unregisters i w hi (by rw [hphase]; rfl) rfl trivial
  | leaves i disconnected =>
    obtain ⟨w, hi, hs⟩ := Option.bind_eq_some_iff.mp hs
    obtain ⟨hphase, hs⟩ := Option.ite_none_right_eq_some.mp hs
    cases hs
    exact .moves i w _ hi (by rw [hphase]; rfl) (fun e => by cases e) rfl trivial
  | unsubscribed i ok =>
    obtain ⟨w, hi, hs⟩ := Option.bind_eq_some_iff.mp hs
    split at hs
    · rename_i pending hphase
      cases hs
      cases ok with
      | true => exact .moves i w _ hi (by rw [hphase]; rfl) (fun e => by cases e) rfl trivial
      | false => exact .unregisters i w hi (by rw [hphase]; rfl) rfl trivial
    · cases hs
  | closed i ok =>
    obtain ⟨w, hi, hs⟩ := Option.bind_eq_some_iff.mp hs
    split at hs
    · rename_i pending hphase
      rw [cleaned_eq, ite_self] at hs
      cases hs
      exact .unregisters i w hi (by rw [hphase]; rfl) rfl trivial
    · cases hs
  | cancel i =>
    obtain ⟨w, hi, hs⟩ := Option.bind_eq_some_iff.mp hs
    exact cancel_cases hi hs

/-- **One action keeps the list in order.** -/
theorem step_regInv (h : RegInv s) {a : WsHandlerAction} (hs : s.step a = some s') : RegInv s' := by
  cases wsStep_cases hs with
  | opens i path hi hs' hread => exact hs' ▸ open_regInv h hi path
  | moves i w phase hi hlisted hleft hs' hread => exact hs' ▸ setPhase_regInv h hi hlisted
  | registers i w hi hphase hs' hread => exact hs' ▸ register_regInv h hi hphase
  | unregisters i w hi hphase hs' hread => exact hs' ▸ unregister_regInv h hi hphase
  | leaves i w hi hphase hs' hread => exact hs' ▸ setPhase_regInv h hi hphase.symm

/-- No handler is over without having taken its socket off. -/
def NoneLeft (s : WsHandlers) : Prop := ∀ i w, Dict.get? s.handlers i = some w → w.phase ≠ .ended true

theorem listed_eq_running (h : w.phase ≠ .ended true) : w.phase.listed = w.phase.running := by
  cases hp : w.phase with
  | ended left =>
    cases left with
    | true => exact absurd hp h
    | false => rfl
  | accepting | subscribing | reading | unsubscribing pending | closing pending => rfl

/-- The sockets on the list are those whose handlers run, where no handler left its own there. -/
theorem registered_iff_noneLeft (h : RegInv s) : s.Registered ↔ NoneLeft s := by
  refine ⟨fun hreg i w hi hleft => ?_, fun hnone => ⟨fun channel i => ?_, ?_⟩⟩
  · have hmem : i ∈ s.manager.listed w.channel :=
      (h.listed w.channel i).mpr ⟨w, hi, rfl, by rw [hleft]; rfl⟩
    obtain ⟨w', hw', -, hrunning⟩ := (hreg.1 w.channel i).mp hmem
    rw [hi] at hw'
    cases hw'
    rw [hleft] at hrunning
    cases hrunning
  · rw [h.listed channel i]
    refine exists_congr fun w => and_congr_right fun hw => ?_
    rw [listed_eq_running (hnone i w hw)]
  · exact h.total.trans
      (Dict.total_congr h.keys fun i w hw => congrArg Bool.toNat (listed_eq_running (hnone i w hw)))

theorem NoneLeft.set (h : NoneLeft s) (hw : w.phase ≠ .ended true) {m : ConnectionManager} :
    NoneLeft { manager := m, handlers := Dict.set s.handlers i w } := by
  intro j w' hj
  change Dict.get? (Dict.set s.handlers i w) j = some w' at hj
  rw [Dict.get?_set] at hj
  split at hj
  · cases hj
    exact hw
  · exact h j w' hj

/-- **One action leaves a socket behind exactly when it cancels a handler that does not read.** -/
theorem step_noneLeft (h : NoneLeft s) {a : WsHandlerAction} (hs : s.step a = some s') :
    NoneLeft s' ↔ s.CancelledReading a := by
  cases wsStep_cases hs with
  | opens i path hi hs' hread => exact iff_of_true (hs' ▸ h.set (fun e => by cases e)) hread
  | moves i w phase hi hlisted hleft hs' hread => exact iff_of_true (hs' ▸ h.set hleft) hread
  | registers i w hi hphase hs' hread => exact iff_of_true (hs' ▸ h.set (fun e => by cases e)) hread
  | unregisters i w hi hphase hs' hread => exact iff_of_true (hs' ▸ h.set (fun e => by cases e)) hread
  | leaves i w hi hphase hs' hread =>
    refine iff_of_false (fun hnone => ?_) hread
    rw [hs'] at hnone
    exact hnone i _ (Dict.get?_set_self _ _ _) rfl

end Registered

theorem regInv_init : RegInv {} where
  listed channel i := iff_of_false (by simp [ConnectionManager.listed]) (by simp)
  nodup channel := List.nodup_nil
  keys := List.nodup_nil
  total := rfl

/-- **The sockets on the list are those whose handlers run**, in every state of a run, each on its own
    channel and once, and `_total_connections` counts them, exactly when no handler is cancelled while
    it subscribes or cleans up. -/
theorem registered_iff (acts : List WsHandlerAction) (s : WsHandlers)
    (hr : run WsHandlers.step {} acts = some s) :
    (Always WsHandlers.step WsHandlers.Registered {} acts ↔
      StepsMeet WsHandlers.step WsHandlers.CancelledReading {} acts) ∧
      ∀ channel, (s.manager.listed channel).Nodup := by
  have hinv : RegInv s :=
    run_invariant (I := RegInv) (fun _ _ _ h hs => step_regInv h hs) regInv_init hr
  have hnone : NoneLeft {} := fun i w hi => by cases hi
  have halways := always_iff_meet (I := WsHandlers.Registered) (J := RegInv)
    (C := WsHandlers.CancelledReading) (fun _ _ _ h hs => step_regInv h hs)
    (fun s a s' h hreg hs => (registered_iff_noneLeft (step_regInv h hs)).trans
      (step_noneLeft ((registered_iff_noneLeft h).mp hreg) hs)) regInv_init hr
  exact ⟨halways.trans (and_iff_right ((registered_iff_noneLeft regInv_init).mpr hnone)), hinv.nodup⟩

/-- Of two clients on a channel one is cancelled while it reads, and one leaves. -/
def twoClients : List WsHandlerAction :=
  [.open 1 none, .open 2 (some "sbin"), .accepted 1 true, .accepted 2 true, .subscribed 2 true,
    .subscribed 1 true, .cancel 1, .unsubscribed 1 true, .leaves 2 true, .closed 1 true]

theorem registered_two_clients :
    ∃ s, run WsHandlers.step {} twoClients = some s ∧ s.manager.totalConnections = 1 ∧
      Always WsHandlers.step WsHandlers.Registered {} twoClients := by
  have hr : ∃ s, run WsHandlers.step {} twoClients = some s ∧ s.manager.totalConnections = 1 := by
    decide +kernel
  obtain ⟨s, hr, htotal⟩ := hr
  exact ⟨s, hr, htotal, (registered_iff twoClients s hr).1.mpr (by decide +kernel)⟩

end BharatTicker
