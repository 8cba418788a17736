/-
  File:      BharatTicker/MemoryStore.lean
  Subject:   THE IN-PROCESS STORE (`cache/memory_store.py`: `MemoryStore`, `_MemoryPubSub`,
             `_MemoryPipeline`).

  None of its coroutines suspends (but for the delay of an empty `xreadgroup`), so that each call
  is one function of the state, and a pipeline is its calls one after another. A hash is a
  dictionary in insertion order; keys and values are texts, as `hset` and `xadd` make them. An
  expired key is physically present until one of the operations that look at its expiry finds it.

  * `expired`, `get`, `set`, `incr`, `expire`, `hset`, `hgetall` -- keys;
  * `xadd`, `xgroupCreate`, `xreadgroup` -- streams;
  * `subscribe`, `unsubscribe`, `publish`, `listen` -- channels.
-/
import BharatTicker.Basis.Dict
import BharatTicker.Basis.Numeral

namespace BharatTicker

open Basis

/-! ## 1. State -/

/-- The values that callers store: texts and integers. -/
inductive Value where
  | str (s : String)
  | int (n : Int)
  deriving DecidableEq, Repr

/-- A hash, and the fields of a stream entry. -/
abbrev Hash := Dict String String

/-- `(msg_id, fields)`. -/
structure StreamEntry where
  id : String
  fields : Hash
  deriving DecidableEq, Repr

/-- `{"type": "message", "channel": channel, "data": message}`. -/
structure Payload where
  channel : String
  data : String
  deriving DecidableEq, Repr

/-- The dictionaries of the store, and the queues of its pub/sub objects by number. -/
structure MemoryStore where
  kv : String → Option Value := fun _ => none
  hashes : String → Option Hash := fun _ => none
  expiry : String → Option ℚ := fun _ => none
  streams : String → List StreamEntry := fun _ => []
  streamSeq : String → Nat := fun _ => 0
  subscribers : String → Finset Nat := fun _ => ∅
  groups : String → String → Option Nat := fun _ _ => none
  queues : Nat → List Payload := fun _ => []

namespace MemoryStore

/-! ## 2. Keys -/

/-- `exp is not None and time.time() >= exp`. -/
def dead (key : String) (now : ℚ) (s : MemoryStore) : Bool :=
  match s.expiry key with
  | some exp => exp ≤ now
  | none => false

/-- The three `pop`s of `_expired`. -/
def purge (key : String) (s : MemoryStore) : MemoryStore :=
  { s with
    kv := Function.update s.kv key none
    hashes := Function.update s.hashes key none
    expiry := Function.update s.expiry key none }

/-- `_expired`. -/
def expired (key : String) (now : ℚ) (s : MemoryStore) : Bool × MemoryStore :=
  if s.dead key now then (true, s.purge key) else (false, s)

def get (key : String) (now : ℚ) (s : MemoryStore) : Option Value × MemoryStore :=
  match s.expired key now with
  | (true, s) => (none, s)
  | (false, s) => (s.kv key, s)

/-- `time.time() + ex` `if ex`. -/
def deadline (ex : Option Int) (now : ℚ) : Option ℚ :=
  match ex with
  | some ex => if ex = 0 then none else some (now + ex)
  | none => none

def set (key : String) (value : Value) (ex : Option Int) (now : ℚ) (s : MemoryStore) :
    Bool × MemoryStore :=
  (true,
    { s with
      kv := Function.update s.kv key (some value)
      expiry := Function.update s.expiry key (deadline ex now) })

/-- `int(value)`. -/
def pyInt : Value → Option Int
  | .int n => some n
  | .str s => parseInt s

def incr (key : String) (now : ℚ) (s : MemoryStore) : Except String Int × MemoryStore :=
  let s := match s.expired key now with
    | (true, s) => { s with kv := Function.update s.kv key (some (.int 0)) }
    | (false, s) => s
  let value := (s.kv key).getD (.int 0)
  match pyInt value with
  | some n => (.ok (n + 1), { s with kv := Function.update s.kv key (some (.int (n + 1))) })
  | none => (.error "ValueError", s)

/-- `key in self._kv or key in self._hashes`. -/
def present (key : String) (s : MemoryStore) : Bool :=
  (s.kv key).isSome || (s.hashes key).isSome

def expire (key : String) (ttl : Int) (now : ℚ) (s : MemoryStore) : Bool × MemoryStore :=
  if s.present key then
    (true, { s with expiry := Function.update s.expiry key (some (now + ttl)) })
  else (false, s)

/-- `hset`; `items` is the mapping with the keyword arguments. -/
def hset (key : String) (items : Hash) (s : MemoryStore) : Nat × MemoryStore :=
  let h := (s.hashes key).getD []
  (items.length, { s with hashes := Function.update s.hashes key (some (Dict.update h items)) })

def hgetall (key : String) (now : ℚ) (s : MemoryStore) : Hash × MemoryStore :=
  match s.expired key now with
  | (true, s) => ([], s)
  | (false, s) => ((s.hashes key).getD [], s)

/-! ### What reads return and leave -/

section Reads

variable {key : String} {now : ℚ} {s : MemoryStore}

theorem expired_state :
    (s.expired key now).2 = if s.dead key now then s.purge key else s := by
  unfold expired
  split <;> rfl

theorem get_eq : (s.get key now).1 = if s.dead key now then none else s.kv key := by
  unfold get expired
  cases s.dead key now <;> rfl

theorem get_state : (s.get key now).2 = (s.expired key now).2 := by
  unfold get expired
  cases s.dead key now <;> rfl

theorem hgetall_eq :
    (s.hgetall key now).1 = if s.dead key now then [] else (s.hashes key).getD [] := by
  unfold hgetall expired
  cases s.dead key now <;> rfl

theorem hgetall_state : (s.hgetall key now).2 = (s.expired key now).2 := by
  unfold hgetall expired
  cases s.dead key now <;> rfl

theorem expire_eq (ttl : Int) : (s.expire key ttl now).1 = s.present key := by
  unfold expire
  split
  · rename_i h
    exact h.symm
  · rename_i h
    exact (Bool.eq_false_iff.mpr h).symm

theorem dead_congr {s' : MemoryStore} (h : s'.expiry key = s.expiry key) :
    s'.dead key now = s.dead key now := by
  unfold dead
  rw [h]

theorem dead_of_deadline {e : ℚ} (h : s.expiry key = some e) : s.dead key now = decide (e ≤ now) := by
  simp [dead, h]

theorem dead_of_none (h : s.expiry key = none) : s.dead key now = false := by
  simp [dead, h]

/-- `hset` and `expire` of one key, one after the other: the items are merged, and the expiry is
    new. -/
theorem hset_expire (items : Hash) (ttl : Int) :
    ((s.hset key items).2.expire key ttl now).2 =
      { s with
        hashes := Function.update s.hashes key
          (some (Dict.update ((s.hashes key).getD []) items))
        expiry := Function.update s.expiry key (some (now + ttl)) } := by
  have hpresent : (s.hset key items).2.present key = true := by simp [present, hset]
  unfold expire
  rw [if_pos hpresent]
  rfl

theorem purge_hashes_of_ne {k : String} (h : k ≠ key) : (s.purge key).hashes k = s.hashes k :=
  Function.update_of_ne h ..

theorem purge_expiry_of_ne {k : String} (h : k ≠ key) : (s.purge key).expiry k = s.expiry k :=
  Function.update_of_ne h ..

/-- A key that was looked at does not change what a hash reads as. -/
theorem hgetall_after_expired (k : String) :
    ((s.expired key now).2.hgetall k now).1 = (s.hgetall k now).1 := by
  rw [expired_state, hgetall_eq, hgetall_eq]
  split
  · rename_i hd
    by_cases hk : k = key
    · subst hk
      rw [if_pos hd]
      simp [purge, dead]
    · rw [dead_congr (purge_expiry_of_ne hk), purge_hashes_of_ne hk]
  · rfl

/-- After a `set` the key is dead only if its `ex` is negative. -/
theorem set_dead (value : Value) (ex : Option Int) :
    (s.set key value ex now).2.dead key now = decide (ex.getD 0 < 0) := by
  have hexp : (s.set key value ex now).2.expiry key = deadline ex now := Function.update_self ..
  cases ex with
  | none => rw [dead_of_none hexp]; rfl
  | some n =>
    by_cases hn : n = 0
    · subst hn
      rw [dead_of_none hexp]
      rfl
    · have hsome : deadline (some n) now = some (now + n) := if_neg hn
      rw [dead_of_deadline (hexp.trans hsome)]
      have hiff : now + (n : ℚ) ≤ now ↔ n < 0 := by
        rw [add_le_iff_nonpos_right]
        constructor
        · intro h
          exact lt_of_le_of_ne (by exact_mod_cast h) hn
        · intro h
          exact_mod_cast h.le
      simp only [hiff, Option.getD_some]

end Reads

/-! ## 3. Streams -/

/-- `deque(maxlen=n).append`. -/
def dequeAppend {α : Type} (n : Nat) (buf : List α) (x : α) : List α := (buf ++ [x]).rtake n

/-- `f"{int(time.time() * 1000)}-{self._stream_seq[stream]}"`. -/
def msgId (now : ℚ) (seq : Nat) : String := toString ⌊now * 1000⌋ ++ "-" ++ toString seq

/-- `xadd`; `capacity` is the `maxlen` of the store's deques (100000), the call's is ignored. -/
def xadd (capacity : Nat) (stream : String) (fields : Hash) (now : ℚ) (s : MemoryStore) :
    String × MemoryStore :=
  let seq := s.streamSeq stream + 1
  let id := msgId now seq
  (id,
    { s with
      streamSeq := Function.update s.streamSeq stream seq
      streams := Function.update s.streams stream
        (dequeAppend capacity (s.streams stream) ⟨id, fields⟩) })

def setPosition (stream group : String) (position : Nat) (s : MemoryStore) : MemoryStore :=
  { s with
    groups := Function.update s.groups stream
      (Function.update (s.groups stream) group (some position)) }

/-- `xgroup_create`. -/
def xgroupCreate (stream group : String) (s : MemoryStore) : Bool × MemoryStore :=
  (true, s.setPosition stream group 0)

/-- `buf[last:last + count]`. -/
def unread (group stream : String) (count : Nat) (s : MemoryStore) : List StreamEntry :=
  ((s.streams stream).drop ((s.groups stream group).getD 0)).take count

/-- The body of the loop of `xreadgroup`. -/
def readStream (group stream : String) (count : Nat) (s : MemoryStore) : MemoryStore :=
  let new := s.unread group stream count
  if new = [] then s
  else s.setPosition stream group ((s.groups stream group).getD 0 + new.length)

/-- `xreadgroup`: the streams with their new entries, those without left out. -/
def xreadgroup (group : String) (streams : List String) (count : Nat) (s : MemoryStore) :
    List (String × List StreamEntry) × MemoryStore :=
  match streams with
  | [] => ([], s)
  | stream :: streams =>
    let new := s.unread group stream count
    let (out, s) := (s.readStream group stream count).xreadgroup group streams count
    (if new = [] then out else (stream, new) :: out, s)

/-! ## 4. Channels -/

/-- `_MemoryPubSub.subscribe` of the queue with this number. -/
def subscribe (queue : Nat) (channels : List String) (s : MemoryStore) : MemoryStore :=
  { s with
    subscribers := fun ch =>
      if ch ∈ channels then insert queue (s.subscribers ch) else s.subscribers ch }

/-- `_MemoryPubSub.unsubscribe`. -/
def unsubscribe (queue : Nat) (channels : List String) (s : MemoryStore) : MemoryStore :=
  { s with
    subscribers := fun ch =>
      if ch ∈ channels then (s.subscribers ch).erase queue else s.subscribers ch }

/-- `publish`: the payload goes to the queue of every subscriber. -/
def publish (channel message : String) (s : MemoryStore) : Nat × MemoryStore :=
  let subs := s.subscribers channel
  (subs.card,
    { s with
      queues := fun q => if q ∈ subs then s.queues q ++ [⟨channel, message⟩] else s.queues q })

/-- One round of `_MemoryPubSub.listen`: the message that `queue.get()` returns, once there is
    one. -/
def listen (queue : Nat) (s : MemoryStore) : Option (Payload × MemoryStore) :=
  match s.queues queue with
  | [] => none
  | payload :: rest => some (payload, { s with queues := Function.update s.queues queue rest })

end MemoryStore

end BharatTicker
