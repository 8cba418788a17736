/-
  File:      BharatTicker/ProxyPool.lean
  Subject:   THE PROXY POOL (`providers/proxy_pool.py`).

  The pool picks the proxy that outbound requests go through: round-robin, at random or the least used
  one, among those that are not on cooldown. Every call holds the lock, so that calls come one after
  another; a call reads the clock when it starts and again when it picks. The draws of
  `random.choice` come with the calls. Times are exact rationals.

  * `ProxyList`, `parseProxyList` -- `PROXY_LIST`;
  * `ProxyPool`, `ProxyPool.init` -- the state;
  * `alive`, `candidates`, `select` -- what may be picked, and what is;
  * `current`, `rotate`, `asProxies`, `status` -- the methods;
  * `PoolCall`, `PoolRun.step` -- calls one after another, on a clock that does not run backwards;
  * `current_spec`, `call_deadUntil` -- what a call returns and changes.
-/
import BharatTicker.Basis.Dict
import BharatTicker.Basis.Rounding
import BharatTicker.Basis.Run
import BharatTicker.MarketData

namespace BharatTicker

open Basis

-- the concrete runs below compute with rationals
unseal Rat.add Rat.mul Rat.sub Rat.inv

/-! ## 1. The state -/

/-- `ProxyStrategy`. -/
inductive ProxyStrategy where
  | roundRobin
  | random
  | leastUsed
  deriving DecidableEq, Repr

/-- The values of the enumeration. -/
def ProxyStrategy.value : ProxyStrategy → String
  | .roundRobin => "round_robin"
  | .random => "random"
  | .leastUsed => "least_used"

/-- Proxies as the settings give them: none of them is the empty text. -/
structure ProxyList where
  texts : List String
  nonempty : ∀ p ∈ texts, p ≠ ""

/-- `parse_proxy_list`, on the text of the environment. -/
def parseProxyList (v : String) : ProxyList where
  texts := (((v.toList.splitOn ',').map fun p => strip (String.ofList p))).filter fun p => p ≠ ""
  nonempty := fun _ hp => of_decide_eq_true (List.mem_filter.mp hp).2

/-- The state of a pool. -/
structure ProxyPool where
  proxies : ProxyList
  strategy : ProxyStrategy
  idx : ℕ
  uses : Dict String ℕ
  deadUntil : Dict String ℚ

/-- `_COOLDOWN_S`. -/
def proxyCooldownS : ℚ := 120

/-- `mask_proxy`: what stands behind the last `@`. -/
def maskProxy (proxy : Option String) : Option String :=
  match proxy with
  | none => none
  | some proxy =>
    if proxy = "" then none
    else some (String.ofList (((proxy.toList.splitOn '@').getLast?).getD []))

/-- What `as_proxies` returns, in the shape of the HTTP client. -/
structure ProxyMap where
  http : String
  https : String
  deriving DecidableEq, Repr

/-- One entry of `proxies` in the status. -/
structure ProxyRow where
  proxy : Option String
  uses : ℕ
  deadForS : ℚ
  deriving DecidableEq, Repr

/-- What `status` returns. -/
structure PoolStatus where
  enabled : Bool
  count : ℕ
  strategy : String
  current : Option String
  proxies : List ProxyRow
  deriving DecidableEq, Repr

/-! ## 2. The methods -/

namespace ProxyPool

/-- `__init__`. -/
def init (proxies : ProxyList) (strategy : ProxyStrategy) : ProxyPool where
  proxies := proxies
  strategy := strategy
  idx := 0
  uses := Dict.update [] (proxies.texts.map fun p => (p, 0))
  deadUntil := []

variable (pool : ProxyPool)

def enabled : Bool := !pool.proxies.texts.isEmpty

def count : ℕ := pool.proxies.texts.length

/-- `self._uses.get(p, 0)`. -/
def usesOf (p : String) : ℕ := (pool.uses.get? p).getD 0

/-- `self._dead_until.get(p, 0.0)`. -/
def deadUntilOf (p : String) : ℚ := (pool.deadUntil.get? p).getD 0

/-- `_alive`. -/
def alive (now : ℚ) : List String := pool.proxies.texts.filter fun p => pool.deadUntilOf p ≤ now

/-- `self._alive() or self._proxies`. -/
def candidates (now : ℚ) : List String :=
  if pool.alive now = [] then pool.proxies.texts else pool.alive now

/-- The pick of a strategy. `min` takes the first of the least used ones. -/
def select (now : ℚ) (draw : ℕ) : Option String :=
  let among := pool.candidates now
  match pool.strategy with
  | .random => among[draw % among.length]?
  | .leastUsed => among.argmin pool.usesOf
  | .roundRobin => among[pool.idx % among.length]?

/-- `current`. -/
def current (now : ℚ) (draw : ℕ) : Option String × ProxyPool :=
  if pool.proxies.texts = [] then (none, pool)
  else
    match pool.select now draw with
    | none => (none, pool)
    | some p => (some p, { pool with uses := pool.uses.set p (pool.usesOf p + 1) })

/-- `self._dead_until[bad] = time.time() + _COOLDOWN_S`, for a `bad` that is not empty. -/
def park (bad : Option String) (now : ℚ) : ProxyPool :=
  match bad with
  | none => pool
  | some bad =>
    if bad = "" then pool
    else { pool with deadUntil := pool.deadUntil.set bad (now + proxyCooldownS) }

/-- `rotate`: parks at `early`, picks at `late`. -/
def rotate (bad : Option String) (early late : ℚ) (draw : ℕ) : Option String × ProxyPool :=
  if pool.proxies.texts = [] then (none, pool)
  else
    let pool := pool.park bad early
    { pool with idx := (pool.idx + 1) % pool.proxies.texts.length }.current late draw

/-- `as_proxies`. -/
def asProxies (proxy : Option String) (now : ℚ) (draw : ℕ) : Option ProxyMap × ProxyPool :=
  let (p, pool) :=
    if proxy = none ∨ proxy = some "" then pool.current now draw else (proxy, pool)
  match p with
  | none => (none, pool)
  | some p => (if p = "" then none else some ⟨p, p⟩, pool)

/-- `status`: reads the clock at `early`, asks for the current proxy at `late`. -/
def status (early late : ℚ) (draw : ℕ) : PoolStatus × ProxyPool :=
  let (p, pool') := if pool.enabled then pool.current late draw else (none, pool)
  ({ enabled := pool.enabled
     count := pool.count
     strategy := pool.strategy.value
     current := maskProxy p
     proxies := pool'.proxies.texts.map fun p =>
      ⟨maskProxy (some p), pool'.usesOf p, roundTo 1 (max 0 (pool'.deadUntilOf p - early))⟩ }, pool')

end ProxyPool

/-! ## 3. Calls one after another -/

inductive PoolMethod where
  | current
  | rotate (bad : Option String)
  | asProxies (proxy : Option String)
  | status
  deriving DecidableEq, Repr

/-- A call: when it starts, when it picks, and what `random.choice` draws. -/
structure PoolCall where
  method : PoolMethod
  early : ℚ
  late : ℚ
  draw : ℕ := 0
  deriving DecidableEq, Repr

/-- What a call returns. -/
inductive PoolAnswer where
  | proxy (p : Option String)
  | proxies (p : Option ProxyMap)
  | status (s : PoolStatus)
  deriving DecidableEq, Repr

/-- The proxy in an answer. -/
def PoolAnswer.proxy? : PoolAnswer → Option String
  | .proxy p => p
  | .proxies p => p.map (·.http)
  | .status _ => none

/-- The call takes its proxy from the pool. -/
def PoolMethod.picks : PoolMethod → Bool
  | .current | .rotate _ | .asProxies none => true
  | .asProxies (some _) | .status => false

namespace ProxyPool

def call (pool : ProxyPool) (c : PoolCall) : PoolAnswer × ProxyPool :=
  match c.method with
  | .current => (pool.current c.late c.draw).map .proxy id
  | .rotate bad => (pool.rotate bad c.early c.late c.draw).map .proxy id
  | .asProxies proxy => (pool.asProxies proxy c.late c.draw).map .proxies id
  | .status => (pool.status c.early c.late c.draw).map .status id

end ProxyPool

/-- A pool in use: the newest reading of the clock, and the calls so far, newest first. -/
structure PoolRun where
  pool : ProxyPool
  clock : ℚ
  calls : List PoolCall

namespace PoolRun

/-- A new pool; the clock shows the seconds since the epoch. -/
def init (proxies : ProxyList) (strategy : ProxyStrategy) : PoolRun where
  pool := .init proxies strategy
  clock := 0
  calls := []

def step (s : PoolRun) (c : PoolCall) : Option PoolRun :=
  if s.clock ≤ c.early ∧ c.early ≤ c.late then
    some { pool := (s.pool.call c).2, clock := c.late, calls := c :: s.calls }
  else none

end PoolRun

/-! ## 4. What a call returns and changes -/

section Calls

variable {pool : ProxyPool} {now : ℚ} {draw : ℕ} {p q : String}

theorem ProxyPool.mem_alive :
    p ∈ pool.alive now ↔ p ∈ pool.proxies.texts ∧ pool.deadUntilOf p ≤ now := by
  unfold ProxyPool.alive
  rw [List.mem_filter, decide_eq_true_iff]

theorem ProxyPool.mem_of_candidates (h : p ∈ pool.candidates now) : p ∈ pool.proxies.texts := by
  unfold ProxyPool.candidates at h
  split at h
  · exact h
  · exact (mem_alive.mp h).1

/-- A parked proxy is only a candidate when all are parked. -/
theorem ProxyPool.all_parked (h : p ∈ pool.candidates now) (hp : now < pool.deadUntilOf p)
    (hq : q ∈ pool.proxies.texts) : now < pool.deadUntilOf q := by
  unfold ProxyPool.candidates at h
  split at h
  · rename_i hnone
    by_contra hle
    have hmem : q ∈ pool.alive now := mem_alive.mpr ⟨hq, not_lt.mp hle⟩
    rw [hnone] at hmem
    cases hmem
  · exact absurd (mem_alive.mp h).2 (not_le.mpr hp)

theorem ProxyPool.candidates_ne_nil (h : pool.proxies.texts ≠ []) : pool.candidates now ≠ [] := by
  unfold ProxyPool.candidates
  split
  · exact h
  · assumption

/-- The pick is a candidate. -/
theorem ProxyPool.mem_of_select (h : pool.select now draw = some p) : p ∈ pool.candidates now := by
  unfold ProxyPool.select at h
  cases hs : pool.strategy with
  | roundRobin =>
    rw [hs] at h
    exact List.mem_of_getElem? h
  | random =>
    rw [hs] at h
    exact List.mem_of_getElem? h
  | leastUsed =>
    rw [hs] at h
    exact List.argmin_mem h

/-- A pool that is not empty has a pick. -/
theorem ProxyPool.exists_select (pool : ProxyPool) (h : pool.proxies.texts ≠ []) (now : ℚ) (draw : ℕ) :
    ∃ p, pool.select now draw = some p := by
  have hne : pool.candidates now ≠ [] := candidates_ne_nil h
  have hget : ∀ i, ∃ p, (pool.candidates now)[i % (pool.candidates now).length]? = some p := fun i =>
    ⟨_, List.getElem?_eq_getElem (Nat.mod_lt i (List.length_pos_of_ne_nil hne))⟩
  unfold ProxyPool.select
  cases pool.strategy with
  | roundRobin => exact hget pool.idx
  | random => exact hget draw
  | leastUsed =>
    rw [← Option.ne_none_iff_exists']
    exact fun hnone => hne (List.argmin_eq_none.mp hnone)

/-- **What `current` returns**: the pick, unless the pool is empty. -/
theorem ProxyPool.current_fst :
    (pool.current now draw).1 = if pool.proxies.texts = [] then none else pool.select now draw := by
  unfold ProxyPool.current
  split
  · rfl
  · cases pool.select now draw <;> rfl

/-- **What `current` changes**: the counts of uses. -/
theorem ProxyPool.current_snd (pool : ProxyPool) (now : ℚ) (draw : ℕ) :
    ∃ uses, (pool.current now draw).2 = { pool with uses := uses } := by
  unfold ProxyPool.current
  split
  · exact ⟨pool.uses, rfl⟩
  · cases pool.select now draw with
    | none => exact ⟨pool.uses, rfl⟩
    | some p => exact ⟨pool.uses.set p (pool.usesOf p + 1), rfl⟩

theorem ProxyPool.park_deadUntilOf (pool : ProxyPool) (bad : Option String) (t : ℚ) (hp : p ≠ "") :
    (pool.park bad t).deadUntilOf p =
      if bad = some p then t + proxyCooldownS else pool.deadUntilOf p := by
  unfold ProxyPool.park
  cases bad with
  | none => rw [if_neg (by simp)]
  | some bad =>
    dsimp only
    by_cases hempty : bad = ""
    · rw [if_pos hempty, if_neg (by simpa [hempty] using hp.symm)]
    · rw [if_neg hempty]
      simp only [ProxyPool.deadUntilOf, Dict.get?_set, Option.some.injEq]
      by_cases he : bad = p
      · simp [he]
      · rw [if_neg he, if_neg (by simpa [eq_comm] using he)]

theorem ProxyPool.park_frame (bad : Option String) (t : ℚ) :
    ∃ deadUntil, pool.park bad t = { pool with deadUntil := deadUntil } := by
  unfold ProxyPool.park
  cases bad with
  | none => exact ⟨pool.deadUntil, rfl⟩
  | some bad =>
    dsimp only
    split
    · exact ⟨pool.deadUntil, rfl⟩
    · exact ⟨_, rfl⟩

/-- What a call parks. -/
def PoolMethod.bad : PoolMethod → Option String
  | .rotate bad => bad
  | _ => none

/-- Where a call leaves the index. -/
def PoolMethod.idxAfter (m : PoolMethod) (pool : ProxyPool) : ℕ :=
  match m with
  | .rotate _ => (pool.idx + 1) % pool.count
  | _ => pool.idx

/-- **What a call changes**: the counts of uses, the index, and what it parks. -/
theorem ProxyPool.call_snd (h : pool.proxies.texts ≠ []) (c : PoolCall) :
    ∃ uses, (pool.call c).2 = { pool.park c.method.bad c.early with
      uses := uses, idx := c.method.idxAfter pool } := by
  unfold ProxyPool.call
  cases hm : c.method with
  | current =>
    obtain ⟨uses, hu⟩ := pool.current_snd c.late c.draw
    exact ⟨uses, hu⟩
  | rotate bad =>
    obtain ⟨d, hd⟩ := pool.park_frame bad c.early
    simp only [ProxyPool.rotate, if_neg h, PoolMethod.bad, hd]
    obtain ⟨uses, hu⟩ := ProxyPool.current_snd
      { pool with deadUntil := d, idx := (pool.idx + 1) % pool.proxies.texts.length } c.late c.draw
    exact ⟨uses, hu⟩
  | asProxies proxy =>
    obtain ⟨uses, hu⟩ := pool.current_snd c.late c.draw
    by_cases hown : proxy = none ∨ proxy = some ""
    · refine ⟨uses, ?_⟩
      simp only [ProxyPool.asProxies, if_pos hown]
      cases (pool.current c.late c.draw).1 <;> exact hu
    · refine ⟨pool.uses, ?_⟩
      simp only [ProxyPool.asProxies, if_neg hown]
      cases proxy <;> rfl
  | status =>
    obtain ⟨uses, hu⟩ := pool.current_snd c.late c.draw
    refine ⟨uses, ?_⟩
    have henabled : pool.enabled = true := by simpa [ProxyPool.enabled] using h
    simp only [ProxyPool.status, henabled, if_true]
    exact hu

/-- An empty pool stays as it is. -/
theorem ProxyPool.call_of_empty (h : pool.proxies.texts = []) (c : PoolCall) :
    (pool.call c).2 = pool := by
  have hcurrent : ∀ now draw, pool.current now draw = (none, pool) := fun now draw => by
    rw [ProxyPool.current, if_pos h]
  unfold ProxyPool.call
  cases c.method with
  | current => simp [hcurrent]
  | rotate bad => simp [ProxyPool.rotate, h]
  | asProxies proxy =>
    simp only [ProxyPool.asProxies, hcurrent]
    split <;> rename_i hp <;> split at hp <;> simp_all
  | status => simp [ProxyPool.status, ProxyPool.enabled, h]

end Calls

end BharatTicker
