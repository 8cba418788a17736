/-
  File:      BharatTicker/TickerCache/LastWrite.lean
  Subject:   THE TICK CACHE IS LAST-WRITE-WINS, AND THE BULK READ IS THE SINGLE READ.

  `set_tick` merges its hash into what is under the key, expired or not; as every tick is written
  with the same fields, nothing of an earlier tick is left.

  * `setTick_store`, `setMarketDepth_store` -- what a write does to the store;
  * `HoldsTick` -- what is under the key of a pair; `perform_holdsTick` -- one call;
  * `bulk_eq_single` -- the bulk read; `get_tick_last_write` -- whole histories.
-/
import BharatTicker.Basis.Run
import BharatTicker.TickerCache

namespace BharatTicker

-- the concrete runs below compute with rationals
unseal Rat.add Rat.mul Rat.sub Rat.inv

namespace TickerCache

open Basis MemoryStore

/-! ## 1. Writes -/

section Writes

variable (cfg : CacheSettings) (dumps : TickMessage → String) (s : MemoryStore) (now : ℚ)

/-- **A tick is merged into its key's hash, with a new expiry**; the hashes and expiries of the other
    keys are not touched. -/
theorem setTick_store (tick : FullTick) (cachedAt : String) :
    (setTick cfg dumps tick cachedAt now s).hashes =
        Function.update s.hashes (tickKey tick.exchange tick.symbol) (some (Dict.update
          ((s.hashes (tickKey tick.exchange tick.symbol)).getD []) (tickToHash tick cachedAt))) ∧
      (setTick cfg dumps tick cachedAt now s).expiry =
        Function.update s.expiry (tickKey tick.exchange tick.symbol)
          (some (now + cfg.tickTtlSeconds)) := by
  unfold setTick
  dsimp only
  rw [hset_expire]
  exact ⟨rfl, rfl⟩

theorem setMarketDepth_store (symbol : String) (e : Exchange) (depth : MarketDepth)
    (updatedAt : String) :
    (setMarketDepth cfg symbol e depth updatedAt now s).hashes =
        Function.update s.hashes (depthKey e symbol) (some (Dict.update
          ((s.hashes (depthKey e symbol)).getD []) (depthToHash depth updatedAt))) ∧
      (setMarketDepth cfg symbol e depth updatedAt now s).expiry =
        Function.update s.expiry (depthKey e symbol) (some (now + cfg.depthTtlSeconds)) := by
  unfold setMarketDepth
  dsimp only
  rw [hset_expire]
  exact ⟨rfl, rfl⟩

end Writes

/-- The fields that every tick is written with. -/
def tickFields : List String :=
  ["symbol", "exchange", "isin", "series", "ltp", "open", "high", "low", "close", "change",
    "pct_change", "volume", "value", "vwap", "upper_circuit", "lower_circuit", "week_52_high",
    "week_52_low", "timestamp", "source", "source_latency_ms", "cached_at"]

@[simp] theorem keys_tickToHash (tick : FullTick) (cachedAt : String) :
    Dict.keys (tickToHash tick cachedAt) = tickFields := rfl

theorem tickFields_nodup : tickFields.Nodup := by decide

/-! ## 2. What is under the key of a pair -/

/-- Nothing if no tick was written; else the hash of the last tick with its expiry, or nothing, once
    that has passed. -/
def HoldsTick (ttl : Int) (now : ℚ) (store : MemoryStore) (key : String) :
    Option WrittenTick → Prop
  | none => store.hashes key = none ∧ store.expiry key = none
  | some w =>
    store.hashes key = some (tickToHash w.tick w.cachedAt) ∧
        store.expiry key = some (w.time + ttl) ∨
      store.hashes key = none ∧ store.expiry key = none ∧ w.time + ttl ≤ now

def TickInv (ttl : Int) (s : CacheHistory) : Prop :=
  ∀ e symbol, HoldsTick ttl s.now s.store (tickKey e symbol) (s.ticks e symbol)

theorem tickInv_init (ttl : Int) (t₀ : ℚ) : TickInv ttl { now := t₀ } := fun _ _ => ⟨rfl, rfl⟩

section Holds

variable {ttl : Int} {now now' : ℚ} {s s' : MemoryStore} {key : String} {w : Option WrittenTick}

theorem HoldsTick.later (h : HoldsTick ttl now s key w) (hle : now ≤ now') :
    HoldsTick ttl now' s key w := by
  cases w with
  | none => exact h
  | some w =>
    rcases h with h | ⟨hh, he, hgone⟩
    · exact .inl h
    · exact .inr ⟨hh, he, hgone.trans hle⟩

theorem HoldsTick.congr (h : HoldsTick ttl now s key w) (hh : s'.hashes key = s.hashes key)
    (he : s'.expiry key = s.expiry key) : HoldsTick ttl now s' key w := by
  cases w with
  | none => exact ⟨hh.trans h.1, he.trans h.2⟩
  | some w =>
    unfold HoldsTick at *
    rw [hh, he]
    exact h

/-- What is there has the fields of a tick, or there is nothing. -/
theorem HoldsTick.merge (h : HoldsTick ttl now s key w) (tick : FullTick) (cachedAt : String) :
    Dict.update ((s.hashes key).getD []) (tickToHash tick cachedAt) = tickToHash tick cachedAt := by
  have hnil : Dict.update [] (tickToHash tick cachedAt) = tickToHash tick cachedAt :=
    Dict.nil_update tickFields_nodup
  cases w with
  | none =>
    rw [h.1]
    exact hnil
  | some w =>
    rcases h with ⟨hh, -⟩ | ⟨hh, -, -⟩
    · rw [hh]
      exact Dict.update_eq rfl tickFields_nodup
    · rw [hh]
      exact hnil

/-- A read of any key. -/
theorem HoldsTick.expired (h : HoldsTick ttl now s key w) (k : String) :
    HoldsTick ttl now (s.expired k now).2 key w := by
  rw [expired_state]
  split
  · rename_i hd
    by_cases hk : key = k
    · subst hk
      have hpurged : (s.purge key).hashes key = none ∧ (s.purge key).expiry key = none :=
        ⟨Function.update_self .., Function.update_self ..⟩
      cases w with
      | none => exact hpurged
      | some w =>
        refine .inr ⟨hpurged.1, hpurged.2, ?_⟩
        rcases h with ⟨-, he⟩ | ⟨-, -, hgone⟩
        · rw [dead_of_deadline he] at hd
          exact of_decide_eq_true hd
        · exact hgone
    · exact h.congr (purge_hashes_of_ne hk) (purge_expiry_of_ne hk)
  · exact h

/-- **What a read returns**: the hash of the last tick, as long as its time to live has not
    passed. -/
theorem HoldsTick.read (h : HoldsTick ttl now s key w) : orNone (s.hgetall key now).1 =
    w.bind fun w => if now - w.time < ttl then some (tickToHash w.tick w.cachedAt) else none := by
  rw [hgetall_eq]
  cases w with
  | none =>
    rw [dead_of_none h.2, h.1]
    rfl
  | some w =>
    have hiff : now - w.time < ttl ↔ ¬ w.time + ttl ≤ now := by
      rw [not_le, sub_lt_iff_lt_add']
    rcases h with ⟨hh, he⟩ | ⟨hh, he, hgone⟩
    · rw [dead_of_deadline he, hh]
      by_cases hd : w.time + ttl ≤ now
      · have hnot : ¬ now - w.time < ttl := fun hlt => hiff.mp hlt hd
        simp [hd, hnot, orNone]
      · have hlt : now - w.time < ttl := hiff.mpr hd
        simp [hd, hlt, orNone, tickToHash]
    · have hnot : ¬ now - w.time < ttl := fun hlt => hiff.mp hlt hgone
      rw [dead_of_none he, hh]
      simp [hnot, orNone]

end Holds

/-! ## 3. One call -/

section Calls

variable {cfg : CacheSettings} {dumps : TickMessage → String}

theorem getTick_state (symbol : String) (e : Exchange) (now : ℚ) (s : MemoryStore) :
    (getTick symbol e now s).2 = (s.expired (tickKey e symbol) now).2 := hgetall_state

theorem getMarketDepth_state (symbol : String) (e : Exchange) (now : ℚ) (s : MemoryStore) :
    (getMarketDepth symbol e now s).2 = (s.expired (depthKey e symbol) now).2 := hgetall_state

/-- The reads of a pipeline do not disturb each other. -/
theorem bulkResults_eq (symbols : List String) (e : Exchange) (now : ℚ) (s : MemoryStore) :
    (bulkResults symbols e now s).1 =
      symbols.map fun symbol => (s.hgetall (tickKey e symbol) now).1 := by
  induction symbols generalizing s with
  | nil => rfl
  | cons symbol symbols ih =>
    show (s.hgetall (tickKey e symbol) now).1 ::
      (bulkResults symbols e now (s.hgetall (tickKey e symbol) now).2).1 = _
    rw [ih, hgetall_state]
    simp only [hgetall_after_expired, List.map_cons]

theorem bulkResults_holdsTick {ttl : Int} {now : ℚ} {s : MemoryStore} {key : String}
    {w : Option WrittenTick} (h : HoldsTick ttl now s key w) (symbols : List String)
    (e : Exchange) : HoldsTick ttl now (bulkResults symbols e now s).2 key w := by
  induction symbols generalizing s with
  | nil => exact h
  | cons symbol symbols ih =>
    show HoldsTick ttl now (bulkResults symbols e now (s.hgetall (tickKey e symbol) now).2).2 key w
    rw [hgetall_state]
    exact ih (h.expired _)

theorem perform_now (s : CacheHistory) (a : CacheCall) : (perform cfg dumps s a).now = s.now := by
  cases a <;> rfl

/-- **One call keeps what is under the keys of all pairs.** -/
theorem perform_holdsTick {s : CacheHistory} (h : TickInv cfg.tickTtlSeconds s) (a : CacheCall) :
    TickInv cfg.tickTtlSeconds (perform cfg dumps s a) := by
  intro e symbol
  rw [perform_now]
  cases a with
  | setTick tick cachedAt =>
    obtain ⟨hhashes, hexpiry⟩ := setTick_store cfg dumps s.store s.now tick cachedAt
    show HoldsTick _ _ (setTick cfg dumps tick cachedAt s.now s.store) _
      (updatePair s.ticks tick.exchange tick.symbol _ e symbol)
    by_cases hpair : e = tick.exchange ∧ symbol = tick.symbol
    · obtain ⟨rfl, rfl⟩ := hpair
      rw [updatePair_self]
      refine .inl ⟨?_, ?_⟩
      · rw [hhashes, Function.update_self, (h tick.exchange tick.symbol).merge]
      · rw [hexpiry, Function.update_self]
    · have hkey : tickKey e symbol ≠ tickKey tick.exchange tick.symbol :=
        fun hk => hpair (tickKey_injective hk)
      rw [updatePair_of_ne hpair]
      exact (h e symbol).congr (by rw [hhashes, Function.update_of_ne hkey])
        (by rw [hexpiry, Function.update_of_ne hkey])
  | setMarketDepth symbol' e' depth updatedAt =>
    obtain ⟨hhashes, hexpiry⟩ := setMarketDepth_store cfg s.store s.now symbol' e' depth updatedAt
    show HoldsTick _ _ (setMarketDepth cfg symbol' e' depth updatedAt s.now s.store) _ _
    exact (h e symbol).congr (by rw [hhashes, Function.update_of_ne tickKey_ne_depthKey])
      (by rw [hexpiry, Function.update_of_ne tickKey_ne_depthKey])
  | getTick symbol' e' =>
    show HoldsTick _ _ (getTick symbol' e' s.now s.store).2 _ _
    rw [getTick_state]
    exact (h e symbol).expired _
  | getMarketDepth symbol' e' =>
    show HoldsTick _ _ (getMarketDepth symbol' e' s.now s.store).2 _ _
    rw [getMarketDepth_state]
    exact (h e symbol).expired _
  | getBulkTicks symbols e' => exact bulkResults_holdsTick (h e symbol) symbols e'

theorem step_holdsTick {s s' : CacheHistory} {a : CacheCall × ℚ}
    (h : TickInv cfg.tickTtlSeconds s) (hs : step cfg dumps s a = some s') :
    TickInv cfg.tickTtlSeconds s' := by
  obtain ⟨hle, e⟩ := Option.ite_none_right_eq_some.mp hs
  cases e
  refine perform_holdsTick (s := { s with now := a.2 }) (fun e symbol => ?_) a.1
  exact (h e symbol).later hle

/-- **The bulk read returns exactly the symbols that have a tick, each with it.** -/
theorem bulk_eq_single (symbols : List String) (e : Exchange) (now : ℚ) (s : MemoryStore)
    (symbol : String) : Dict.get? (getBulkTicks symbols e now s).1 symbol =
      if symbol ∈ symbols then (getTick symbol e now s).1 else none := by
  show Dict.get? (Dict.update [] ((symbols.zip (bulkResults symbols e now s).1).filter _)) symbol = _
  have hzip : symbols.zip (bulkResults symbols e now s).1 =
      symbols.map fun symbol => (symbol, (s.hgetall (tickKey e symbol) now).1) := by
    rw [bulkResults_eq]
    exact List.map_prod_left_eq_zip.symm
  rw [hzip, Dict.get?_update_graph (f := fun symbol => (s.hgetall (tickKey e symbol) now).1)]
  · show _ = if symbol ∈ symbols then orNone (s.hgetall (tickKey e symbol) now).1 else none
    have hkeys : symbol ∈ Dict.keys ((symbols.map fun symbol =>
        (symbol, (s.hgetall (tickKey e symbol) now).1)).filter fun x => decide (x.2 ≠ [])) ↔
          symbol ∈ symbols ∧ (s.hgetall (tickKey e symbol) now).1 ≠ [] := by
      simp only [Dict.keys, List.mem_map, List.mem_filter, decide_eq_true_eq]
      constructor
      · intro h
        obtain ⟨x, ⟨⟨y, hy, rfl⟩, hne⟩, rfl⟩ := h
        exact ⟨hy, hne⟩
      · intro h
        exact ⟨_, ⟨⟨symbol, h.1, rfl⟩, h.2⟩, rfl⟩
    rw [Dict.get?_nil]
    unfold orNone
    by_cases hmem : symbol ∈ symbols
    · by_cases hne : (s.hgetall (tickKey e symbol) now).1 = []
      · rw [if_neg fun h => (hkeys.mp h).2 hne, if_pos hmem, if_pos hne]
      · rw [if_pos (hkeys.mpr ⟨hmem, hne⟩), if_pos hmem, if_neg hne]
    · rw [if_neg fun h => hmem (hkeys.mp h).1, if_neg hmem]
  · intro x hx
    obtain ⟨y, -, rfl⟩ := List.mem_map.mp (List.mem_of_mem_filter hx)
    rfl

/-- **The tick cache is last-write-wins.** After any calls at non-decreasing times, a read of a pair
    returns exactly the hash of the last tick written for that pair, if less than the time to live
    has passed since, and else `None`; and the bulk read returns exactly the symbols whose single
    read is not `None`, each with that value. -/
theorem get_tick_last_write (cfg : CacheSettings) (dumps : TickMessage → String) (t₀ : ℚ)
    (calls : List (CacheCall × ℚ)) (s : CacheHistory)
    (hr : run (step cfg dumps) { now := t₀ } calls = some s) (now : ℚ) (hnow : s.now ≤ now) :
    (∀ symbol e, (getTick symbol e now s.store).1 = (s.ticks e symbol).bind fun w =>
      if now - w.time < cfg.tickTtlSeconds then some (tickToHash w.tick w.cachedAt) else none) ∧
    ∀ symbols e symbol, Dict.get? (getBulkTicks symbols e now s.store).1 symbol =
      if symbol ∈ symbols then (getTick symbol e now s.store).1 else none := by
  have h : TickInv cfg.tickTtlSeconds s :=
    run_invariant (fun s a s' hI hs => step_holdsTick hI hs) (tickInv_init _ t₀) hr
  refine ⟨fun symbol e => ((h e symbol).later hnow).read, fun symbols e symbol => ?_⟩
  exact bulk_eq_single symbols e now s.store symbol

end Calls

def relianceTick (ltp : Decimal) (exchange : Exchange) : FullTick where
  symbol := "RELIANCE"
  exchange := exchange
  ltp := { ltp with negative := false }
  opening := ⟨false, 2930, 0⟩
  high := ⟨false, 295875, -2⟩
  low := ⟨false, 2921, 0⟩
  close := ⟨false, 29205, -1⟩
  timestamp := "2026-01-05T10:00:00+05:30"
  source := "groww"
  prices_nonNegative := by
    intro d hd
    fin_cases hd <;> rfl

/-- Two ticks of one pair, the second one written when the first has expired and was not read, and a
    tick of the other exchange. -/
theorem get_tick_last_write_reliance :
    let calls : List (CacheCall × ℚ) :=
      [(.setTick (relianceTick ⟨false, 2945, 0⟩ .NSE) "1.0", 1),
        (.setTick (relianceTick ⟨false, 2946, 0⟩ .BSE) "2.0", 2),
        (.setTick (relianceTick ⟨false, 2950, 0⟩ .NSE) "7.0", 7)]
    ∃ s, run (step {} TickMessage.symbol) { now := 0 } calls = some s ∧
      (getTick "RELIANCE" .NSE 8 s.store).1 =
        some (tickToHash (relianceTick ⟨false, 2950, 0⟩ .NSE) "7.0") ∧
      (getTick "RELIANCE" .BSE 8 s.store).1 = none ∧
      ∀ symbols symbol, Dict.get? (getBulkTicks symbols .NSE 8 s.store).1 symbol =
        if symbol ∈ symbols then (getTick symbol .NSE 8 s.store).1 else none := by
  intro calls
  have hrun : (run (step {} TickMessage.symbol) { now := 0 } calls).map (fun s =>
      (decide (s.now ≤ 8), (getTick "RELIANCE" .NSE 8 s.store).1,
        (getTick "RELIANCE" .BSE 8 s.store).1)) =
      some (true, some (tickToHash (relianceTick ⟨false, 2950, 0⟩ .NSE) "7.0"), none) := by
    decide
  obtain ⟨s, hs, e⟩ := Option.map_eq_some_iff.mp hrun
  simp only [Prod.mk.injEq, decide_eq_true_eq] at e
  exact ⟨s, hs, e.2.1, e.2.2,
    fun symbols => (get_tick_last_write {} TickMessage.symbol 0 calls s hs 8 e.1).2 symbols .NSE⟩

end TickerCache

end BharatTicker
