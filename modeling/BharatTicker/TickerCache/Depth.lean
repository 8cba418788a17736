/-
  File:      BharatTicker/TickerCache/Depth.lean
  Subject:   THE ORDER BOOK THAT `get_depth` DECODES (`api/endpoints/quotes.py`: `get_depth`).

  `set_market_depth` writes the fields of the levels that there are, and `hset` merges them into the
  hash under the key; so a level stays there until a later book has a level in its place, or a read
  finds the key expired and removes it.

  * `decodeDepth`, `getDepth` -- the reader;
  * `shown` -- the level that is left at a place; `HoldsBooks` -- what is under the key of a pair;
  * `decodeDepth_holds` -- what is decoded of it;
  * `depth_round_trip_iff` -- whole histories.
-/
import BharatTicker.MarketData
import BharatTicker.TickerCache.LastWrite
import BharatTicker.TickerCache.Quote

namespace BharatTicker

-- the concrete runs below compute with rationals
unseal Rat.add Rat.mul Rat.sub Rat.inv

namespace TickerCache

open Basis MemoryStore

/-! ## 1. The reader -/

structure QuoteDepthLevel where
  price : Decimal
  quantity : Int
  orders : Int
  deriving DecidableEq, Repr

structure QuoteDepth where
  buy : List QuoteDepthLevel
  sell : List QuoteDepthLevel
  totalBuyQuantity : Int
  totalSellQuantity : Int
  deriving DecidableEq, Repr

/-- `int(depth_data.get(key, 0))`; `none` where it raises. -/
def intField (data : Hash) (key : String) : Option Int :=
  match Dict.get? data key with
  | some s => parseInt s
  | none => some 0

/-- One pass of the loop, for one side; the outer `none` where it raises. -/
def decodeLevel (data : Hash) (side : BookSide) (i : Nat) : Option (Option QuoteDepthLevel) :=
  match textOrNone data (levelField side i .price) with
  | none => some none
  | some p => do
    let price ← Decimal.parse p
    let quantity ← intField data (levelField side i .qty)
    let orders ← intField data (levelField side i .orders)
    return some ⟨price, quantity, orders⟩

/-- The levels that the loop collects for one side. -/
def decodeSide (data : Hash) (side : BookSide) : Option (List QuoteDepthLevel) :=
  ((List.range 5).mapM (decodeLevel data side)).map List.reduceOption

def decodeDepth (data : Hash) : Option QuoteDepth := do
  let buy ← decodeSide data .buy
  let sell ← decodeSide data .sell
  let totalBuyQuantity ← intField data "total_buy_qty"
  let totalSellQuantity ← intField data "total_sell_qty"
  return ⟨buy, sell, totalBuyQuantity, totalSellQuantity⟩

/-- `get_depth`, as long as it finds a cached book: what it decodes of it. -/
def getDepth (symbol : String) (exchange : Exchange) (now : ℚ) (s : MemoryStore) :
    Option (Option QuoteDepth) :=
  ((getMarketDepth (upper (strip symbol)) exchange now s).1).map decodeDepth

/-! ## 2. Fields of a book -/

theorem levelField_injective {side side' : BookSide} {i j : Nat} {kind kind' : LevelKind}
    (hi : i < 5) (hj : j < 5) (h : levelField side i kind = levelField side' j kind') :
    side = side' ∧ i = j ∧ kind = kind' := by
  have hall : ∀ i < 5, ∀ j < 5, levelField side i kind = levelField side' j kind' →
      side = side' ∧ i = j ∧ kind = kind' := by
    cases side <;> cases side' <;> cases kind <;> cases kind' <;> decide +kernel
  exact hall i hi j hj h

theorem levelField_ne_total (side : BookSide) {i : Nat} (kind : LevelKind) (hi : i < 5) :
    levelField side i kind ∉ ["total_buy_qty", "total_sell_qty", "updated_at"] := by
  have hall : ∀ i < 5, levelField side i kind ∉ ["total_buy_qty", "total_sell_qty", "updated_at"] := by
    cases side <;> cases kind <;> decide +kernel
  exact hall i hi

theorem get?_levelFields (side : BookSide) (level : MarketDepthLevel) (i : Nat)
    (kind : LevelKind) (hi : i < 5) :
    Dict.get? (levelFields side level i) (levelField side i kind) = some (kind.value level) := by
  have hne : ∀ {kind' : LevelKind}, kind' ≠ kind →
      levelField side i kind' ≠ levelField side i kind :=
    fun hk h => hk (levelField_injective hi hi h).2.2
  unfold levelFields
  cases kind with
  | price => rw [Dict.get?_cons, if_pos rfl]; rfl
  | qty => rw [Dict.get?_cons, if_neg (hne (by decide)), Dict.get?_cons, if_pos rfl]; rfl
  | orders =>
    rw [Dict.get?_cons, if_neg (hne (by decide)), Dict.get?_cons, if_neg (hne (by decide)),
      Dict.get?_cons, if_pos rfl]
    rfl

theorem get?_levelFields_of_ne {side side' : BookSide} {level : MarketDepthLevel} {i j : Nat}
    {kind : LevelKind} (hi : i < 5) (hj : j < 5) (h : ¬ (side' = side ∧ j = i)) :
    Dict.get? (levelFields side' level j) (levelField side i kind) = none := by
  have hne : ∀ kind', levelField side' j kind' ≠ levelField side i kind := by
    intro kind' e
    obtain ⟨hs, hij, -⟩ := levelField_injective hj hi e
    exact h ⟨hs, hij⟩
  unfold levelFields
  rw [Dict.get?_cons, if_neg (hne _), Dict.get?_cons, if_neg (hne _), Dict.get?_cons,
    if_neg (hne _)]
  rfl

/-- **A field of a side is that of the level at its place.** -/
theorem get?_sideFields (side : BookSide) (levels : List MarketDepthLevel) {i : Nat}
    (kind : LevelKind) (hi : i < 5) : Dict.get? (sideFields side levels) (levelField side i kind) =
      (levels.take 5)[i]?.map fun level => kind.value level := by
  unfold sideFields
  have hlen : 0 + (levels.take 5).length ≤ 5 := by
    rw [List.length_take]
    omega
  refine Dict.get?_rows (n := 5) (fun level => get?_levelFields side level i kind hi) ?_ hlen
    (Nat.zero_le i)
  exact fun level j hj hne => get?_levelFields_of_ne hi hj fun h => hne h.2

/-- The fields of a side are those of its five levels. -/
theorem mem_keys_sideFields {side : BookSide} {levels : List MarketDepthLevel} {key : String}
    (h : key ∈ Dict.keys (sideFields side levels)) :
    ∃ j kind, j < 5 ∧ key = levelField side j kind := by
  unfold sideFields Dict.keys at h
  simp only [List.mem_map, List.mem_flatMap] at h
  obtain ⟨entry, ⟨row, hrow, hentry⟩, rfl⟩ := h
  have hj : row.2 < 5 := by
    have hlt := (List.mem_zipIdx hrow).2.1
    rw [List.length_take] at hlt
    omega
  simp only [levelFields, List.mem_cons, List.not_mem_nil, or_false] at hentry
  rcases hentry with rfl | rfl | rfl
  · exact ⟨row.2, .price, hj, rfl⟩
  · exact ⟨row.2, .qty, hj, rfl⟩
  · exact ⟨row.2, .orders, hj, rfl⟩

theorem get?_sideFields_of_ne {side side' : BookSide} (levels : List MarketDepthLevel) {i : Nat}
    (kind : LevelKind) (hi : i < 5) (h : side' ≠ side) :
    Dict.get? (sideFields side' levels) (levelField side i kind) = none := by
  rw [Dict.get?_eq_none_iff]
  intro hmem
  obtain ⟨j, kind', hj, e⟩ := mem_keys_sideFields hmem
  exact h (levelField_injective hj hi e.symm).1

theorem get?_sideFields_total {side : BookSide} (levels : List MarketDepthLevel) {key : String}
    (h : key ∈ ["total_buy_qty", "total_sell_qty", "updated_at"]) :
    Dict.get? (sideFields side levels) key = none := by
  rw [Dict.get?_eq_none_iff]
  intro hmem
  obtain ⟨j, kind, hj, rfl⟩ := mem_keys_sideFields hmem
  exact levelField_ne_total side kind hj h

/-- **What the hash of a book has for a level.** -/
theorem get?_depthToHash_level (depth : MarketDepth) (updatedAt : String) (side : BookSide) {i : Nat}
    (kind : LevelKind) (hi : i < 5) :
    Dict.get? (depthToHash depth updatedAt) (levelField side i kind) =
      ((depth.levels side).take 5)[i]?.map fun level => kind.value level := by
  have htotal : Dict.get? [("total_buy_qty", toString depth.totalBuyQuantity),
      ("total_sell_qty", toString depth.totalSellQuantity), ("updated_at", updatedAt)]
        (levelField side i kind) = none := by
    rw [Dict.get?_eq_none_iff]
    exact levelField_ne_total side kind hi
  unfold depthToHash
  rw [Dict.get?_append, Dict.get?_append, htotal, Option.or_none]
  cases side with
  | buy =>
    rw [get?_sideFields .buy depth.buy kind hi, get?_sideFields_of_ne depth.sell kind hi (by decide),
      Option.or_none]
    rfl
  | sell =>
    rw [get?_sideFields .sell depth.sell kind hi, get?_sideFields_of_ne depth.buy kind hi (by decide),
      Option.none_or]
    rfl

theorem get?_depthToHash_totals (depth : MarketDepth) (updatedAt : String) :
    Dict.get? (depthToHash depth updatedAt) "total_buy_qty" =
        some (toString depth.totalBuyQuantity) ∧
      Dict.get? (depthToHash depth updatedAt) "total_sell_qty" =
        some (toString depth.totalSellQuantity) := by
  unfold depthToHash
  rw [Dict.get?_append, Dict.get?_append, get?_sideFields_total _ (by decide),
    get?_sideFields_total _ (by decide), Dict.get?_append, Dict.get?_append,
    get?_sideFields_total _ (by decide), get?_sideFields_total _ (by decide)]
  exact ⟨rfl, rfl⟩

/-- The fields of a side, in order. -/
def sideNames (side : BookSide) (n : Nat) : List String :=
  (List.range n).flatMap fun i => [levelField side i .price, levelField side i .qty,
    levelField side i .orders]

theorem keys_sideFields (side : BookSide) (levels : List MarketDepthLevel) :
    Dict.keys (sideFields side levels) = sideNames side (levels.take 5).length := by
  unfold Dict.keys sideFields sideNames
  rw [List.map_flatMap, List.range_eq_range', ← List.zipIdx_map_snd 0, List.flatMap_map]
  rfl

theorem depthToHash_nodup (depth : MarketDepth) (updatedAt : String) :
    (Dict.keys (depthToHash depth updatedAt)).Nodup := by
  have hfull : (sideNames .buy 5 ++ sideNames .sell 5 ++
      ["total_buy_qty", "total_sell_qty", "updated_at"]).Nodup := by
    decide
  have hside : ∀ side levels, (Dict.keys (sideFields side levels)).Sublist (sideNames side 5) := by
    intro side levels
    rw [keys_sideFields]
    refine List.Sublist.flatMap (List.range_sublist.mpr ?_) _
    rw [List.length_take]
    omega
  refine hfull.sublist ?_
  unfold depthToHash Dict.keys
  rw [List.map_append, List.map_append]
  exact ((hside .buy depth.buy).append (hside .sell depth.sell)).append (List.Sublist.refl _)

/-! ## 3. What is under the key of a pair -/

/-- The level that is left at a place of a side: that of the newest book which has one there. -/
def shown (books : List MarketDepth) (side : BookSide) (i : Nat) : Option MarketDepthLevel :=
  books.findSome? fun depth => ((depth.levels side).take 5)[i]?

/-- The fields of a hash into which the books were merged, newest first. -/
structure Merged (books : List MarketDepth) (data : Hash) : Prop where
  levels : ∀ side i kind, i < 5 → Dict.get? data (levelField side i kind) =
    (shown books side i).map fun level => kind.value level
  totals : ∀ last rest, books = last :: rest →
    Dict.get? data "total_buy_qty" = some (toString last.totalBuyQuantity) ∧
      Dict.get? data "total_sell_qty" = some (toString last.totalSellQuantity)

/-- Nothing, if no book was written since a read removed the key; else all of them, merged. -/
def HoldsBooks (store : MemoryStore) (key : String) (books : List MarketDepth) : Prop :=
  match books with
  | [] => store.hashes key = none ∧ store.expiry key = none
  | _ :: _ => ∃ data, store.hashes key = some data ∧ Merged books data

def BooksInv (s : CacheHistory) : Prop :=
  ∀ e symbol, HoldsBooks s.store (depthKey e symbol) (s.books e symbol)

theorem booksInv_init (t₀ : ℚ) : BooksInv { now := t₀ } := fun _ _ => ⟨rfl, rfl⟩

theorem merged_nil : Merged [] [] := ⟨fun _ _ _ _ => rfl, fun _ _ h => by cases h⟩

/-- **A book is merged into the earlier ones.** -/
theorem Merged.write {books : List MarketDepth} {data : Hash} (h : Merged books data)
    (depth : MarketDepth) (updatedAt : String) :
    Merged (depth :: books) (Dict.update data (depthToHash depth updatedAt)) := by
  have hnodup := depthToHash_nodup depth updatedAt
  obtain ⟨hbuy, hsell⟩ := get?_depthToHash_totals depth updatedAt
  constructor
  · intro side i kind hi
    rw [Dict.get?_update hnodup, get?_depthToHash_level depth updatedAt side kind hi,
      h.levels side i kind hi]
    unfold shown
    rw [List.findSome?_cons]
    cases ((depth.levels side).take 5)[i]? <;> rfl
  · intro last rest hbooks
    cases hbooks
    rw [Dict.get?_update hnodup, Dict.get?_update hnodup, hbuy, hsell]
    exact ⟨rfl, rfl⟩

section Holds

variable {s s' : MemoryStore} {key : String} {books : List MarketDepth}

theorem HoldsBooks.congr (h : HoldsBooks s key books) (hh : s'.hashes key = s.hashes key)
    (he : s'.expiry key = s.expiry key) : HoldsBooks s' key books := by
  cases books with
  | nil => exact ⟨hh.trans h.1, he.trans h.2⟩
  | cons depth books =>
    obtain ⟨data, hdata, hmerged⟩ := h
    exact ⟨data, hh.trans hdata, hmerged⟩

/-- The books that a hash holds, or the empty hash none. -/
theorem HoldsBooks.merged (h : HoldsBooks s key books) : Merged books ((s.hashes key).getD []) := by
  cases books with
  | nil =>
    rw [h.1]
    exact merged_nil
  | cons depth books =>
    obtain ⟨data, hdata, hmerged⟩ := h
    rw [hdata]
    exact hmerged

/-- A read of another key leaves the books alone. -/
theorem HoldsBooks.expired_of_ne (h : HoldsBooks s key books) {k : String} (hk : key ≠ k)
    (now : ℚ) : HoldsBooks (s.expired k now).2 key books := by
  rw [expired_state]
  split
  · exact h.congr (purge_hashes_of_ne hk) (purge_expiry_of_ne hk)
  · exact h

/-- A read of the key removes a dead book. -/
theorem HoldsBooks.expired (h : HoldsBooks s key books) (now : ℚ) :
    HoldsBooks (s.expired key now).2 key (if s.dead key now then [] else books) := by
  rw [expired_state]
  split
  · exact ⟨Function.update_self .., Function.update_self ..⟩
  · exact h

end Holds

/-! ## 4. One call -/

section Calls

variable {cfg : CacheSettings} {dumps : TickMessage → String}

theorem bulkResults_holdsBooks {now : ℚ} {s : MemoryStore} {e : Exchange} {symbol : String}
    {books : List MarketDepth} (h : HoldsBooks s (depthKey e symbol) books) (symbols : List String)
    (e' : Exchange) : HoldsBooks (bulkResults symbols e' now s).2 (depthKey e symbol) books := by
  induction symbols generalizing s with
  | nil => exact h
  | cons symbol' symbols ih =>
    show HoldsBooks (bulkResults symbols e' now (s.hgetall (tickKey e' symbol') now).2).2 _ _
    rw [hgetall_state]
    exact ih (h.expired_of_ne (Ne.symm tickKey_ne_depthKey) now)

/-- **One call keeps the books that are under the keys of all pairs.** -/
theorem perform_holdsBooks {s : CacheHistory} (h : BooksInv s) (a : CacheCall) :
    BooksInv (perform cfg dumps s a) := by
  intro e symbol
  cases a with
  | setTick tick cachedAt =>
    obtain ⟨hhashes, hexpiry⟩ := setTick_store cfg dumps s.store s.now tick cachedAt
    show HoldsBooks (setTick cfg dumps tick cachedAt s.now s.store) _ _
    exact (h e symbol).congr (by rw [hhashes, Function.update_of_ne (Ne.symm tickKey_ne_depthKey)])
      (by rw [hexpiry, Function.update_of_ne (Ne.symm tickKey_ne_depthKey)])
  | setMarketDepth symbol' e' depth updatedAt =>
    obtain ⟨hhashes, hexpiry⟩ := setMarketDepth_store cfg s.store s.now symbol' e' depth updatedAt
    show HoldsBooks (setMarketDepth cfg symbol' e' depth updatedAt s.now s.store) _
      (updatePair s.books e' symbol' (depth :: s.books e' symbol') e symbol)
    by_cases hpair : e = e' ∧ symbol = symbol'
    · obtain ⟨rfl, rfl⟩ := hpair
      rw [updatePair_self]
      exact ⟨_, by rw [hhashes, Function.update_self], (h e symbol).merged.write depth updatedAt⟩
    · have hkey : depthKey e symbol ≠ depthKey e' symbol' := fun hk => hpair (depthKey_injective hk)
      rw [updatePair_of_ne hpair]
      exact (h e symbol).congr (by rw [hhashes, Function.update_of_ne hkey])
        (by rw [hexpiry, Function.update_of_ne hkey])
  | getTick symbol' e' =>
    show HoldsBooks (getTick symbol' e' s.now s.store).2 _ _
    rw [getTick_state]
    exact (h e symbol).expired_of_ne (Ne.symm tickKey_ne_depthKey) s.now
  | getMarketDepth symbol' e' =>
    show HoldsBooks (getMarketDepth symbol' e' s.now s.store).2 _
      (updatePair s.books e' symbol' _ e symbol)
    rw [getMarketDepth_state]
    by_cases hpair : e = e' ∧ symbol = symbol'
    · obtain ⟨rfl, rfl⟩ := hpair
      rw [updatePair_self]
      exact (h e symbol).expired s.now
    · have hkey : depthKey e symbol ≠ depthKey e' symbol' := fun hk => hpair (depthKey_injective hk)
      rw [updatePair_of_ne hpair]
      exact (h e symbol).expired_of_ne hkey s.now
  | getBulkTicks symbols e' => exact bulkResults_holdsBooks (h e symbol) symbols e'

theorem step_holdsBooks {s s' : CacheHistory} {a : CacheCall × ℚ} (h : BooksInv s)
    (hs : step cfg dumps s a = some s') : BooksInv s' := by
  obtain ⟨-, e⟩ := Option.ite_none_right_eq_some.mp hs
  cases e
  exact perform_holdsBooks (s := { s with now := a.2 }) h a.1

end Calls

/-! ## 5. What is decoded -/

def quoteLevel (level : MarketDepthLevel) : QuoteDepthLevel :=
  ⟨level.price, level.quantity, level.orders⟩

/-- A book, as the reader's types have it. -/
def asQuote (depth : MarketDepth) : QuoteDepth :=
  ⟨depth.buy.map quoteLevel, depth.sell.map quoteLevel, depth.totalBuyQuantity,
    depth.totalSellQuantity⟩

/-- The levels of a side that are left. -/
def shownSide (books : List MarketDepth) (side : BookSide) : List QuoteDepthLevel :=
  (List.range 5).filterMap fun i => (shown books side i).map quoteLevel

section Decoding

variable {books rest : List MarketDepth} {data : Hash} {last : MarketDepth} {side : BookSide}

theorem intField_toString {key : String} {n : Nat} (h : Dict.get? data key = some (toString n)) :
    intField data key = some (n : Int) := by
  have hread : intField data key = parseInt (toString n) := by
    unfold intField
    rw [h]
  exact hread.trans (parseInt_toString (n : Int))

theorem decodeLevel_merged (h : Merged books data) {i : Nat} (hi : i < 5) :
    decodeLevel data side i = some ((shown books side i).map quoteLevel) := by
  have hfield := fun kind => h.levels side i kind hi
  cases hshown : shown books side i with
  | none =>
    have hnone : textOrNone data (levelField side i .price) = none := by
      simp [textOrNone, hfield, hshown]
    unfold decodeLevel
    rw [hnone]
    rfl
  | some level =>
    have hprice : textOrNone data (levelField side i .price) = some level.price.str := by
      unfold textOrNone
      rw [hfield, hshown]
      exact Option.filter_some_pos (decide_eq_true (str_ne_empty level.price))
    have hqty : intField data (levelField side i .qty) = some (level.quantity : Int) :=
      intField_toString (by rw [hfield, hshown]; rfl)
    have horders : intField data (levelField side i .orders) = some (level.orders : Int) :=
      intField_toString (by rw [hfield, hshown]; rfl)
    unfold decodeLevel
    simp only [hprice, Decimal.parse_str, hqty, horders]
    rfl

theorem mapM_eq_map {α β : Type} {f : α → Option β} {g : α → β} {l : List α}
    (h : ∀ x ∈ l, f x = some (g x)) : l.mapM f = some (l.map g) := by
  induction l with
  | nil => rfl
  | cons x l ih =>
    rw [List.mapM_cons, h x List.mem_cons_self, ih fun y hy => h y (List.mem_cons_of_mem _ hy)]
    rfl

theorem decodeSide_merged (h : Merged books data) (side : BookSide) :
    decodeSide data side = some (shownSide books side) := by
  unfold decodeSide shownSide
  rw [mapM_eq_map fun i hi => decodeLevel_merged h (List.mem_range.mp hi)]
  simp [List.reduceOption, List.filterMap_map]

/-- **The reader decodes the levels that are left, with the totals of the last book.** -/
theorem decodeDepth_merged (h : Merged (last :: rest) data) :
    decodeDepth data = some ⟨shownSide (last :: rest) .buy, shownSide (last :: rest) .sell,
      last.totalBuyQuantity, last.totalSellQuantity⟩ := by
  obtain ⟨hbuy, hsell⟩ := h.totals last rest rfl
  simp only [decodeDepth, decodeSide_merged h, intField_toString hbuy, intField_toString hsell]
  rfl

/-- As many levels are left as the longest side has. -/
theorem length_le_shownSide {depth : MarketDepth} (hmem : depth ∈ books)
    (hlen : (depth.levels side).length ≤ 5) :
    (depth.levels side).length ≤ (shownSide books side).length := by
  have hsome : ∀ i < (depth.levels side).length, (shown books side i).isSome = true := by
    intro i hi
    unfold shown
    rw [List.findSome?_isSome_iff]
    refine ⟨depth, hmem, ?_⟩
    rw [List.take_of_length_le hlen, List.getElem?_eq_getElem hi]
    rfl
  unfold shownSide
  rw [List.length_filterMap_eq_countP]
  have hcount : (List.range (depth.levels side).length).countP (fun i =>
      ((shown books side i).map quoteLevel).isSome) = (depth.levels side).length := by
    have hall := List.countP_eq_length.mpr fun i (hi : i ∈ List.range (depth.levels side).length) =>
      show ((shown books side i).map quoteLevel).isSome = true by
        rw [Option.isSome_map]
        exact hsome i (List.mem_range.mp hi)
    rw [hall, List.length_range]
  exact hcount.symm.le.trans ((List.range_sublist.mpr hlen).countP_le)

/-- A list, read place by place. -/
theorem filterMap_range_getElem? {α β : Type} (f : α → β) (l : List α) {n : Nat}
    (hn : l.length ≤ n) : (List.range n).filterMap (fun i => l[i]?.map f) = l.map f := by
  induction l generalizing n with
  | nil => simp
  | cons x l ih =>
    obtain ⟨m, rfl⟩ : ∃ m, n = m + 1 := ⟨n - 1, by rw [List.length_cons] at hn; omega⟩
    have hm : l.length ≤ m := by
      rw [List.length_cons] at hn
      omega
    rw [List.range_succ_eq_map]
    show f x :: ((List.range m).map Nat.succ).filterMap (fun i => (x :: l)[i]?.map f) = _
    rw [List.filterMap_map, List.map_cons, ← ih hm]
    rfl

/-- **A side is decoded as the last book has it exactly when no earlier book has more levels
    there.** -/
theorem shownSide_eq_iff (hlen : ∀ depth ∈ last :: rest, (depth.levels side).length ≤ 5) :
    shownSide (last :: rest) side = (last.levels side).map quoteLevel ↔
      ∀ depth ∈ rest, (depth.levels side).length ≤ (last.levels side).length := by
  constructor
  · intro h depth hdepth
    have hmem : depth ∈ last :: rest := List.mem_cons_of_mem _ hdepth
    have hle := length_le_shownSide hmem (hlen depth hmem)
    rwa [h, List.length_map] at hle
  · intro h
    have hlast := hlen last List.mem_cons_self
    have hshown : ∀ i, shown (last :: rest) side i = (last.levels side)[i]? := by
      intro i
      unfold shown
      rw [List.findSome?_cons, List.take_of_length_le hlast]
      cases hi : (last.levels side)[i]? with
      | some level => rfl
      | none =>
        -- no other book has a level where the last one has none
        refine List.findSome?_eq_none_iff.mpr fun depth hdepth => ?_
        have hle := h depth hdepth
        have hge := List.getElem?_eq_none_iff.mp hi
        rw [List.take_of_length_le (hlen depth (List.mem_cons_of_mem _ hdepth))]
        exact List.getElem?_eq_none_iff.mpr (hle.trans hge)
    unfold shownSide
    simp only [hshown]
    exact filterMap_range_getElem? quoteLevel (last.levels side) hlast

end Decoding

/-! ## 6. Whole histories -/

section Histories

variable {cfg : CacheSettings} {dumps : TickMessage → String}

/-- At most five levels on either side. -/
def fiveLevels (depth : MarketDepth) : Prop := ∀ side, (depth.levels side).length ≤ 5

/-- Every book that a call writes has at most five levels on either side. -/
def writesFive : CacheCall → Prop
  | .setMarketDepth _ _ depth _ => fiveLevels depth
  | _ => True

theorem step_fiveLevels {s s' : CacheHistory} {a : CacheCall × ℚ}
    (h : ∀ e symbol, ∀ depth ∈ s.books e symbol, fiveLevels depth) (ha : writesFive a.1)
    (hs : step cfg dumps s a = some s') :
    ∀ e symbol, ∀ depth ∈ s'.books e symbol, fiveLevels depth := by
  obtain ⟨-, hs'⟩ := Option.ite_none_right_eq_some.mp hs
  cases hs'
  obtain ⟨call, t⟩ := a
  intro e symbol
  cases call with
  | setMarketDepth symbol' e' depth updatedAt =>
    show ∀ d ∈ updatePair s.books e' symbol' (depth :: s.books e' symbol') e symbol, fiveLevels d
    by_cases hpair : e = e' ∧ symbol = symbol'
    · obtain ⟨rfl, rfl⟩ := hpair
      rw [updatePair_self]
      exact List.forall_mem_cons.mpr ⟨ha, h e symbol⟩
    · rw [updatePair_of_ne hpair]
      exact h e symbol
  | getMarketDepth symbol' e' =>
    show ∀ d ∈ updatePair s.books e' symbol' _ e symbol, fiveLevels d
    by_cases hpair : e = e' ∧ symbol = symbol'
    · obtain ⟨rfl, rfl⟩ := hpair
      rw [updatePair_self]
      split
      · exact fun d hd => by cases hd
      · exact h e symbol
    · rw [updatePair_of_ne hpair]
      exact h e symbol
  | setTick tick cachedAt => exact h e symbol
  | getTick symbol' e' => exact h e symbol
  | getBulkTicks symbols e' => exact h e symbol

/-- What `get_depth` finds is what is left of the books under its key. -/
theorem getDepth_books {s : CacheHistory} (h : BooksInv s) {path : String} {e : Exchange} {now : ℚ}
    {q : Option QuoteDepth} (hfound : getDepth path e now s.store = some q) :
    ∃ last rest, s.books e (upper (strip path)) = last :: rest ∧
      q = some ⟨shownSide (last :: rest) .buy, shownSide (last :: rest) .sell,
        last.totalBuyQuantity, last.totalSellQuantity⟩ := by
  obtain ⟨data, hdata, rfl⟩ := Option.map_eq_some_iff.mp hfound
  have hread : orNone (s.store.hgetall (depthKey e (upper (strip path))) now).1 = some data := hdata
  rw [hgetall_eq] at hread
  have hb := h e (upper (strip path))
  obtain ⟨hne, hdata⟩ := Option.ite_none_left_eq_some.mp hread
  cases hbooks : s.books e (upper (strip path)) with
  | nil =>
    rw [hbooks] at hb
    rw [hb.1, Option.getD_none, ite_self] at hne
    exact absurd rfl hne
  | cons last rest =>
    rw [hbooks] at hb
    obtain ⟨data', hdata', hmerged⟩ := hb
    refine ⟨last, rest, rfl, ?_⟩
    have e : data = data' := by
      have hd := Option.some.inj hdata
      rw [← hd]
      split
      · rename_i hdead
        rw [if_pos hdead] at hne
        exact absurd rfl hne
      · rw [hdata', Option.getD_some]
    rw [e]
    exact decodeDepth_merged hmerged

/-- **When the order book comes back.** For any calls at non-decreasing times that write books of at
    most five levels: whenever `get_depth` finds a cached book, what it decodes is the last book
    written exactly when no earlier book that is still merged under the key (written since a read
    last removed it as expired) has more levels on a side. -/
theorem depth_round_trip_iff (cfg : CacheSettings) (dumps : TickMessage → String) (t₀ : ℚ)
    (calls : List (CacheCall × ℚ)) (hfive : ∀ a ∈ calls, writesFive a.1) (s : CacheHistory)
    (hr : run (step cfg dumps) { now := t₀ } calls = some s) (path : String) (e : Exchange)
    (now : ℚ) (q : Option QuoteDepth) (hfound : getDepth path e now s.store = some q) :
    ∃ last rest, s.books e (upper (strip path)) = last :: rest ∧
      (q = some (asQuote last) ↔
        ∀ depth ∈ rest, ∀ side, (depth.levels side).length ≤ (last.levels side).length) := by
  have hbooks : BooksInv s :=
    run_invariant (fun s a s' hI hs => step_holdsBooks hI hs) (booksInv_init t₀) hr
  have hlen : ∀ e symbol, ∀ depth ∈ s.books e symbol, fiveLevels depth :=
    run_invariant_meet (C := fun _ a => writesFive a.1)
      (fun s a s' hI ha hs => step_fiveLevels hI ha hs) (fun _ _ _ h => by cases h)
      (stepsMeet_of_forall hfive _) hr
  obtain ⟨last, rest, hb, rfl⟩ := getDepth_books hbooks hfound
  refine ⟨last, rest, hb, ?_⟩
  have hside := hlen e (upper (strip path))
  rw [hb] at hside
  have hbuy : shownSide (last :: rest) .buy = last.buy.map quoteLevel ↔ _ :=
    shownSide_eq_iff fun depth hd => hside depth hd .buy
  have hsell : shownSide (last :: rest) .sell = last.sell.map quoteLevel ↔ _ :=
    shownSide_eq_iff fun depth hd => hside depth hd .sell
  simp only [asQuote, Option.some.injEq, QuoteDepth.mk.injEq, and_true]
  rw [hbuy, hsell]
  constructor
  · intro h depth hd side
    cases side with
    | buy => exact h.1 depth hd
    | sell => exact h.2 depth hd
  · exact fun h => ⟨fun depth hd => h depth hd .buy, fun depth hd => h depth hd .sell⟩

end Histories

/-- A book with `n` buy levels and no sell level. -/
def bids (n : Nat) : MarketDepth where
  buy := (List.range n).map fun i => ⟨⟨false, 2945 - i, 0⟩, 10, 1⟩
  totalBuyQuantity := 10 * n

theorem bids_fiveLevels {n : Nat} (hn : n ≤ 5) : fiveLevels (bids n) := by
  intro side
  cases side with
  | buy => simpa [MarketDepth.levels, bids] using hn
  | sell => simp [MarketDepth.levels, bids]

/-- One bid, then two: the second book comes back. -/
theorem depth_round_trip_bids :
    ∃ s, run (step {} TickMessage.symbol) { now := 0 }
        [(.setMarketDepth "RELIANCE" .NSE (bids 1) "a", 1),
          (.setMarketDepth "RELIANCE" .NSE (bids 2) "b", 2)] = some s ∧
      getDepth " reliance" .NSE 3 s.store = some (some (asQuote (bids 2))) := by
  have hrun : (run (step {} TickMessage.symbol) { now := 0 }
      [(.setMarketDepth "RELIANCE" .NSE (bids 1) "a", 1),
        (.setMarketDepth "RELIANCE" .NSE (bids 2) "b", 2)]).map (fun s =>
          ((getDepth " reliance" .NSE 3 s.store).isSome,
            s.books .NSE (upper (strip " reliance")))) = some (true, [bids 2, bids 1]) := by
    decide
  obtain ⟨s, hs, e⟩ := Option.map_eq_some_iff.mp hrun
  simp only [Prod.mk.injEq] at e
  obtain ⟨q, hq⟩ := Option.isSome_iff_exists.mp e.1
  have hfive : ∀ a ∈ [(CacheCall.setMarketDepth "RELIANCE" .NSE (bids 1) "a", (1 : ℚ)),
      (.setMarketDepth "RELIANCE" .NSE (bids 2) "b", 2)], writesFive a.1 := by
    intro a ha
    fin_cases ha
    · exact bids_fiveLevels (by decide)
    · exact bids_fiveLevels (by decide)
  obtain ⟨last, rest, hbooks, hiff⟩ := depth_round_trip_iff {} TickMessage.symbol 0 _ hfive s hs
    " reliance" .NSE 3 q hq
  rw [e.2] at hbooks
  obtain ⟨rfl, rfl⟩ := List.cons.inj hbooks
  refine ⟨s, hs, hq.trans (congrArg some (hiff.mpr ?_))⟩
  intro depth hd side
  rw [List.mem_singleton.mp hd]
  cases side <;> decide

/-- Two bids, then one a second later: the second bid of the first book is decoded with it. -/
theorem stale_level_decoded :
    ∃ s, run (step {} TickMessage.symbol) { now := 0 }
        [(.setMarketDepth "RELIANCE" .NSE (bids 2) "a", 1),
          (.setMarketDepth "RELIANCE" .NSE (bids 1) "b", 2)] = some s ∧
      ∃ q, getDepth " reliance" .NSE 3 s.store = some (some q) ∧ q ≠ asQuote (bids 1) ∧
        q.buy.length = 2 := by
  have hrun : (run (step {} TickMessage.symbol) { now := 0 }
      [(.setMarketDepth "RELIANCE" .NSE (bids 2) "a", 1),
        (.setMarketDepth "RELIANCE" .NSE (bids 1) "b", 2)]).map
          (fun s => getDepth " reliance" .NSE 3 s.store) =
        some (some (some ⟨(bids 2).buy.map quoteLevel, [], 10, 0⟩)) := by
    decide
  obtain ⟨s, hs, e⟩ := Option.map_eq_some_iff.mp hrun
  exact ⟨s, hs, _, e, by decide, rfl⟩

end TickerCache

end BharatTicker
