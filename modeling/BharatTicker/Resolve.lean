/-
  File:      BharatTicker/Resolve.lean
  Subject:   THE SYMBOL RESOLVER: `sb_resolve` (`api/endpoints/superbrain.py`) over
             `get_all_snapshot` (`engine/market_data.py`).

  `str.upper` is a parameter. A row of a snapshot has what the resolver reads of it.

  * `Instrument`, `getAllSnapshot` -- the universe;
  * `resolveLoop`, `sbResolve` -- exact matches in front, the others behind, at most twenty;
  * `resolveLoop_eq`, `resolve_head` -- what the loop collects, and what comes first;
  * `resolver_finds_exact_iff` -- where the first match has the symbol of the query.
-/
import BharatTicker.Basis.Unicode
import BharatTicker.Bhavcopy.Quote
import BharatTicker.Quotes

namespace BharatTicker

open Basis

/-! ## 1. The universe -/

/-- `str.strip`. -/
def stripText (s : String) : String := String.ofList (stripSpaces s.toList)

/-- A row of a snapshot. The loaders strip their cells. -/
structure Instrument where
  symbol : String
  name : Option String := none
  exchange : Option String := none
  isin : Option String := none
  series : Option String := none
  trimmed : stripText symbol = symbol := by decide
  deriving DecidableEq

/-- A provider: `snapshot()`, once it is connected, if it has the method. -/
structure SnapshotProvider where
  name : String
  snapshot : Option (List Instrument) := none
  /-- It is connected, or `connect` does not raise. -/
  connects : Bool := true

section Resolve

variable (upper : String → String)

/-- `wants`. -/
def snapshotNames (exchange : String) : List String :=
  let ex := upper exchange
  if ex = "ALL" then ["nse_archive", "bse_archive"]
  else if ex = "NSE" then ["nse_archive"]
  else ["bse_archive"]

/-- `get_all_snapshot`; `none`: `connect` raises. -/
def getAllSnapshot (providers : List SnapshotProvider) (exchange : String) :
    Option (List Instrument) :=
  let sources := (snapshotNames upper exchange).flatMap fun want =>
    providers.filterMap fun p =>
      if p.name = want then p.snapshot.map fun rows => (p.connects, rows) else none
  if sources.all (·.1) then some (sources.flatMap (·.2)) else none

/-! ## 2. The resolver -/

structure ResolveMatch where
  symbol : String
  name : String
  exchange : String
  isin : Option String
  series : Option String
  deriving DecidableEq, Repr

structure ResolveResponse where
  query : String
  count : ℕ
  found : List ResolveMatch
  deriving DecidableEq, Repr

/-- `q.strip().upper()`. -/
def queryKey (q : String) : String := upper (stripText q)

/-- `ql == sym`. -/
def Instrument.exact (ql : String) (r : Instrument) : Bool := ql = upper r.symbol

/-- `ql in sym`. -/
def Instrument.contains (ql : String) (r : Instrument) : Bool :=
  ql.toList <:+: (upper r.symbol).toList

/-- The loop, from the matches so far. -/
def resolveLoop (ql : String) : List Instrument → List Instrument → List Instrument
  | found, [] => found
  | found, r :: rows =>
    let found :=
      if r.exact upper ql then r :: found
      else if r.contains upper ql then found ++ [r]
      else found
    if 20 ≤ found.length then found else resolveLoop ql found rows

/-- An entry of `matches`. `isinFor` is `bse_master.isin_for`. -/
def Instrument.toMatch (isinFor : String → Option String) (exchange : String) (r : Instrument) :
    ResolveMatch where
  symbol := r.symbol
  name := (orNoText r.name).getD r.symbol
  exchange := r.exchange.getD (upper exchange)
  isin := (orNoText r.isin).or (isinFor r.symbol)
  series := r.series

/-- `sb_resolve`. -/
def sbResolve (isinFor : String → Option String) (providers : List SnapshotProvider)
    (q exchange : String) : Except HttpException ResolveResponse :=
  match getAllSnapshot upper providers (upper (stripText exchange)) with
  | none => .error internalServerError
  | some rows =>
    let found := resolveLoop upper (queryKey upper q) [] rows
    if found = [] then .error ⟨404, "No instrument matching '" ++ q ++ "'"⟩
    else .ok ⟨q, found.length, (found.take 20).map (Instrument.toMatch upper isinFor exchange)⟩

/-! ## 3. What comes first -/

/-- The rows that the loop takes in before it stops. -/
def resolveHits (ql : String) (n : ℕ) (rows : List Instrument) : List Instrument :=
  (rows.filter (Instrument.contains upper ql)).take n

variable {upper}

variable {ql : String} {r : Instrument} {rows found : List Instrument}

theorem contains_of_exact (h : r.exact upper ql = true) : r.contains upper ql = true := by
  have e : ql = upper r.symbol := of_decide_eq_true h
  rw [Instrument.contains, e]
  exact decide_eq_true List.infix_rfl

theorem resolveHits_cons_of_contains {n : ℕ} (h : r.contains upper ql = true) :
    resolveHits upper ql (n + 1) (r :: rows) = r :: resolveHits upper ql n rows := by
  rw [resolveHits, List.filter_cons_of_pos h, List.take_succ_cons]
  rfl

theorem resolveHits_cons_of_not {n : ℕ} (h : r.contains upper ql = false) :
    resolveHits upper ql n (r :: rows) = resolveHits upper ql n rows := by
  rw [resolveHits, List.filter_cons_of_neg (by rw [h]; exact Bool.false_ne_true)]
  rfl

/-- **The loop**: the exact ones of the rows it takes in stand in front, the newest first, and the
    others behind. -/
theorem resolveLoop_eq {n : ℕ} (hn : found.length + n = 20) (h0 : 0 < n) :
    resolveLoop upper ql found rows =
      ((resolveHits upper ql n rows).filter (Instrument.exact upper ql)).reverse ++ found ++
        (resolveHits upper ql n rows).filter fun r => !r.exact upper ql := by
  induction rows generalizing found n with
  | nil => simp [resolveLoop, resolveHits]
  | cons r rows ih =>
    obtain ⟨m, rfl⟩ : ∃ m, n = m + 1 := ⟨n - 1, by omega⟩
    -- the turn has one match more, and stops where that is the last
    have hnext : ∀ found' : List Instrument, found'.length = found.length + 1 →
        (if 20 ≤ found'.length then found' else resolveLoop upper ql found' rows) =
          ((resolveHits upper ql m rows).filter (Instrument.exact upper ql)).reverse ++ found' ++
            (resolveHits upper ql m rows).filter fun r => !r.exact upper ql := by
      intro found' hlen
      cases m with
      | zero =>
        rw [if_pos (by omega)]
        simp [resolveHits]
      | succ m => rw [if_neg (by omega), ih (by omega) (Nat.succ_pos m)]
    rw [resolveLoop]
    cases he : r.exact upper ql with
    | true =>
      have hc := contains_of_exact he
      simp only [if_true]
      rw [hnext _ rfl, resolveHits_cons_of_contains hc, List.filter_cons_of_pos he,
        List.filter_cons_of_neg (by rw [he]; decide)]
      simp
    | false =>
      cases hc : r.contains upper ql with
      | true =>
        simp only [Bool.false_eq_true, if_false, if_true]
        rw [hnext _ (by simp), resolveHits_cons_of_contains hc,
          List.filter_cons_of_neg (by rw [he]; decide), List.filter_cons_of_pos (by rw [he]; rfl)]
        simp
      | false =>
        simp only [Bool.false_eq_true, if_false]
        rw [if_neg (by omega), ih hn h0, resolveHits_cons_of_not hc]

/-- What comes first: an exact row where one is taken in, else the first row that is. -/
theorem resolve_head (rows : List Instrument) :
    (∃ r, (resolveLoop upper ql [] rows).head? = some r ∧ r.exact upper ql = true) ↔
      ∃ r ∈ resolveHits upper ql 20 rows, r.exact upper ql = true := by
  rw [resolveLoop_eq (n := 20) rfl (by decide), List.append_nil]
  set hits := resolveHits upper ql 20 rows
  cases hex : (hits.filter (Instrument.exact upper ql)).reverse with
  | nil =>
    have hnone : ∀ r ∈ hits, ¬ r.exact upper ql = true :=
      List.filter_eq_nil_iff.mp (List.reverse_eq_nil_iff.mp hex)
    refine ⟨fun h => ?_, fun h => ?_⟩
    · obtain ⟨r, hr, he⟩ := h
      exact absurd he (hnone r (List.mem_of_mem_filter (List.mem_of_mem_head? hr)))
    · obtain ⟨r, hr, he⟩ := h
      exact absurd he (hnone r hr)
  | cons r rest =>
    have hmem : r ∈ hits.filter (Instrument.exact upper ql) := by
      rw [← List.mem_reverse, hex]
      exact List.mem_cons_self
    obtain ⟨hr, he⟩ := List.mem_filter.mp hmem
    exact iff_of_true ⟨r, rfl, he⟩ ⟨r, hr, he⟩

/-! ## 4. Exact symbols -/

/-- The symbol is the query's, without regard to case and surrounding blanks. -/
def HasSymbol (upper : String → String) (q symbol : String) : Prop :=
  upper (stripText symbol) = queryKey upper q

instance (upper : String → String) (q symbol : String) : Decidable (HasSymbol upper q symbol) :=
  inferInstanceAs (Decidable (upper (stripText symbol) = queryKey upper q))

theorem exact_iff {q : String} : r.exact upper (queryKey upper q) = true ↔ HasSymbol upper q r.symbol := by
  unfold Instrument.exact HasSymbol
  rw [decide_eq_true_iff, r.trimmed]
  exact eq_comm

/-- The first match of the answer has the symbol. -/
def FindsExact (upper : String → String) (q : String) (answer : Except HttpException ResolveResponse) :
    Prop :=
  ∃ resp m, answer = .ok resp ∧ resp.found.head? = some m ∧ HasSymbol upper q m.symbol

theorem findsExact_iff {providers : List SnapshotProvider} {isinFor : String → Option String}
    {q exchange : String}
    (h : getAllSnapshot upper providers (upper (stripText exchange)) = some rows) :
    FindsExact upper q (sbResolve upper isinFor providers q exchange) ↔
      ∃ r ∈ resolveHits upper (queryKey upper q) 20 rows, HasSymbol upper q r.symbol := by
  have hhead : (∃ r, (resolveLoop upper (queryKey upper q) [] rows).head? = some r ∧
      r.exact upper (queryKey upper q) = true) ↔ _ := resolve_head rows
  simp only [exact_iff] at hhead
  rw [← hhead]
  unfold FindsExact sbResolve
  rw [h]
  dsimp only
  cases hfound : resolveLoop upper (queryKey upper q) [] rows with
  | nil =>
    rw [if_pos rfl]
    refine iff_of_false (fun hex => ?_) fun hex => ?_
    · obtain ⟨resp, m, he, -⟩ := hex
      cases he
    · obtain ⟨r, hr, -⟩ := hex
      cases hr
  | cons r found =>
    rw [if_neg (List.cons_ne_nil r found)]
    refine ⟨fun hex => ?_, fun hex => ?_⟩
    · obtain ⟨resp, m, he, hm, hsym⟩ := hex
      cases he
      cases hm
      exact ⟨r, rfl, hsym⟩
    · obtain ⟨r', hr', hsym⟩ := hex
      cases hr'
      exact ⟨_, _, rfl, rfl, hsym⟩

/-- **The resolver finds a symbol of the universe exactly where it is one of the first twenty rows whose
    symbols contain the query.** -/
theorem resolver_finds_exact_iff {providers : List SnapshotProvider} {exchange : String}
    (h : getAllSnapshot upper providers (upper (stripText exchange)) = some rows)
    (isinFor : String → Option String) (q : String) :
    ((∃ r ∈ rows, HasSymbol upper q r.symbol) →
      FindsExact upper q (sbResolve upper isinFor providers q exchange)) ↔
    (∀ r ∈ rows, ¬ HasSymbol upper q r.symbol) ∨
      ∃ r ∈ (rows.filter (Instrument.contains upper (queryKey upper q))).take 20,
        HasSymbol upper q r.symbol := by
  rw [findsExact_iff h, imp_iff_not_or]
  refine or_congr ?_ Iff.rfl
  push Not
  rfl

end Resolve

/-- Symbols that contain `TI`. -/
def tiSymbol (c : Char) : Instrument where
  symbol := String.ofList ['A', c, 'T', 'I']
  trimmed := by
    have hA : isSpace 'A' = false := by decide
    have hI : isSpace 'I' = false := by decide
    simp [stripText, stripSpaces, hA, hI]

/-- Twenty of them, in their order, and the symbol itself. -/
def crowdedUniverse : List Instrument :=
  "ABCDEFGHIJKLMNOPQRST".toList.map tiSymbol ++ [{ symbol := "TI" }]

def crowdedProviders : List SnapshotProvider :=
  [{ name := "nse_archive", snapshot := some crowdedUniverse }]

/-- Among fewer rows it is found. -/
theorem resolver_finds_ti :
    FindsExact upper " ti" (sbResolve upper (fun _ => none)
      [{ name := "nse_archive", snapshot := some (crowdedUniverse.drop 1) }] " ti" "NSE") := by
  have h : getAllSnapshot upper [{ name := "nse_archive", snapshot := some (crowdedUniverse.drop 1) }]
      (upper (stripText "NSE")) = some (crowdedUniverse.drop 1) := rfl
  exact (resolver_finds_exact_iff h (fun _ => none) " ti").mpr
    (.inr ⟨{ symbol := "TI" }, by decide +kernel, by decide +kernel⟩)
    ⟨{ symbol := "TI" }, by decide +kernel, by decide +kernel⟩

/-- The query `ti` is answered with twenty other symbols. -/
theorem resolver_misses_ti :
    (∃ r ∈ crowdedUniverse, HasSymbol upper "ti" r.symbol) ∧
      ¬ FindsExact upper "ti" (sbResolve upper (fun _ => none) crowdedProviders "ti" "NSE") := by
  have hrows : getAllSnapshot upper crowdedProviders (upper (stripText "NSE")) = some crowdedUniverse :=
    rfl
  refine ⟨⟨{ symbol := "TI" }, by decide +kernel, by decide +kernel⟩, fun h => ?_⟩
  obtain ⟨r, hr, hsym⟩ := (findsExact_iff hrows).mp h
  revert hsym
  revert r
  decide +kernel

end BharatTicker
