/-
  File:      BharatTicker/DerivedChange.lean
  Subject:   THE CHANGE THAT A PARSER COMPUTES (`providers/bse_archive.py`, `providers/nse_archive.py`,
             `providers/bse_scraper.py`: `_parse`) AND THE PRICE OF ITS TICK.

  * `Consistent` -- the change of a tick is its price less its previous close, as `Decimal` subtracts;
  * `bseParse_consistent` -- the BSE archive computes it from the price itself;
  * `NseChangeFits`, `nseParse_consistent_iff` -- the NSE archive from the close;
  * `BseChangeFits`, `bseScraperParse_consistent_iff` -- the scraper from the price of the feed;
  * `derived_change_consistent` -- all three.
-/
import BharatTicker.BseScraper
import BharatTicker.Bhavcopy.QuoteErrors

namespace BharatTicker

open Basis

-- the concrete runs below compute with rationals
unseal Rat.add Rat.mul Rat.sub Rat.inv

/-- `change == ltp - close`. -/
def Consistent (a : TickArgs) : Prop := defaultContext.sub a.ltp a.close = .ok a.change

/-- The close is positive, so that it is the price; or there is no last price to take its place; or the
    two differ from the previous close by the same in 28 digits. -/
def NseChangeFits (row : BhavRow) : Prop :=
  (cell row "CLOSE_PRICE").isPos = .ok true ∨ cell row "LAST_PRICE" = .finite 0 ∨
    defaultContext.sub (cell row "LAST_PRICE") (cell row "PREV_CLOSE") =
      defaultContext.sub (cell row "CLOSE_PRICE") (cell row "PREV_CLOSE")

/-- The feed has a positive price, or one that differs from the previous close by nothing in 28 digits. -/
def BseChangeFits (f : BseFields) : Prop :=
  f.ltp.isPos = .ok true ∨ defaultContext.sub f.ltp f.prevClose = .ok (.finite 0)

section Change

variable {upper : String → String} {row : BhavRow} {symbol : String} {tick : ValidTick}
  {price prev change d other r : DecimalValue}

theorem tickData_args {args : TickArgs} (h : tickData upper args = .ok tick) :
    tick.args = { args with symbol := normalizeSymbol upper args.symbol } := by
  unfold tickData at h
  dsimp only at h
  split at h
  · cases h
    rfl
  · cases h

/-- With a positive previous close the change is a difference. -/
theorem changeOf_eq_ok (hprev : prev.isPos = .ok true) (h : changeOf price prev = .ok change) :
    defaultContext.sub price prev = .ok change := by
  obtain ⟨pos, hpos, h⟩ := bind_eq_ok.1 h
  rw [signal_eq_ok, hprev] at hpos
  cases hpos
  exact signal_eq_ok.1 h

theorem ifPos_cases (h : ifPos d other = .ok r) :
    d.isPos = .ok true ∧ r = d ∨ d.isPos = .ok false ∧ r = other := by
  obtain ⟨pos, hpos, h⟩ := bind_eq_ok.1 h
  rw [signal_eq_ok] at hpos
  cases pos with
  | true =>
    cases h
    exact .inl ⟨hpos, rfl⟩
  | false =>
    cases h
    exact .inr ⟨hpos, rfl⟩

/-- **The BSE archive computes the change from the price.** -/
theorem bseParse_consistent (hprev : (cell row "PrvsClsgPric").isPos = .ok true)
    (h : bseParse upper row symbol = .ok tick) : Consistent tick.args := by
  simp only [bseParse, bind_eq_ok] at h
  obtain ⟨vol, -, ltp, -, change, hchange, pct, -, openP, -, high, -, low, -, h⟩ := h
  unfold Consistent
  rw [tickData_args h]
  exact changeOf_eq_ok hprev hchange

/-- **The NSE archive computes it from the close**, which need not be the price. -/
theorem nseParse_consistent_iff (hprev : (cell row "PREV_CLOSE").isPos = .ok true)
    (h : nseParse upper row symbol = .ok tick) : Consistent tick.args ↔ NseChangeFits row := by
  simp only [nseParse, bind_eq_ok] at h
  obtain ⟨vol, -, value, -, change, hchange, pct, -, ltp, hltp, openP, -, high, -, low, -, vwap, -, h⟩ := h
  have hsub := changeOf_eq_ok hprev hchange
  unfold Consistent NseChangeFits
  rw [tickData_args h]
  show defaultContext.sub ltp (cell row "PREV_CLOSE") = .ok change ↔ _
  rcases ifPos_cases hltp with ⟨hpos, rfl⟩ | ⟨hpos, rfl⟩
  · exact iff_of_true hsub (.inl hpos)
  · by_cases hlast : cell row "LAST_PRICE" = .finite 0
    · rw [hlast, if_neg (by decide)]
      exact iff_of_true hsub (.inr (.inl rfl))
    · rw [if_pos (show (cell row "LAST_PRICE").truthy = true from decide_eq_true hlast), ← hsub, hpos]
      refine ⟨fun h => .inr (.inr h), fun h => ?_⟩
      rcases h with h | h | h
      · cases h
      · exact absurd h hlast
      · exact h

/-! ## The scraper -/

theorem scrapedTickData_args {args : ScrapedTickArgs} {tick : ScrapedTick}
    (h : scrapedTickData upper args = .ok tick) :
    tick.args = { args with symbol := normalizeSymbol upper args.symbol } := by
  unfold scrapedTickData at h
  dsimp only at h
  split at h
  · cases h
    rfl
  · cases h

theorem mapError_eq_ok {ε ε' α : Type} {f : ε → ε'} {e : Except ε α} {a : α} :
    e.mapError f = .ok a ↔ e = .ok a := by
  cases e <;> simp [Except.mapError]

/-- What a tick of the scraper has of its fields. -/
theorem bseTick_args {f : BseFields} {tick : ScrapedTick} (h : bseTick upper f symbol = .ok tick) :
    ∃ args, bseArgs f symbol = .ok args ∧ tick.args.ltp = args.ltp ∧ tick.args.close = args.close ∧
      tick.args.change = args.change := by
  obtain ⟨empty, -, h⟩ := bind_eq_ok.1 h
  split at h
  · cases h
  · simp only [bind_eq_ok, mapError_eq_ok] at h
    obtain ⟨args, hargs, isin, -, h⟩ := h
    refine ⟨args, hargs, ?_⟩
    rw [scrapedTickData_args h]
    exact ⟨rfl, rfl, rfl⟩

/-- The change is computed where that of the feed is zero. -/
theorem bseChange_eq_ok {f : BseFields} (hprev : f.prevClose.isPos = .ok true)
    (hzero : f.change = .finite 0) (h : bseChange f = .ok change) :
    defaultContext.sub f.ltp f.prevClose = .ok change := by
  obtain ⟨zero, hz, h⟩ := bind_eq_ok.1 h
  rw [signal_eq_ok, hzero] at hz
  cases hz
  exact changeOf_eq_ok hprev h

/-- A price less itself. -/
theorem sub_self_of_nonNeg (h : NonNeg prev) : defaultContext.sub prev prev = .ok (.finite 0) := by
  obtain ⟨q, rfl, -⟩ := h
  show defaultContext.finish (q - q) = _
  rw [finish_ok_iff, sub_self, DecimalContext.round_zero, abs_zero]
  exact ⟨overflowFrom_pos, rfl⟩

/-- **The scraper computes it from the price of the feed**, in whose place the previous close may stand. -/
theorem bseScraperParse_consistent_iff {data : PyJson} {f : BseFields} {tick : ScrapedTick}
    (hf : bseFields data = .ok f) (hprev : f.prevClose.isPos = .ok true) (hzero : f.change = .finite 0)
    (h : bseScraperParse upper data symbol = .ok tick) :
    Consistent tick.args.toTickArgs ↔ BseChangeFits f := by
  unfold bseScraperParse at h
  rw [mapError_eq_ok, hf] at h
  have h : bseTick upper f symbol = .ok tick := h
  obtain ⟨args, hargs, e₁, e₂, e₃⟩ := bseTick_args h
  simp only [bseArgs, bind_eq_ok] at hargs
  obtain ⟨change, hchange, pct, -, ltp, hltp, openP, -, high, -, low, -, wkHigh, -, wkLow, -, hargs⟩ :=
    hargs
  cases hargs
  have hsub := bseChange_eq_ok hprev hzero hchange
  unfold Consistent BseChangeFits
  rw [e₁, e₂, e₃]
  show defaultContext.sub ltp f.prevClose = .ok change ↔ _
  rcases ifPos_cases hltp with ⟨hpos, rfl⟩ | ⟨hpos, rfl⟩
  · exact iff_of_true hsub (.inl hpos)
  · -- the previous close is the price, and a tick has a finite one
    have hclose : NonNeg f.prevClose := by
      have hvalid := tick.valid
      unfold ScrapedTickArgs.allErrors at hvalid
      rw [List.append_eq_nil_iff, List.append_eq_nil_iff, errors_eq_nil_iff] at hvalid
      have := hvalid.1.1.close
      rw [e₂] at this
      exact this
    rw [sub_self_of_nonNeg hclose, hsub, hpos]
    refine ⟨fun h => .inr h.symm, fun h => ?_⟩
    rcases h with h | h
    · cases h
    · exact h.symm

/-! ## All three -/

/-- **The change of a tick is its price less its previous close**: always in the BSE archive; in the NSE
    archive and the scraper exactly where what the change is computed from is the price. -/
theorem derived_change_consistent (upper : String → String) :
    (∀ row symbol tick, (cell row "PrvsClsgPric").isPos = .ok true →
      bseParse upper row symbol = .ok tick → Consistent tick.args) ∧
    (∀ row symbol tick, (cell row "PREV_CLOSE").isPos = .ok true →
      nseParse upper row symbol = .ok tick → (Consistent tick.args ↔ NseChangeFits row)) ∧
    ∀ data symbol f tick, bseFields data = .ok f → f.prevClose.isPos = .ok true →
      f.change = .finite 0 → bseScraperParse upper data symbol = .ok tick →
      (Consistent tick.args.toTickArgs ↔ BseChangeFits f) :=
  ⟨fun _ _ _ => bseParse_consistent, fun _ _ _ => nseParse_consistent_iff,
    fun _ _ _ _ => bseScraperParse_consistent_iff⟩

end Change

/-- A row of the NSE with a close and a last price. -/
def changeRow (close last : String) : BhavRow :=
  [("SYMBOL", "TCS"), ("SERIES", "EQ"), ("CLOSE_PRICE", close), ("LAST_PRICE", last),
    ("PREV_CLOSE", "100")]

/-- A payload of the BSE with a previous close, and the price if there is one. -/
def changePayload (price : List (String × PyJson)) : PyJson :=
  .obj [("Header", .obj [("PrevClose", .str "100"), ("CurrRate", .obj price)])]

/-- The price, the previous close and the change of a tick. -/
def tickPrices (a : TickArgs) : DecimalValue × DecimalValue × DecimalValue := (a.ltp, a.close, a.change)

theorem exists_of_toOption {ε α β : Type} {r : Except ε α} {g : α → β} {b : β}
    (h : r.toOption.map g = some b) : ∃ a, r = .ok a ∧ g a = b := by
  obtain ⟨a, ha, hg⟩ := Option.map_eq_some_iff.mp h
  cases r with
  | error e => cases ha
  | ok a' =>
    cases ha
    exact ⟨a, rfl, hg⟩

/-- Rows and a payload with a price of their own. -/
theorem consistent_of_price :
    (∃ tick, bseParse upper [("ClsPric", "98"), ("PrvsClsgPric", "100")] "TCS" = .ok tick ∧
      Consistent tick.args) ∧
    (∃ tick, nseParse upper (changeRow "98" "99") "TCS" = .ok tick ∧ Consistent tick.args) ∧
    ∃ tick, bseScraperParse upper (changePayload [("LTP", .str "99.5")]) "TCS" = .ok tick ∧
      Consistent tick.args.toTickArgs := by
  obtain ⟨hbse, hnse, hscraper⟩ := derived_change_consistent upper
  refine ⟨?_, ?_, ?_⟩
  · obtain ⟨tick, htick, -⟩ := exists_of_toOption (g := fun t : ValidTick => tickPrices t.args)
      (r := bseParse upper [("ClsPric", "98"), ("PrvsClsgPric", "100")] "TCS")
      (b := (.finite 98, .finite 100, .finite (-2))) (by decide)
    exact ⟨tick, htick, hbse _ _ tick (by decide) htick⟩
  · obtain ⟨tick, htick, -⟩ := exists_of_toOption (g := fun t : ValidTick => tickPrices t.args)
      (r := nseParse upper (changeRow "98" "99") "TCS")
      (b := (.finite 98, .finite 100, .finite (-2))) (by decide)
    exact ⟨tick, htick, (hnse _ _ tick (by decide) htick).mpr (.inl (by decide))⟩
  · obtain ⟨tick, htick, -⟩ := exists_of_toOption (g := fun t : ScrapedTick => tickPrices t.args.toTickArgs)
      (r := bseScraperParse upper (changePayload [("LTP", .str "99.5")]) "TCS")
      (b := (.finite (199 / 2), .finite 100, .finite (-1 / 2))) (by decide)
    exact ⟨tick, htick, (hscraper _ _ _ tick rfl (by decide) (by decide) htick).mpr
      (.inl (by decide))⟩

/-- Without the close, or the price of the feed, the change is the whole previous close. -/
theorem inconsistent_without_price :
    (∃ tick, nseParse upper (changeRow "0" "99") "TCS" = .ok tick ∧
      tickPrices tick.args = (.finite 99, .finite 100, .finite (-100)) ∧ ¬ Consistent tick.args) ∧
    ∃ tick, bseScraperParse upper (changePayload []) "TCS" = .ok tick ∧
      tickPrices tick.args.toTickArgs = (.finite 100, .finite 100, .finite (-100)) ∧
      ¬ Consistent tick.args.toTickArgs := by
  have hnot : ∀ a : TickArgs, tickPrices a = (.finite 99, .finite 100, .finite (-100)) ∨
      tickPrices a = (.finite 100, .finite 100, .finite (-100)) → ¬ Consistent a := by
    intro a ha
    show ¬ defaultContext.sub (tickPrices a).1 (tickPrices a).2.1 = .ok (tickPrices a).2.2
    rcases ha with h | h
    · rw [h]
      decide
    · rw [h]
      decide
  refine ⟨?_, ?_⟩
  · obtain ⟨tick, htick, hprices⟩ := exists_of_toOption (g := fun t : ValidTick => tickPrices t.args)
      (r := nseParse upper (changeRow "0" "99") "TCS")
      (b := (.finite 99, .finite 100, .finite (-100))) (by decide)
    exact ⟨tick, htick, hprices, hnot _ (.inl hprices)⟩
  · obtain ⟨tick, htick, hprices⟩ := exists_of_toOption (g := fun t : ScrapedTick => tickPrices t.args.toTickArgs)
      (r := bseScraperParse upper (changePayload []) "TCS")
      (b := (.finite 100, .finite 100, .finite (-100))) (by decide)
    exact ⟨tick, htick, hprices, hnot _ (.inr hprices)⟩

end BharatTicker
