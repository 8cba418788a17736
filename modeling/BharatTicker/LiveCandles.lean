/-
  File:      BharatTicker/LiveCandles.lean
  Subject:   THE LIVE CANDLE ENGINE (`engine/live_candles.py`): `record` and `build`.

  The dictionaries of the engine are functions of the key `EXCHANGE:SYMBOL`; a ring is a list with
  the newest sample last. Prices, volumes and times are exact rationals, a time is in epoch
  seconds. A candle's timestamp is the instant that its ISO string denotes: all of them carry the
  one IST offset, so that the order of the strings is the order of the instants.

  * `record`, `record_cases`, `record_eq` -- one sample, with the single-source rule;
  * `buildStep`, `candles`, `build` -- the loop over the ring;
  * `tickBars`, `candles_eq` -- on an ordered ring the loop computes an aggregate of one-sample
    bars.
-/
import BharatTicker.Basis.Aggregate
import BharatTicker.Basis.Bar
import BharatTicker.Basis.Counter
import BharatTicker.Basis.Rounding

namespace BharatTicker

open Basis

/-! ## 1. Samples and rings -/

/-- `SAMPLE_MAXLEN` and `PRIMARY_SOURCE_TTL_S`. -/
structure LiveSettings where
  sampleMaxlen : Nat := 46000
  primarySourceTtl : ℚ := 5

/-- `(epoch_seconds, price, cumulative_volume, source)`. -/
structure Sample where
  ts : ℚ
  price : ℚ
  cum : ℚ
  source : Option String
  deriving DecidableEq, Repr

structure LiveCandleEngine where
  samples : String → List Sample := fun _ => []
  primarySrc : String → Option String := fun _ => none
  primaryTs : String → ℚ := fun _ => 0

/-- `str.upper` on ASCII names. -/
def upper (s : String) : String := String.ofList (s.toList.map Char.toUpper)

/-- `_key`. -/
def engineKey (symbol exchange : String) : String := upper exchange ++ ":" ++ upper symbol

/-- The arguments of `record`, with the time it is called at. `price` and `cumVolume` are what
    `float` makes of them; `none` where it raises. -/
structure RecordCall where
  symbol : String
  exchange : String
  price : Option ℚ
  cumVolume : Option ℚ
  ts : Option ℚ := none
  source : Option String := none
  now : ℚ := 0
  deriving DecidableEq, Repr

def RecordCall.key (c : RecordCall) : String := engineKey c.symbol c.exchange

/-- `ts if ts is not None else time.time()`. -/
def RecordCall.stamp (c : RecordCall) : ℚ := c.ts.getD c.now

/-- `deque(maxlen=n).append`. -/
def ringAppend (n : Nat) (ring : List Sample) (x : Sample) : List Sample := (ring ++ [x]).rtake n

namespace LiveCandleEngine

/-- `_primary_src[key] = source; _primary_ts[key] = now_ts`, for a tagged sample. -/
def own (eng : LiveCandleEngine) (key : String) (source : Option String) (ts : ℚ) :
    LiveCandleEngine :=
  match source with
  | none => eng
  | some _ =>
    { eng with
      primarySrc := Function.update eng.primarySrc key source
      primaryTs := Function.update eng.primaryTs key ts }

def append (cfg : LiveSettings) (eng : LiveCandleEngine) (key : String) (x : Sample) :
    LiveCandleEngine :=
  { eng with
    samples := Function.update eng.samples key (ringAppend cfg.sampleMaxlen (eng.samples key) x) }

/-- A tagged sample whose key another source owns, that source being fresh. -/
def heldByOther (cfg : LiveSettings) (eng : LiveCandleEngine) (key : String)
    (source : Option String) (ts : ℚ) : Bool :=
  match source, eng.primarySrc key with
  | some source, some owner =>
    owner ≠ source && decide (ts - eng.primaryTs key ≤ cfg.primarySourceTtl)
  | _, _ => false

/-- `record`. -/
def record (cfg : LiveSettings) (c : RecordCall) (eng : LiveCandleEngine) : LiveCandleEngine :=
  match c.price with
  | none => eng
  | some p =>
    if p ≤ 0 then eng
    else if eng.heldByOther cfg c.key c.source c.stamp then eng
    else (eng.own c.key c.source c.stamp).append cfg c.key
      ⟨c.stamp, p, c.cumVolume.getD 0, c.source⟩

end LiveCandleEngine

/-! ### What one call does -/

namespace LiveCandleEngine

variable {cfg : LiveSettings} {c : RecordCall} {eng : LiveCandleEngine}

theorem own_samples (key : String) (source : Option String) (ts : ℚ) :
    (eng.own key source ts).samples = eng.samples := by
  cases source <;> rfl

/-- A call is ignored or appends one sample with a positive price, taking the key. -/
theorem record_cases (cfg : LiveSettings) (c : RecordCall) (eng : LiveCandleEngine) :
    record cfg c eng = eng ∨
    ∃ x : Sample, x.ts = c.stamp ∧ x.source = c.source ∧ c.price = some x.price ∧ 0 < x.price ∧
      eng.heldByOther cfg c.key c.source c.stamp = false ∧
      record cfg c eng = (eng.own c.key c.source c.stamp).append cfg c.key x := by
  unfold record
  cases hp : c.price with
  | none => exact .inl rfl
  | some p =>
    by_cases h0 : p ≤ 0
    · exact .inl (if_pos h0)
    · cases hh : eng.heldByOther cfg c.key c.source c.stamp with
      | true => exact .inl (by simp [h0])
      | false =>
        exact .inr ⟨⟨c.stamp, p, c.cumVolume.getD 0, c.source⟩, rfl, rfl, rfl, not_le.mp h0, rfl,
          by simp [h0]⟩

/-- The sample a call appends; `none`: it is ignored. -/
def taken (cfg : LiveSettings) (c : RecordCall) (eng : LiveCandleEngine) : Option Sample :=
  match c.price with
  | none => none
  | some p =>
    if p ≤ 0 then none
    else if eng.heldByOther cfg c.key c.source c.stamp then none
    else some ⟨c.stamp, p, c.cumVolume.getD 0, c.source⟩

theorem record_eq (cfg : LiveSettings) (c : RecordCall) (eng : LiveCandleEngine) :
    record cfg c eng =
      match eng.taken cfg c with
      | none => eng
      | some x => (eng.own c.key c.source c.stamp).append cfg c.key x := by
  unfold record taken
  cases c.price with
  | none => rfl
  | some p =>
    dsimp only
    split
    · rfl
    · split <;> rfl

theorem record_ignored (h : eng.taken cfg c = none) : record cfg c eng = eng := by
  rw [record_eq, h]

theorem record_taken {x : Sample} (h : eng.taken cfg c = some x) :
    (record cfg c eng).samples c.key = ringAppend cfg.sampleMaxlen (eng.samples c.key) x := by
  rw [record_eq, h]
  simp [append, own_samples]

/-- Other keys are not touched. -/
theorem record_other (cfg : LiveSettings) (eng : LiveCandleEngine) {key : String}
    (h : key ≠ c.key) :
    (record cfg c eng).samples key = eng.samples key ∧
      (record cfg c eng).primarySrc key = eng.primarySrc key ∧
      (record cfg c eng).primaryTs key = eng.primaryTs key := by
  rcases record_cases cfg c eng with e | ⟨x, -, -, -, -, -, e⟩
  · rw [e]
    exact ⟨rfl, rfl, rfl⟩
  · rw [e]
    cases c.source <;> simp [append, own, h]

end LiveCandleEngine

/-! ## 2. The loop of `build` -/

/-- The cell of a bucket: `o`, `h`, `l`, `c`, `v`. -/
abbrev Cell := Bar ℚ ℚ

/-- The variables of the loop: `buckets` in the order of `order`, `prev_cum`, `prev_src`. -/
structure BuildState where
  buckets : List (ℤ × Cell) := []
  prevCum : Option ℚ := none
  prevSrc : Option String := none

/-- The volume a sample adds: the delta to the previous one, if of the same source and not back. -/
def volumeDelta (prevCum : Option ℚ) (prevSrc : Option String) (x : Sample) : ℚ :=
  match prevCum with
  | some c => if x.source = prevSrc ∧ c ≤ x.cum then x.cum - c else 0
  | none => 0

/-- One turn of the loop. -/
def buildStep (seconds : ℚ) (st : BuildState) (x : Sample) : BuildState :=
  let idx := ⌊x.ts / seconds⌋
  let cell : Cell := (entryAt st.buckets idx).getD ⟨x.price, x.price, x.price, x.price, 0⟩
  let cell : Cell :=
    { cell with
      high := max cell.high x.price
      low := min cell.low x.price
      close := x.price
      volume := cell.volume + volumeDelta st.prevCum st.prevSrc x }
  ⟨assign st.buckets idx cell, some x.cum, x.source⟩

/-- One bar of the output. -/
structure Candle extends Bar ℚ ℤ where
  timestamp : ℚ
  oi : ℤ := 0
  deriving DecidableEq, Repr

/-- The instant of `fromtimestamp(t).isoformat(timespec=...)`: microseconds, cut to milliseconds or
    seconds. -/
def isoInstant (subSecond : Bool) (t : ℚ) : ℚ :=
  let us := roundHalfEven (t * 10 ^ 6)
  if subSecond then ⌊(us : ℚ) / 10 ^ 3⌋ / 10 ^ 3 else ⌊(us : ℚ) / 10 ^ 6⌋

/-- `int(x)` of a float. -/
def truncInt (x : ℚ) : ℤ := if 0 ≤ x then ⌊x⌋ else ⌈x⌉

/-- Whole seconds are printed as they are. -/
theorem isoInstant_int (n : ℤ) : isoInstant false n = n := by
  have h : ((n : ℚ) * 10 ^ 6) = ((n * 10 ^ 6 : ℤ) : ℚ) := by push_cast; rfl
  unfold isoInstant
  rw [h, roundHalfEven_intCast]
  have e : ((n * 10 ^ 6 : ℤ) : ℚ) / 10 ^ 6 = n := by
    rw [← h]
    exact mul_div_cancel_right₀ _ (by norm_num)
  show ((⌊((n * 10 ^ 6 : ℤ) : ℚ) / 10 ^ 6⌋ : ℤ) : ℚ) = n
  rw [e, Int.floor_intCast]

/-- Whole milliseconds are printed as they are. -/
theorem isoInstant_milli (n : ℤ) : isoInstant true (n / 10 ^ 3) = n / 10 ^ 3 := by
  have h : ((n : ℚ) / 10 ^ 3 * 10 ^ 6) = ((n * 10 ^ 3 : ℤ) : ℚ) := by
    push_cast
    ring
  have e : ((n * 10 ^ 3 : ℤ) : ℚ) / 10 ^ 3 = n := by
    push_cast
    exact mul_div_cancel_right₀ _ (by norm_num)
  unfold isoInstant
  simp only [if_true]
  rw [h, roundHalfEven_intCast, e, Int.floor_intCast]

def candleOf (seconds : ℚ) (b : ℤ × Cell) : Candle where
  toBar := b.2.map (roundTo 2) truncInt
  timestamp := isoInstant (decide (seconds < 1)) (b.1 * seconds)

/-- `build` without its limit. -/
def candles (samples : List Sample) (seconds : ℚ) : List Candle :=
  if samples = [] ∨ seconds ≤ 0 then []
  else (samples.foldl (buildStep seconds) {}).buckets.map (candleOf seconds)

/-- The slice `l[-limit:]`. -/
def lastSlice {α : Type*} (limit : ℤ) (l : List α) : List α :=
  if 0 < limit then (l.reverse.take limit.toNat).reverse else l.drop (-limit).toNat

namespace LiveCandleEngine

/-- `build`. -/
def build (eng : LiveCandleEngine) (symbol exchange : String) (seconds : ℚ) (limit : ℤ := 300) :
    List Candle :=
  lastSlice limit (candles (eng.samples (engineKey symbol exchange)) seconds)

end LiveCandleEngine

/-! ## 3. The loop as an aggregate -/

/-- The bar of one sample. -/
def sampleBar (volume : ℚ) (x : Sample) : Cell := ⟨x.price, x.price, x.price, x.price, volume⟩

/-- The bar of each sample, under its time; `prev` is the sample before the first. -/
def tickBars : Option Sample → List Sample → List (ℚ × Cell)
  | _, [] => []
  | prev, x :: xs =>
    (x.ts, sampleBar (volumeDelta (prev.map (·.cum)) (prev.bind (·.source)) x) x) ::
      tickBars (some x) xs

/-- The buckets of a ring. -/
def bars (seconds : ℚ) (samples : List Sample) : List (ℤ × Cell) :=
  aggregate ((tickBars none samples).map (Prod.map (fun t => ⌊t / seconds⌋) id))

/-- The bar that a new sample adds to a ring. -/
def nextBar (samples : List Sample) (x : Sample) : Cell :=
  sampleBar (volumeDelta (samples.getLast?.map (·.cum)) (samples.getLast?.bind (·.source)) x) x

section Build

variable {seconds : ℚ} {samples : List Sample}

theorem tickBars_fst (prev : Option Sample) (samples : List Sample) :
    (tickBars prev samples).map Prod.fst = samples.map (·.ts) := by
  induction samples generalizing prev with
  | nil => rfl
  | cons x xs ih => rw [tickBars, List.map_cons, ih, List.map_cons]

theorem tickBars_concat (prev : Option Sample) (samples : List Sample) (x : Sample) :
    tickBars prev (samples ++ [x]) = tickBars prev samples ++
      [(x.ts, sampleBar (volumeDelta ((samples.getLast?.or prev).map (·.cum))
        ((samples.getLast?.or prev).bind (·.source)) x) x)] := by
  induction samples generalizing prev with
  | nil => rfl
  | cons y ys ih =>
    rw [List.cons_append, tickBars, ih, tickBars, List.cons_append, getLast?_cons_or]

theorem bars_concat (seconds : ℚ) (samples : List Sample) (x : Sample) :
    bars seconds (samples ++ [x]) =
      push (bars seconds samples) (⌊x.ts / seconds⌋, nextBar samples x) := by
  unfold bars
  rw [tickBars_concat, List.map_append, List.map_singleton, aggregate_concat, Option.or_none]
  rfl

theorem bars_keys {k : ℤ} :
    k ∈ (bars seconds samples).map Prod.fst ↔ ∃ x ∈ samples, ⌊x.ts / seconds⌋ = k := by
  have e : ((tickBars none samples).map (Prod.map (fun t => ⌊t / seconds⌋) id)).map Prod.fst =
      samples.map fun x => ⌊x.ts / seconds⌋ := by
    rw [List.map_map, show (Prod.fst ∘ Prod.map (fun t : ℚ => ⌊t / seconds⌋) id :
      ℚ × Cell → ℤ) = (fun t => ⌊t / seconds⌋) ∘ Prod.fst from rfl, ← List.map_map, tickBars_fst,
      List.map_map]
    rfl
  unfold bars
  rw [mem_keys_aggregate, e, List.mem_map]

/-- The samples stand in the order of their times. -/
def TimeOrdered (samples : List Sample) : Prop := samples.Pairwise fun x y => x.ts ≤ y.ts

theorem bucketKeys_ordered (hs : 0 < seconds) (ho : TimeOrdered samples) :
    (((tickBars none samples).map (Prod.map (fun t => ⌊t / seconds⌋) id)).map
      Prod.fst).Pairwise (· ≤ ·) := by
  have h : ((tickBars none samples).map Prod.fst).Pairwise (· ≤ ·) := by
    rw [tickBars_fst]
    exact List.pairwise_map.mpr ho
  rw [List.map_map]
  refine List.pairwise_map.mpr ((List.pairwise_map.mp h).imp ?_)
  intro x y hxy
  exact Int.floor_le_floor (div_le_div_of_nonneg_right hxy hs.le)

theorem bars_sorted (hs : 0 < seconds) (ho : TimeOrdered samples) :
    ((bars seconds samples).map Prod.fst).Pairwise (· < ·) :=
  aggregate_sorted (bucketKeys_ordered hs ho)

/-- One turn of the loop on a bucket list with no key after the sample's. -/
theorem buildStep_buckets (st : BuildState) (x : Sample)
    (hs : (st.buckets.map Prod.fst).Pairwise (· < ·))
    (hk : ∀ k ∈ st.buckets.map Prod.fst, k ≤ ⌊x.ts / seconds⌋) :
    (buildStep seconds st x).buckets = push st.buckets (⌊x.ts / seconds⌋,
      sampleBar (volumeDelta st.prevCum st.prevSrc x) x) := by
  rw [← assign_eq_push hs hk]
  unfold buildStep
  dsimp only
  cases entryAt st.buckets ⌊x.ts / seconds⌋ with
  | none => simp [sampleBar]
  | some b => rfl

/-- **On an ordered ring the loop of `build` computes the aggregate of the one-sample bars.** -/
theorem foldl_buildStep (hs : 0 < seconds) (ho : TimeOrdered samples) :
    samples.foldl (buildStep seconds) {} =
      ⟨bars seconds samples, samples.getLast?.map (·.cum), samples.getLast?.bind (·.source)⟩ := by
  induction samples using List.reverseRecOn with
  | nil => rfl
  | append_singleton samples x ih =>
    obtain ⟨ho', -, hx⟩ := List.pairwise_append.mp ho
    have hk : ∀ k ∈ (bars seconds samples).map Prod.fst, k ≤ ⌊x.ts / seconds⌋ := by
      intro k hk
      obtain ⟨y, hy, rfl⟩ := bars_keys.1 hk
      exact Int.floor_le_floor
        (div_le_div_of_nonneg_right (hx y hy x (List.mem_singleton.mpr rfl)) hs.le)
    rw [List.foldl_append, List.foldl_cons, List.foldl_nil, ih ho', bars_concat]
    have hb := buildStep_buckets ⟨bars seconds samples, samples.getLast?.map (·.cum),
      samples.getLast?.bind (·.source)⟩ x (bars_sorted hs ho') hk
    simp only [nextBar]
    rw [← hb]
    simp [buildStep]

/-- The candles of an ordered ring. -/
theorem candles_eq (hs : 0 < seconds) (ho : TimeOrdered samples) :
    candles samples seconds = (bars seconds samples).map (candleOf seconds) := by
  unfold candles
  rw [foldl_buildStep hs ho]
  by_cases h : samples = []
  · simp [h, bars, tickBars]
  · rw [if_neg]
    intro hor
    rcases hor with h' | h'
    · exact h h'
    · exact absurd hs (not_lt_of_ge h')

end Build

end BharatTicker
