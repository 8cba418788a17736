/-
  File:      BharatTicker/RealTimeLabels.lean
  Subject:   WHAT THE LABEL `REAL_TIME` SAYS. Both endpoints compute it from the clock and the age of
             a cache entry; neither looks at whose data it labels, or of which day.

  * `QuoteCall.LabelHonest`, `QuoteCall.LiveFirst` -- what the label of a quote promises, and when
    it is kept;
  * `IntradayCall.LabelHonest`, `IntradayCall.FedToday` -- the same for intraday candles;
  * `real_time_honest_iff` -- the two promises;
  * `delayed_labelled_real_time` -- requests for which neither is kept.
-/
import BharatTicker.MarketData.LiveOnly
import BharatTicker.SbIntraday

namespace BharatTicker

open Basis TickerCache

/-! ## 1. Quotes -/

namespace QuoteCall

/-- A quote that is labelled so was served by a live provider. -/
def LabelHonest (result : Except HttpException QuoteResponse) : Prop :=
  ∀ r, result = .ok r → r.dataQuality = .realTime → ∃ p, r.servedBy = some p ∧ isLive p = true

/-- Forced, in a session: the first provider to answer is live. Not forced, in a session: the
    cached tick, if it is fresh, is of a live provider, and where there is none the first provider
    to answer is no archive. -/
def LiveFirst (cfg : BreakerConfig) (isTradingHoliday : ℤ → Bool) (call : QuoteCall)
    (fc : FailoverController) : Prop :=
  match call.forcedSource with
  | some source => isMarketOpen isTradingHoliday call.answeredAt = true →
    ∀ p t, FirstAnswer cfg (call.request (some source) false) call.env fc fc.providers p t →
      isLive p = true
  | none => isMarketOpen isTradingHoliday call.askedAt = true →
    match call.tickData with
    | some c => (∃ age, call.cacheAge = some age ∧ age < 5000) →
      buildQuoteFromCache c.data ≠ none → isLive c.fetchedBy = true
    | none =>
      ∀ p t, FirstAnswer cfg (call.request none true) call.env fc fc.providers p t →
        isArchive p = false

section Quote

variable {cfg : BreakerConfig} {isTradingHoliday : ℤ → Bool} {call : QuoteCall}
  {fc : FailoverController}

theorem labelHonest_error (e : HttpException) : LabelHonest (.error e) := by
  intro r h
  cases h

theorem labelHonest_ok {r : QuoteResponse} : LabelHonest (.ok r) ↔
    (r.dataQuality = .realTime → ∃ p, r.servedBy = some p ∧ isLive p = true) := by
  constructor
  · exact fun h => h r rfl
  · intro h r' e
    cases e
    exact h

/-- A tick fetched for the request is labelled honestly exactly when the first provider to answer
    deserves the label. -/
theorem throughResponse_honest (hnd : (fc.providers.map (·.name)).Nodup) {source : Option String}
    {excludeDelayed : Bool} {quality : DataQuality} {age : Option ℚ} {detail : String} :
    LabelHonest (throughResponse cfg call fc source excludeDelayed quality age detail).1 ↔
      (quality = .realTime → ∀ p t, FirstAnswer cfg (call.request source excludeDelayed) call.env fc
        fc.providers p t → isLive p = true) := by
  have hfirst : ∀ p t, FirstAnswer cfg (call.request source excludeDelayed) call.env fc
      fc.providers p t ↔ (getQuoteThrough cfg call.name call.exchange.str source excludeDelayed
        false call.env fc).answer = some (p, t) := fun p t => (cascade_answer_iff hnd).symm
  unfold throughResponse
  dsimp only
  cases ha : (getQuoteThrough cfg call.name call.exchange.str source excludeDelayed false call.env
    fc).answer with
  | none =>
    dsimp only
    refine iff_of_true (labelHonest_error _) fun _ p t ht => ?_
    rw [hfirst, ha] at ht
    cases ht
  | some r =>
    obtain ⟨p, t⟩ := r
    dsimp only
    refine Iff.trans labelHonest_ok (imp_congr_right fun _ => ?_)
    constructor
    · intro h q t' ht
      obtain ⟨p', e, hlive⟩ := h
      rw [hfirst, ha] at ht
      cases ht
      cases e
      exact hlive
    · exact fun h => ⟨p, rfl, h p t ((hfirst p t).mpr ha)⟩

/-- Off session nothing has the label. -/
theorem getEodQuote_honest (hnd : (fc.providers.map (·.name)).Nodup) :
    LabelHonest (getEodQuote cfg call fc).1 := by
  unfold getEodQuote
  cases call.tickData with
  | some c =>
    dsimp only
    cases buildQuoteFromCache c.data with
    | some q =>
      refine labelHonest_ok.2 fun h => ?_
      cases h
    | none => exact labelHonest_error _
  | none =>
    dsimp only
    cases call.eod with
    | missing =>
      refine (throughResponse_honest hnd).mpr fun h => ?_
      cases h
    | row =>
      refine labelHonest_ok.2 fun h => ?_
      cases h
    | malformedRow => exact labelHonest_error _

/-- In a session: the cached tick, or the first provider to answer. -/
theorem getRealtimeQuote_honest (hnd : (fc.providers.map (·.name)).Nodup) :
    LabelHonest (getRealtimeQuote cfg call fc).1 ↔
      match call.tickData with
      | some c => (∃ age, call.cacheAge = some age ∧ age < 5000) →
        buildQuoteFromCache c.data ≠ none → isLive c.fetchedBy = true
      | none =>
        ∀ p t, FirstAnswer cfg (call.request none true) call.env fc fc.providers p t →
          isArchive p = false := by
  unfold getRealtimeQuote
  cases call.tickData with
  | some c =>
    dsimp only
    cases hage : call.cacheAge with
    | none => exact iff_of_true (labelHonest_error _) fun hex => by simp at hex
    | some age =>
      cases hq : buildQuoteFromCache c.data with
      | none => exact iff_of_true (labelHonest_error _) fun _ h => absurd rfl h
      | some q =>
        rw [labelHonest_ok]
        by_cases hlt : age < 5000 <;> simp [hlt]
  | none =>
    -- delayed providers are excluded, so that not live means an archive
    refine (throughResponse_honest hnd).trans ?_
    refine (forall_prop_of_true rfl).trans (forall₃_congr fun p t ht => ?_)
    obtain ⟨pre, post, -, ha, -⟩ := ht
    have hdelayed : p.delayed = false := by
      simpa [barredDelayed, request, throughRequest, QuoteRequest.forced?] using ha.live
    rw [isLive_iff]
    exact and_iff_left hdelayed

/-- **The label of a quote is honest exactly when the data it is put on comes from a live
    provider.** -/
theorem getQuote_honest (hnd : (fc.providers.map (·.name)).Nodup) :
    LabelHonest (getQuote cfg call fc isTradingHoliday).1 ↔
      LiveFirst cfg isTradingHoliday call fc := by
  unfold getQuote LiveFirst
  cases call.forcedSource with
  | some source =>
    refine (throughResponse_honest hnd).trans (imp_congr_left ?_)
    cases isMarketOpen isTradingHoliday call.answeredAt <;> simp
  | none =>
    dsimp only
    cases isMarketOpen isTradingHoliday call.askedAt with
    | true => exact (getRealtimeQuote_honest hnd).trans ⟨fun h _ => h, fun h => h rfl⟩
    | false => exact iff_of_true (getEodQuote_honest hnd) fun h => by cases h

end Quote

end QuoteCall

/-! ## 2. Intraday candles -/

/-- The last candle is of the day of `now`. -/
def EndsToday (now : ℚ) (candles : List SbCandle) : Prop :=
  ∃ c, candles.getLast? = some c ∧ istDay c.timestamp = istDay now

namespace IntradayCall

/-- Candles that are labelled so end today. -/
def LabelHonest (call : IntradayCall) (result : Except HttpException IntradayResponse) : Prop :=
  ∀ r, result = .ok r → r.dataQuality = .realTime → EndsToday call.labelledAt r.candles

/-- The ring after a call whose cascade ends in `answer`. -/
def sampledRing (live : LiveSettings) (s : LiveFeed) (c : LiveCall)
    (answer : Option (Provider × TickData)) : List Sample :=
  let ring := s.engine.samples (engineKey c.symbol c.exchange)
  match answer.bind fun a => s.engine.taken live (c.recordCall a.2) with
  | some x => ringAppend live.sampleMaxlen ring x
  | none => ring

/-- The last point that counts, of the first curve that has one. -/
def lastPoint (call : IntradayCall) : Option IntradayPoint :=
  (call.tickertape.bind fun curve => (priced curve.points).getLast?).or
    (call.bse.bind fun curve => (priced curve.points).getLast?)

/-- In a session, below the minute: with the sample of the first provider to answer the ring is not
    empty, and the sample that opens its last bucket is of today. From the minute on: the last
    point of the curve that is served is in a bucket of today. -/
def FedToday (cfg : BreakerConfig) (live : LiveSettings) (isTradingHoliday : ℤ → Bool)
    (call : IntradayCall) (s : LiveFeed) : Prop :=
  rejectIndex call.symbol = none → isMarketOpen isTradingHoliday call.labelledAt = true →
    match secondsIntervals.lookup call.interval with
    | some seconds => call.pastDate = .ok none →
      ∀ answer, (∀ p t, answer = some (p, t) ↔ FirstAnswer cfg
          (throughRequest (canonicalSymbol call.symbol) call.exchange.str none true true) call.env
          s.failover s.failover.providers p t) →
        ∃ x, OpensLast (fun x : Sample => ⌊x.ts / seconds⌋) (sampledRing live s call.sampleCall answer) x ∧
          istDay x.ts = istDay call.labelledAt
    | none => ∀ seconds p, intradaySeconds.lookup call.interval = some seconds →
      call.lastPoint = some p → istDay (bucketStart seconds p.timestamp) = istDay call.labelledAt

section Intraday

variable {cfg : BreakerConfig} {live : LiveSettings} {isTradingHoliday : ℤ → Bool}
  {call : IntradayCall} {s : LiveFeed}

theorem served_getLast? {α : Type*} (l : List α) : (call.served l).getLast? = l.getLast? := by
  unfold served
  cases call.limit with
  | none => rfl
  | some n =>
    have hn := n.2.1
    exact lastSlice_getLast? (by omega) l

theorem limitOr_pos (call : IntradayCall) : 0 < call.limitOr := by
  unfold limitOr
  cases call.limit with
  | some n => exact n.2.1
  | none => norm_num

theorem curveLimit_pos (call : IntradayCall) : 0 < call.curveLimit := by
  unfold curveLimit
  cases call.limit with
  | some n => exact Nat.succ_pos _
  | none => norm_num

/-! ### Curves -/

/-- **The last candle of a curve begins at the bucket of its last point that counts.** -/
theorem curveCandles_getLast? (call : IntradayCall) {seconds : ℕ} (hs : 0 < seconds)
    (curve : Option IntradayCurve) :
    (call.curveCandles seconds curve).getLast?.map (·.timestamp) =
      (curve.bind fun curve => (priced curve.points).getLast?).map fun p =>
        (bucketStart seconds p.timestamp : ℚ) := by
  cases curve with
  | none => rfl
  | some curve =>
    unfold curveCandles
    dsimp only
    rw [served_getLast?, latestSessionOnly_getLast?]
    exact pointsToOhlc_getLast? hs (Int.natCast_pos.mpr (curveLimit_pos call)) curve.ascending

theorem curveCandles_eq_nil (call : IntradayCall) {seconds : ℕ} (hs : 0 < seconds)
    (curve : Option IntradayCurve) :
    call.curveCandles seconds curve = [] ↔
      (curve.bind fun curve => (priced curve.points).getLast?) = none := by
  rw [← List.getLast?_eq_none_iff, ← Option.map_eq_none_iff, curveCandles_getLast? call hs,
    Option.map_eq_none_iff]

theorem intradaySeconds_pos : ∀ e ∈ intradaySeconds, 0 < e.2 := by decide

/-- The response from a curve with a last point. -/
theorem curveResponse_honest {seconds : ℕ} (hs : 0 < seconds) {curve : Option IntradayCurve}
    {p : IntradayPoint} (hp : (curve.bind fun curve => (priced curve.points).getLast?) = some p)
    (exchange : Exchange) (source : String) :
    LabelHonest call (.ok (call.curveResponse isTradingHoliday exchange source
        (call.curveCandles seconds curve))) ↔
      (isMarketOpen isTradingHoliday call.labelledAt = true →
        istDay (bucketStart seconds p.timestamp) = istDay call.labelledAt) := by
  have hlast := curveCandles_getLast? call hs curve
  rw [hp, Option.map_some] at hlast
  obtain ⟨c, hc, ht⟩ := Option.map_eq_some_iff.mp hlast
  have hends : EndsToday call.labelledAt ((call.curveCandles seconds curve).map SbCandle.of) ↔
      istDay (bucketStart seconds p.timestamp) = istDay call.labelledAt := by
    unfold EndsToday
    rw [List.getLast?_map, hc, ← ht]
    simp [SbCandle.of]
  rw [← hends]
  unfold LabelHonest curveResponse
  cases isMarketOpen isTradingHoliday call.labelledAt <;> simp

/-- From the minute on the label is honest exactly when the curve that is served ends today. -/
theorem minuteResponse_honest {seconds : ℕ} (hs : 0 < seconds) :
    LabelHonest call (.ok (call.minuteResponse isTradingHoliday seconds)) ↔
      (isMarketOpen isTradingHoliday call.labelledAt = true → ∀ p, call.lastPoint = some p →
        istDay (bucketStart seconds p.timestamp) = istDay call.labelledAt) := by
  unfold minuteResponse lastPoint
  dsimp only
  have htt := curveCandles_eq_nil call hs call.tickertape
  have hbse := curveCandles_eq_nil call hs call.bse
  cases hp : call.tickertape.bind fun curve => (priced curve.points).getLast? with
  | some p =>
    rw [hp] at htt
    rw [if_pos (by simp [htt]), curveResponse_honest hs hp]
    simp
  | none =>
    rw [if_neg (by simp [htt.mpr hp])]
    cases hq : call.bse.bind fun curve => (priced curve.points).getLast? with
    | some p =>
      rw [hq] at hbse
      rw [if_pos (by simp [hbse]), curveResponse_honest hs hq]
      simp
    | none =>
      rw [if_neg (by simp [hbse.mpr hq])]
      refine iff_of_true ?_ (by simp)
      intro r h hr
      cases h
      cases hr

/-! ### The live engine -/

theorem buildStep_keys (seconds : ℚ) (st : BuildState) (x : Sample) :
    (buildStep seconds st x).buckets.map Prod.fst =
      if ⌊x.ts / seconds⌋ ∈ st.buckets.map Prod.fst then st.buckets.map Prod.fst
      else st.buckets.map Prod.fst ++ [⌊x.ts / seconds⌋] :=
  keys_assign _ _ _

/-- The ring after the sample of a call. -/
theorem sampleOnce_ring (cfg : BreakerConfig) (live : LiveSettings) (s : LiveFeed) (c : LiveCall) :
    (s.sampleOnce cfg live c).2.engine.samples (engineKey c.symbol c.exchange) =
      sampledRing live s c
        (getQuoteThrough cfg c.symbol c.exchange none true true c.env s.failover).answer := by
  unfold LiveFeed.sampleOnce
  dsimp only
  split
  · rename_i p t ha
    rw [ha]
    show (s.engine.record live (c.recordCall t)).samples (c.recordCall t).key = _
    unfold sampledRing
    dsimp only [Option.bind_some]
    cases hx : s.engine.taken live (c.recordCall t) with
    | none =>
      rw [LiveCandleEngine.record_ignored hx]
      rfl
    | some x => exact LiveCandleEngine.record_taken hx
  · rename_i ha
    rw [ha]
    rfl

/-- The last bucket of a ring is that of the sample that opens last. -/
theorem buckets_getLast? (seconds : ℚ) (ring : List Sample) (k : ℤ) :
    (ring.foldl (buildStep seconds) {}).buckets.getLast?.map Prod.fst = some k ↔
      ∃ x, OpensLast (fun x : Sample => ⌊x.ts / seconds⌋) ring x ∧ ⌊x.ts / seconds⌋ = k := by
  rw [← List.getLast?_map]
  exact foldl_getLast?_keys (fun st : BuildState => st.buckets.map Prod.fst)
    (buildStep_keys seconds) rfl ring k

/-- The last candle that the engine builds is of its last bucket, whatever the limit. -/
theorem build_getLast? {seconds : ℚ} (hs : 0 < seconds) {limit : ℤ} (hl : 0 < limit)
    (eng : LiveCandleEngine) (symbol exchange : String) :
    (eng.build symbol exchange seconds limit).getLast? =
      ((eng.samples (engineKey symbol exchange)).foldl (buildStep seconds) {}).buckets.getLast?.map
        (candleOf seconds) := by
  unfold LiveCandleEngine.build candles
  rw [lastSlice_getLast? hl, ← List.getLast?_map]
  generalize eng.samples (engineKey symbol exchange) = ring
  by_cases hnil : ring = []
  · simp [hnil]
  · rw [if_neg]
    intro hor
    rcases hor with hor | hor
    · exact hnil hor
    · exact absurd hs (not_lt_of_ge hor)

/-- The last candle that the engine builds of a ring is of the day of the sample that opens the
    last bucket. -/
theorem build_endsToday {name : String} {seconds : ℚ}
    (h : secondsIntervals.lookup name = some seconds) {limit : ℤ} (hl : 0 < limit)
    (eng : LiveCandleEngine) (symbol exchange : String) (now : ℚ) :
    EndsToday now ((eng.build symbol exchange seconds limit).map SbCandle.of) ↔
      ∃ x, OpensLast (fun x : Sample => ⌊x.ts / seconds⌋)
        (eng.samples (engineKey symbol exchange)) x ∧ istDay x.ts = istDay now := by
  have hs := (istDay_isoInstant h 0).1
  unfold EndsToday
  rw [List.getLast?_map, build_getLast? hs hl]
  constructor
  · intro hex
    obtain ⟨c, hc, hday⟩ := hex
    obtain ⟨c', hc', rfl⟩ := Option.map_eq_some_iff.mp hc
    obtain ⟨b, hb, rfl⟩ := Option.map_eq_some_iff.mp hc'
    obtain ⟨x, hx, hk⟩ := (buckets_getLast? ..).mp (Option.map_eq_some_iff.mpr ⟨b, hb, rfl⟩)
    refine ⟨x, hx, ?_⟩
    rw [← hday, ← (istDay_isoInstant h x.ts).2, hk]
    rfl
  · intro hex
    obtain ⟨x, hx, hday⟩ := hex
    obtain ⟨b, hb, hk⟩ := Option.map_eq_some_iff.mp ((buckets_getLast? ..).mpr ⟨x, hx, rfl⟩)
    refine ⟨SbCandle.of (candleOf seconds b), ?_, ?_⟩
    · rw [hb]
      rfl
    · rw [← hday, ← (istDay_isoInstant h x.ts).2, ← hk]
      rfl

/-- Below the minute the label is honest exactly when the sample that opens the last bucket is of
    today. -/
theorem tickResponse_honest (hnd : (s.failover.providers.map (·.name)).Nodup) {seconds : ℚ}
    (h : secondsIntervals.lookup call.interval = some seconds) :
    LabelHonest call (.ok (call.tickResponse cfg live isTradingHoliday seconds s).1) ↔
      (isMarketOpen isTradingHoliday call.labelledAt = true →
        ∀ answer, (∀ p t, answer = some (p, t) ↔ FirstAnswer cfg
            (throughRequest (canonicalSymbol call.symbol) call.exchange.str none true true) call.env
            s.failover s.failover.providers p t) →
          ∃ x, OpensLast (fun x : Sample => ⌊x.ts / seconds⌋)
              (sampledRing live s call.sampleCall answer) x ∧
            istDay x.ts = istDay call.labelledAt) := by
  -- the answer of the cascade is the one answer that the condition speaks of
  have hanswer : ∀ answer, (∀ p t, answer = some (p, t) ↔ FirstAnswer cfg
      (throughRequest (canonicalSymbol call.symbol) call.exchange.str none true true) call.env
      s.failover s.failover.providers p t) ↔ answer = (getQuoteThrough cfg
        (canonicalSymbol call.symbol) call.exchange.str none true true call.env
        s.failover).answer := by
    intro answer
    constructor
    · intro hall
      refine Option.ext fun a => ?_
      obtain ⟨p, t⟩ := a
      exact (hall p t).trans (cascade_answer_iff hnd).symm
    · intro e p t
      rw [e]
      exact cascade_answer_iff hnd
  simp only [hanswer, forall_eq]
  have hends := build_endsToday h (Int.natCast_pos.mpr (limitOr_pos call))
    (s.sampleOnce cfg live call.sampleCall).2.engine (canonicalSymbol call.symbol) call.exchange.str
    call.labelledAt
  have hring := sampleOnce_ring cfg live s call.sampleCall
  rw [sampleCall_symbol, sampleCall_exchange, sampleCall_env] at hring
  rw [hring] at hends
  refine Iff.trans ?_ (imp_congr_right fun _ => hends)
  unfold LabelHonest tickResponse
  cases isMarketOpen isTradingHoliday call.labelledAt <;> simp

/-- **The label of intraday candles is honest exactly when the feed it is put on has reached
    today.** -/
theorem sbIntraday_honest (hnd : (s.failover.providers.map (·.name)).Nodup) :
    LabelHonest call (call.sbIntraday cfg live isTradingHoliday s).1 ↔
      FedToday cfg live isTradingHoliday call s := by
  have herror : ∀ e, LabelHonest call (.error e) := fun e r h => by cases h
  unfold sbIntraday FedToday
  cases hindex : rejectIndex call.symbol with
  | some e => exact iff_of_true (herror e) fun h => by cases h
  | none =>
    dsimp only
    refine Iff.trans ?_ (forall_prop_of_true rfl).symm
    cases hseconds : secondsIntervals.lookup call.interval with
    | some seconds =>
      dsimp only
      cases hpast : call.pastDate with
      | error e => exact iff_of_true (herror e) fun _ h => by cases h
      | ok past =>
        cases past with
        | some date =>
          refine iff_of_true ?_ fun _ h => by cases h
          intro r hr hlabel
          unfold pastResponse at hr
          cases hpast : call.past with
          | none => simp [hpast] at hr
          | some past =>
            rw [hpast] at hr
            cases hr
            revert hlabel
            cases past.captured <;> simp
        | none =>
          exact (tickResponse_honest hnd hseconds).trans
            (forall_congr' fun _ => ⟨fun h _ => h, fun h => h rfl⟩)
    | none =>
      dsimp only
      cases hminute : intradaySeconds.lookup call.interval with
      | some seconds =>
        refine (minuteResponse_honest (intradaySeconds_pos _ (lookup_mem hminute))).trans ?_
        refine forall_congr' fun _ => ⟨fun h seconds' p e => ?_, fun h p => h seconds p rfl⟩
        cases e
        exact h p
      | none => exact iff_of_true (herror _) fun _ seconds p h => by cases h

end Intraday

end IntradayCall

/-! ## 3. Both labels -/

/-- The controller of the service, whatever has become of its breakers, switches and connections. -/
def serviceController (settings : ProviderSettings) (circuitBreakers : String → CircuitBreaker)
    (enabled isConnected : String → Bool) : FailoverController :=
  ⟨(controller settings).providers, circuitBreakers, enabled, isConnected⟩

/-- **The label `REAL_TIME` is honest exactly where the data it is put on happens to deserve it.** -/
theorem real_time_honest_iff (cfg : BreakerConfig) (live : LiveSettings)
    (isTradingHoliday : ℤ → Bool) (settings : ProviderSettings)
    (circuitBreakers : String → CircuitBreaker) (enabled isConnected : String → Bool) :
    (∀ call : QuoteCall,
      QuoteCall.LabelHonest (call.getQuote cfg
          (serviceController settings circuitBreakers enabled isConnected) isTradingHoliday).1 ↔
        call.LiveFirst cfg isTradingHoliday
          (serviceController settings circuitBreakers enabled isConnected)) ∧
    ∀ (call : IntradayCall) (engine : LiveCandleEngine),
      call.LabelHonest (call.sbIntraday cfg live isTradingHoliday
          ⟨serviceController settings circuitBreakers enabled isConnected, engine, [], []⟩).1 ↔
        call.FedToday cfg live isTradingHoliday
          ⟨serviceController settings circuitBreakers enabled isConnected, engine, [], []⟩ :=
  ⟨fun _ => QuoteCall.getQuote_honest (controller_distinct settings),
    fun _ _ => IntradayCall.sbIntraday_honest (controller_distinct settings)⟩

/-! ## 4. What else is labelled so -/

/-- Forced to Yahoo at ten. -/
def yahooCall : QuoteCall where
  symbol := "reliance"
  exchange := .NSE
  source := "yahoo"
  askedAt := monday 10 0
  env := quotes []

/-- The last trades of Friday, with the volume of the day so far. -/
def fridayCurve : IntradayCurve := fetchIntradayPoints
  [⟨some 2448, some (monday 15 28 - 3 * 86400), some 91200⟩,
    ⟨some 2450, some (monday 15 29 - 3 * 86400), some 91280⟩]

/-- Asked for before the first trade of the day, at 09:05. -/
def preOpenCall : IntradayCall where
  symbol := "RELIANCE"
  interval := "5minute"
  startedAt := monday 9 5
  env := quotes []
  tickertape := some fridayCurve

/-- **Delayed data and yesterday's are labelled so.** A quote forced to Yahoo in a session is
    `REAL_TIME`, and before the first trade of Monday the candles of Friday are. -/
theorem delayed_labelled_real_time :
    ¬ QuoteCall.LabelHonest (yahooCall.getQuote (.ofArgs {}) (controller {}) fun _ => false).1 ∧
    ¬ preOpenCall.LabelHonest
      (preOpenCall.sbIntraday (.ofArgs {}) {} (fun _ => false) ⟨controller {}, {}, [], []⟩).1 := by
  have hquote : (yahooCall.getQuote (.ofArgs {}) (controller {}) fun _ => false).1 =
      .ok
        { source := "yahoo_finance", dataQuality := .realTime
          servedBy := some yahooFinanceProvider } := by decide +kernel
  have hcandles : (preOpenCall.sbIntraday (.ofArgs {}) {} (fun _ => false)
      ⟨controller {}, {}, [], []⟩).1 =
      .ok
        { exchange := .NSE, source := "tickertape_realtime_nse", dataQuality := .realTime
          candles := [⟨monday 15 25 - 3 * 86400, some 2448, some 2450, some 2448, 2450, 80, 0⟩] } := by
    decide +kernel
  constructor
  · intro h
    obtain ⟨p, e, hlive⟩ := h _ hquote rfl
    cases e
    revert hlive
    decide
  · intro h
    obtain ⟨c, e, hday⟩ := h _ hcandles rfl
    cases e
    revert hday
    decide +kernel

end BharatTicker
