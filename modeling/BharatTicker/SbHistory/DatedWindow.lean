/-
  File:      BharatTicker/SbHistory/DatedWindow.lean
  Subject:   THE WINDOW OF A DATED REQUEST. Both dates are parsed to midnight, and the upstream window
             leaves its end out: the bars of the `to` day are not asked for. A cached window may have
             other times of day, since the key of the cache has the dates only.

  * `datedCandles` -- the candles of a request for past days;
  * `FilledHistory`, `filledStep` -- the caches, with the request that filled each entry as a ghost;
  * `Inclusive`, `Spans` -- the law, and the condition on the window the rows come from;
  * `dated_history_inclusive_iff` -- all histories; `to_day_left_out` -- a daily bar that is missing.
-/
import BharatTicker.Basis.Run
import BharatTicker.CorpActions
import BharatTicker.History
import BharatTicker.SbHistory

namespace BharatTicker

open Basis HistoryState

-- the concrete runs below compute with rationals
unseal Rat.add Rat.mul Rat.sub Rat.inv

/-! ## 1. Candles of past days -/

/-- The candles of `sb_history` for a request that does not cover `today`. -/
def datedCandles (code : IntervalCode) (adjust : Bool) (rows : List HistoryRow) (today : ℤ) :
    List DailyBar :=
  let candles := normCandles rows
  match code.bucket with
  | some _ => (candles.filter fun c => istDay c.timestamp < today).map SbCandle.daily
  | none =>
    if adjust then (adjustForSplits (candles.map SbCandle.daily)).1 else candles.map SbCandle.daily

/-- Every bar of the feed that has a close and is dated in `[dateFrom, dateTo]` has a candle, and no
    candle is dated outside. -/
structure Inclusive (feed : List HistoryRow) (dateFrom dateTo : ℤ) (candles : List DailyBar) :
    Prop where
  all : ∀ bar ∈ feed, bar.close ≠ none → dateFrom ≤ istDay bar.bucket → istDay bar.bucket ≤ dateTo →
    bar.bucket ∈ candles.map (·.timestamp)
  within : ∀ t ∈ candles.map (·.timestamp), dateFrom ≤ istDay t ∧ istDay t ≤ dateTo

/-- The window of a fetch has every such bar. -/
def Spans (w : HistoryRequest) (feed : List HistoryRow) (dateFrom dateTo : ℤ) : Prop :=
  ∀ bar ∈ feed, bar.close ≠ none → dateFrom ≤ istDay bar.bucket → istDay bar.bucket ≤ dateTo →
    w.start ≤ bar.bucket ∧ bar.bucket < w.finish

section Candles

variable {code : IntervalCode} {adjust : Bool} {rows : List HistoryRow} {today : ℤ}

/-- A request that is served without bars of today has these candles. -/
theorem historyResponse_dated (rows : HistoryRows) (hcode : code.bucket ≠ none) :
    (historyResponse rows today []).candles.map (fun b => b.candle.daily) =
      datedCandles code adjust rows.rows today := by
  obtain ⟨bucket, hbucket⟩ := Option.ne_none_iff_exists'.mp hcode
  unfold historyResponse datedCandles pastBars
  rw [hbucket, List.map_nil, List.append_nil, List.map_map]
  rfl

/-- The stamps of the candles are those of the rows that have a close; intraday, those before
    today. -/
theorem mem_datedCandles {t : ℚ} (hpast : ∀ row ∈ rows, row.close ≠ none → istDay row.bucket < today) :
    t ∈ (datedCandles code adjust rows today).map (·.timestamp) ↔
      ∃ row ∈ rows, row.close ≠ none ∧ row.bucket = t := by
  have hnorm : ∀ t, t ∈ (normCandles rows).map (·.timestamp) ↔
      ∃ row ∈ rows, row.close ≠ none ∧ row.bucket = t := by
    intro t
    unfold normCandles
    rw [((List.perm_insertionSort _ _).map _).mem_iff]
    constructor
    · intro h
      obtain ⟨c, hc, rfl⟩ := List.mem_map.mp h
      obtain ⟨row, hrow, hc⟩ := List.mem_filterMap.mp hc
      exact ⟨row, hrow, HistoryRow.exists_candle.1 ⟨c, hc⟩, (HistoryRow.candle_timestamp hc).symm⟩
    · rintro ⟨row, hrow, hclose, rfl⟩
      obtain ⟨c, hc⟩ := HistoryRow.exists_candle.2 hclose
      exact List.mem_map.mpr
        ⟨c, List.mem_filterMap.mpr ⟨row, hrow, hc⟩, HistoryRow.candle_timestamp hc⟩
  have hdaily : ∀ candles : List SbCandle,
      (candles.map SbCandle.daily).map (·.timestamp) = candles.map (·.timestamp) := fun candles => by
    rw [List.map_map]
    rfl
  unfold datedCandles
  dsimp only
  split
  · rw [hdaily, List.filter_eq_self.mpr, hnorm]
    intro c hc
    obtain ⟨row, hrow, hclose, e⟩ := (hnorm c.timestamp).mp (List.mem_map_of_mem hc)
    rw [← e]
    exact decide_eq_true (hpast row hrow hclose)
  · split
    · rw [adjustForSplits_timestamp, hdaily, hnorm]
    · rw [hdaily, hnorm]

end Candles

/-! ## 2. Requests and the windows that fill the cache -/

/-- The state of the requests; `filledBy` is a ghost: the request whose fetch put an entry into the
    history cache. -/
structure FilledHistory where
  state : HistoryState := {}
  filledBy : HistoryKey → Option HistoryRequest := fun _ => none

section System

variable (cfg : HistorySettings) (yf : Yfinance)

/-- What the upstream answers for a request. -/
def HistoryRequest.fetched (req : HistoryRequest) : List HistoryRow :=
  getHistory yf req.symbol req.exchange req.code.str (some (req.start, req.finish)) none

/-- A step in which the history feed, where it answers, answers what the library returns. -/
def filledStep (s : FilledHistory) (a : HistoryAction) : Option FilledHistory :=
  match a with
  | .historyArrives id rows _ =>
    match s.state.waiting id with
    | some (.history req) =>
      if rows.rows = req.fetched yf then
        (step cfg s.state a).map fun st =>
          ⟨st, Function.update s.filledBy req.historyKey (some req)⟩
      else none
    | _ => none
  | _ => (step cfg s.state a).map fun st => ⟨st, s.filledBy⟩

/-- The rows that a request gets at `now`: what it finds in the cache, or what is fetched for it. -/
def FilledHistory.rowsFor (s : FilledHistory) (req : HistoryRequest) (now : ℚ) : List HistoryRow :=
  match (s.state.histCache.get cfg.histTtl req.historyKey now).1 with
  | some hit => hit.rows
  | none => req.fetched yf

/-- The request whose window they come from. -/
def FilledHistory.windowFor (s : FilledHistory) (req : HistoryRequest) (now : ℚ) : HistoryRequest :=
  match (s.state.histCache.get cfg.histTtl req.historyKey now).1 with
  | some _ => (s.filledBy req.historyKey).getD req
  | none => req

/-- Every entry was fetched for a request with its key. -/
def EntriesFilled (s : FilledHistory) : Prop :=
  ∀ key e, entryAt s.state.histCache.store key = some e →
    ∃ req, s.filledBy key = some req ∧ req.historyKey = key ∧ e.value.rows = req.fetched yf

end System

section Step

variable {cfg : HistorySettings} {yf : Yfinance} {s s' : FilledHistory}

/-- What comes after the history leaves its cache alone. -/
theorem withHistory_histCache (id : ℕ) (req : HistoryRequest) (rows : HistoryRows) (now : ℚ)
    (st : HistoryState) : (st.withHistory cfg id req rows now).histCache = st.histCache := by
  unfold withHistory
  split
  · rfl
  · dsimp only
    split
    · split <;> rfl
    · rfl

/-- A cache with entries of the old one only. -/
theorem EntriesFilled.shrink (h : EntriesFilled yf s) (hby : s'.filledBy = s.filledBy)
    (hsub : ∀ key e, entryAt s'.state.histCache.store key = some e →
      entryAt s.state.histCache.store key = some e) : EntriesFilled yf s' := by
  intro key e he
  rw [hby]
  exact h key e (hsub key e he)

theorem filledStep_filled {a : HistoryAction} (h : EntriesFilled yf s)
    (hs : filledStep cfg yf s a = some s') : EntriesFilled yf s' := by
  cases a with
  | request id call now =>
    obtain ⟨st, hst, rfl⟩ := Option.map_eq_some_iff.mp hs
    refine h.shrink rfl fun key e he => ?_
    dsimp only [step] at hst
    obtain ⟨-, hst⟩ := Option.ite_none_left_eq_some.mp hst
    split at hst
    · cases hst
      exact he
    · rename_i req _
      dsimp only at hst he
      split at hst
      · cases hst
        rw [withHistory_histCache] at he
        exact TtlCache.entryAt_get he
      · cases hst
        exact TtlCache.entryAt_get he
  | historyArrives id rows now =>
    dsimp only [filledStep] at hs
    split at hs
    · rename_i req hw
      obtain ⟨hrows, hs⟩ := Option.ite_none_right_eq_some.mp hs
      obtain ⟨st, hst, rfl⟩ := Option.map_eq_some_iff.mp hs
      dsimp only [step] at hst
      rw [hw] at hst
      cases hst
      intro key e he
      rw [withHistory_histCache] at he
      rcases TtlCache.entryAt_put he with ⟨rfl, rfl⟩ | ⟨hne, hold⟩
      · exact ⟨req, Function.update_self .., rfl, hrows⟩
      · obtain ⟨req', hby, hkey, hvalue⟩ := h key e hold
        exact ⟨req', (Function.update_of_ne hne ..).trans hby, hkey, hvalue⟩
    · cases hs
  | curvesArrive id tickertape bse now =>
    obtain ⟨st, hst, rfl⟩ := Option.map_eq_some_iff.mp hs
    refine h.shrink rfl fun key e he => ?_
    dsimp only [step] at hst
    split at hst
    · cases hst
      exact he
    · cases hst
  | clear =>
    cases hs
    intro key e he
    cases he

/-- **The rows of a request are what was fetched for a window with its key.** -/
theorem rowsFor_window (h : EntriesFilled yf s) (req : HistoryRequest) (now : ℚ) :
    (s.windowFor cfg req now).historyKey = req.historyKey ∧
      s.rowsFor cfg yf req now = (s.windowFor cfg req now).fetched yf := by
  unfold FilledHistory.windowFor FilledHistory.rowsFor
  cases hhit : (s.state.histCache.get cfg.histTtl req.historyKey now).1 with
  | none => exact ⟨rfl, rfl⟩
  | some hit =>
    obtain ⟨e, he, -, rfl⟩ := TtlCache.get_eq_some.mp hhit
    obtain ⟨req', hby, hkey, hrows⟩ := h req.historyKey e he
    dsimp only
    rw [hby]
    exact ⟨hkey, hrows⟩

end Step

/-! ## 3. Dated requests -/

section Dated

variable {yf : Yfinance} {feed : String → String → List HistoryRow}

/-- The feed of a request. -/
def HistoryRequest.bars (feed : String → String → List HistoryRow) (req : HistoryRequest) :
    List HistoryRow :=
  feedOf feed req.symbol req.exchange req.code.str

/-- A request with both dates, inside the cap, asks from midnight to midnight. -/
theorem historyRequest_dated {call : HistoryCall} {now : ℚ} {req : HistoryRequest}
    {dateFrom dateTo : ℤ} (hreq : historyRequest call now = .ok req)
    (hfrom : call.dateFrom = some dateFrom) (hto : call.dateTo = some dateTo)
    (hcap : dateTo - dateFrom ≤ req.code.maxDays) :
    req.start = dayStart dateFrom ∧ req.finish = dayStart dateTo := by
  unfold historyRequest at hreq
  split at hreq
  · cases hreq
  · rename_i code _
    rw [hfrom, hto] at hreq
    obtain rfl := Except.ok.inj hreq
    refine ⟨if_neg (not_lt.mpr ?_), rfl⟩
    have hcap : ((dateTo - dateFrom : ℤ) : ℚ) ≤ code.maxDays := by exact_mod_cast hcap
    push_cast at hcap
    unfold dayStart
    linarith

/-- **The candles of past days are all those of the dates exactly when the window spans them.** -/
theorem inclusive_iff_spans (hfeed : HalfOpen yf feed) {w req : HistoryRequest}
    {dateFrom dateTo today : ℤ} {adjust : Bool} (hkey : w.historyKey = req.historyKey)
    (hstart : istDay req.start = dateFrom) (hfinish : istDay req.finish = dateTo)
    (hpast : dateTo < today) :
    Inclusive (req.bars feed) dateFrom dateTo (datedCandles req.code adjust (w.fetched yf) today) ↔
      Spans w (req.bars feed) dateFrom dateTo := by
  obtain ⟨hsymbol, hexchange, hcode, hws, hwf⟩ : w.symbol = req.symbol ∧ w.exchange = req.exchange ∧
      w.code = req.code ∧ istDay w.start = istDay req.start ∧ istDay w.finish = istDay req.finish := by
    unfold HistoryRequest.historyKey at hkey
    simpa only [Prod.mk.injEq] using hkey
  have hfetched : w.fetched yf =
      (req.bars feed).filter fun bar => w.start ≤ bar.bucket ∧ bar.bucket < w.finish := by
    unfold HistoryRequest.fetched HistoryRequest.bars
    rw [getHistory_window hfeed, hsymbol, hexchange, hcode]
  have hmem : ∀ bar, bar ∈ w.fetched yf ↔
      bar ∈ req.bars feed ∧ w.start ≤ bar.bucket ∧ bar.bucket < w.finish := by
    intro bar
    rw [hfetched, List.mem_filter, decide_eq_true_eq]
  have hdated : ∀ bar ∈ w.fetched yf, dateFrom ≤ istDay bar.bucket ∧ istDay bar.bucket ≤ dateTo := by
    intro bar hbar
    obtain ⟨-, hle, hlt⟩ := (hmem bar).mp hbar
    rw [← hstart, ← hfinish, ← hws, ← hwf]
    exact ⟨istDay_mono hle, istDay_mono hlt.le⟩
  have hcandles : ∀ t, t ∈ (datedCandles req.code adjust (w.fetched yf) today).map (·.timestamp) ↔
      ∃ row ∈ w.fetched yf, row.close ≠ none ∧ row.bucket = t := fun t =>
    mem_datedCandles fun row hrow _ => (hdated row hrow).2.trans_lt hpast
  constructor
  · intro h bar hbar hclose hfrom hto
    obtain ⟨row, hrow, -, e⟩ := (hcandles bar.bucket).mp (h.all bar hbar hclose hfrom hto)
    rw [← e]
    exact ((hmem row).mp hrow).2
  · intro h
    refine ⟨fun bar hbar hclose hfrom hto => ?_, fun t ht => ?_⟩
    · exact (hcandles bar.bucket).mpr
        ⟨bar, (hmem bar).mpr ⟨hbar, h bar hbar hclose hfrom hto⟩, hclose, rfl⟩
    · obtain ⟨row, hrow, -, rfl⟩ := (hcandles t).mp ht
      exact hdated row hrow

/-- The request's own window spans its dates exactly when the `to` day has no bar. -/
theorem spans_own {req : HistoryRequest} {bars : List HistoryRow} {dateFrom dateTo : ℤ}
    (hle : dateFrom ≤ dateTo) (hstart : req.start = dayStart dateFrom)
    (hfinish : req.finish = dayStart dateTo) :
    Spans req bars dateFrom dateTo ↔ ∀ bar ∈ bars, bar.close ≠ none → istDay bar.bucket ≠ dateTo := by
  constructor
  · intro h bar hbar hclose e
    obtain ⟨-, hlt⟩ := h bar hbar hclose (e ▸ hle) e.le
    rw [hfinish, ← e] at hlt
    exact absurd (istDay_eq_iff.1 (rfl : istDay bar.bucket = _)).1 (not_le.mpr hlt)
  · intro h bar hbar hclose hfrom hto
    obtain ⟨hlo, hhi⟩ := istDay_eq_iff.1 (rfl : istDay bar.bucket = istDay bar.bucket)
    have hbefore : istDay bar.bucket + 1 ≤ dateTo :=
      Int.add_one_le_iff.mpr (lt_of_le_of_ne hto (h bar hbar hclose))
    have hmono : ∀ {d d' : ℤ}, d ≤ d' → dayStart d ≤ dayStart d' := by
      intro d d' hd
      unfold dayStart
      have : (d : ℚ) ≤ d' := by exact_mod_cast hd
      linarith
    rw [hstart, hfinish]
    exact ⟨(hmono hfrom).trans hlo, hhi.trans_le (hmono hbefore)⟩

end Dated

/-- **Dated history has all of its dates exactly where the window does.** After every sequence of
    requests that the library answers from a feed, half-open, and for every request with dates before
    today and inside the cap: its candles are those of all the feed's bars of these dates exactly when
    the window that its rows were fetched for has all of them; where they are fetched for the request
    itself, exactly when the feed has no bar of the `to` day. -/
theorem dated_history_inclusive_iff (cfg : HistorySettings) (yf : Yfinance)
    (feed : String → String → List HistoryRow) (hfeed : HalfOpen yf feed)
    (actions : List HistoryAction) (s : FilledHistory)
    (hr : run (filledStep cfg yf) {} actions = some s)
    (call : HistoryCall) (now : ℚ) (req : HistoryRequest) (hreq : historyRequest call now = .ok req)
    (dateFrom dateTo today : ℤ) (hfrom : call.dateFrom = some dateFrom)
    (hto : call.dateTo = some dateTo) (hle : dateFrom ≤ dateTo) (hpast : dateTo < today)
    (hcap : dateTo - dateFrom ≤ req.code.maxDays) (adjust : Bool) :
    (Inclusive (req.bars feed) dateFrom dateTo
        (datedCandles req.code adjust (s.rowsFor cfg yf req now) today) ↔
      Spans (s.windowFor cfg req now) (req.bars feed) dateFrom dateTo) ∧
    ((s.state.histCache.get cfg.histTtl req.historyKey now).1 = none →
      (Spans (s.windowFor cfg req now) (req.bars feed) dateFrom dateTo ↔
        ∀ bar ∈ req.bars feed, bar.close ≠ none → istDay bar.bucket ≠ dateTo)) := by
  have hfilled : EntriesFilled yf s :=
    run_invariant (fun _ _ _ h hs => filledStep_filled h hs) (fun key e he => by cases he) hr
  obtain ⟨hstart, hfinish⟩ := historyRequest_dated hreq hfrom hto hcap
  have hwindow : (s.windowFor cfg req now).historyKey = req.historyKey ∧
      s.rowsFor cfg yf req now = (s.windowFor cfg req now).fetched yf :=
    rowsFor_window hfilled req now
  obtain ⟨hkey, hrows⟩ := hwindow
  constructor
  · rw [hrows]
    exact inclusive_iff_spans hfeed hkey (by rw [hstart, istDay_dayStart])
      (by rw [hfinish, istDay_dayStart]) hpast
  · intro hmiss
    have hown : s.windowFor cfg req now = req := by
      unfold FilledHistory.windowFor
      rw [hmiss]
    rw [hown]
    exact spans_own hle hstart hfinish

/-! ### Friday and Monday -/

/-- The daily bars of Friday and of Monday, 5 January 2026. -/
def twoDays : String → String → List HistoryRow := fun _ _ =>
  [⟨dayStart 20455, some 2425, some 2440, some 2420, some 2431, 5100⟩,
    ⟨dayStart 20458, some 2433, some 2455, some 2430, some 2450, 4800⟩]

def twoDaysFeed : Yfinance where
  between symbol interval start finish := .ok ((twoDays symbol interval).filter
    fun bar => start ≤ bar.bucket ∧ bar.bucket < finish)
  period symbol interval _ := .ok (twoDays symbol interval)

/-- A daily request from Friday to a day. -/
def dailyCall (dateTo : ℤ) : HistoryCall where
  symbol := "RELIANCE"
  dateFrom := some 20455
  dateTo := some dateTo

def dailyRequest (dateTo : ℤ) : HistoryRequest :=
  ⟨"RELIANCE", .NSE, .d1, dayStart 20455, dayStart dateTo⟩

theorem dailyCall_sunday :
    historyRequest (dailyCall 20457) (monday 34 0) = .ok (dailyRequest 20457) := by
  decide

/-- Up to Sunday, which has no bar. -/
theorem dated_history_inclusive_sunday :
    Inclusive ((dailyRequest 20457).bars twoDays) 20455 20457
      (datedCandles .d1 true (({} : FilledHistory).rowsFor {} twoDaysFeed (dailyRequest 20457)
        (monday 34 0)) 20459) := by
  have h := dated_history_inclusive_iff {} twoDaysFeed twoDays (fun _ _ _ _ => rfl) [] {} rfl
    (dailyCall 20457) (monday 34 0) (dailyRequest 20457) dailyCall_sunday 20455 20457
    20459 rfl rfl (by norm_num) (by norm_num) (by decide) true
  refine h.1.mpr ((h.2 rfl).mpr ?_)
  decide

/-- **Monday's bar is left out** of a request on Tuesday for Friday to Monday. -/
theorem to_day_left_out :
    ¬ Inclusive ((dailyRequest 20458).bars twoDays) 20455 20458
      (datedCandles .d1 true (({} : FilledHistory).rowsFor {} twoDaysFeed (dailyRequest 20458)
        (monday 34 0)) 20459) := by
  intro h
  have hall := h.all ⟨dayStart 20458, some 2433, some 2455, some 2430, some 2450, 4800⟩ (by decide)
    (by decide) (by decide) (by decide)
  revert hall
  decide

end BharatTicker
