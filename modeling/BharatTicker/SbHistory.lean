/-
  File:      BharatTicker/SbHistory.lean
  Subject:   DATED CANDLES (`api/endpoints/superbrain.py`: `sb_history`, `_cached_history`,
             `_cached_today_bars`, `_today_session_bars`).

  A request is suspended where it waits for the history feed and for a curve; between two
  suspensions it is one step at one reading of the clock. Any number of requests is under way, each
  with a number of its own, and they share the two caches. A naive time of the code is the instant
  it denotes in India, so that its date is the date there.

  * `SessionBucket`, `TodayBars`, `todaySessionBars` -- today's bars, from a curve;
  * `HistoryCall`, `historyRequest` -- what a request asks for;
  * `historyResponse` -- past bars, with today's appended;
  * `HistoryState`, `step` -- requests and their caches.
-/
import BharatTicker.SbIntraday
import BharatTicker.TtlCache

namespace BharatTicker

open Basis

/-! ## 1. Today's bars -/

/-- A bucket length that divides the day and the offset of IST: no bucket goes across midnight. -/
abbrev SessionBucket := { n : ℕ // 0 < n ∧ n ∣ 86400 ∧ n ∣ 19800 }

/-- `INTRADAY_SECONDS[code]`; `none` for the codes that are not in it. -/
def IntervalCode.bucket : IntervalCode → Option SessionBucket
  | .d1 => none
  | .w1 => none
  | .m30 => some ⟨1800, by decide⟩
  | .m15 => some ⟨900, by decide⟩
  | .m5 => some ⟨300, by decide⟩
  | .m1 => some ⟨60, by decide⟩

theorem IntervalCode.bucket_eq (code : IntervalCode) :
    code.bucket.map (·.1) = intradaySeconds.lookup code.str := by
  cases code <;> decide

theorem istDay_bucketStart (bucket : SessionBucket) (t : ℚ) :
    istDay (bucketStart bucket.1 t) = istDay t := by
  obtain ⟨n, hn, ⟨d, hd⟩, ⟨m, hm⟩⟩ := bucket
  have hs : (0 : ℚ) < n := by exact_mod_cast hn
  have hday : (86400 : ℚ) = (d : ℤ) * n := by
    rw [mul_comm]
    exact_mod_cast hd
  have hoffset : istOffset = (m : ℤ) * n := by
    unfold istOffset
    rw [mul_comm]
    exact_mod_cast hm
  have h := istDay_floor (t := t) hs hday hoffset
  unfold bucketStart
  push_cast
  exact h

/-- What is left of a feed's curve: `_latest_session_only(tt)`. -/
def sessionOf (curve : Option IntradayCurve) : List IntradayPoint :=
  match curve with
  | some curve => latestSessionOnly (·.timestamp) curve.points
  | none => []

/-- The points of the first feed that has some. -/
def sessionPoints (tickertape bse : Option IntradayCurve) : List IntradayPoint :=
  if sessionOf tickertape ≠ [] then sessionOf tickertape else sessionOf bse

/-- `_today_session_bars`, begun on the day `today`. -/
def todaySessionBars (tickertape bse : Option IntradayCurve) (today : ℤ) (bucketSeconds : ℕ)
    (limit : ℕ := 500) : List Candle :=
  pointsToOhlc ((sessionPoints tickertape bse).filter fun p => istDay p.timestamp = today)
    bucketSeconds limit

theorem sessionOf_ascending (curve : Option IntradayCurve) :
    (sessionOf curve).Pairwise fun p q => p.timestamp ≤ q.timestamp := by
  cases curve with
  | none => exact List.Pairwise.nil
  | some curve => exact curve.ascending.sublist (latestSessionOnly_sublist _ _)

theorem sessionPoints_ascending (tickertape bse : Option IntradayCurve) :
    (sessionPoints tickertape bse).Pairwise fun p q => p.timestamp ≤ q.timestamp := by
  unfold sessionPoints
  split_ifs
  · exact sessionOf_ascending tickertape
  · exact sessionOf_ascending bse

/-- The bars that `_today_session_bars` returns. `begun` is a ghost: the day it was called on, of
    which all of them are. -/
structure TodayBars where
  begun : ℤ
  candles : List Candle
  dated : ∀ c ∈ candles, istDay c.timestamp = begun
  ascending : candles.Pairwise fun c d => c.timestamp < d.timestamp

/-- The call, with its bucket. -/
def TodayBars.fetch (tickertape bse : Option IntradayCurve) (today : ℤ) (bucket : SessionBucket) :
    TodayBars where
  begun := today
  candles := todaySessionBars tickertape bse today bucket.1
  dated := by
    intro c hc
    obtain ⟨p, hp, e⟩ := pointsToOhlc_timestamp hc
    rw [e, istDay_bucketStart]
    exact of_decide_eq_true (List.mem_filter.mp hp).2
  ascending := pointsToOhlc_sorted ((sessionPoints_ascending tickertape bse).filter _)

/-! ## 2. Requests and responses -/

/-- The arguments of `sb_history`; a date is the day it names. -/
structure HistoryCall where
  symbol : String
  exchange : Exchange := .NSE
  interval : String := "day"
  dateFrom : Option ℤ := none
  dateTo : Option ℤ := none

/-- `symbol`, `code`, `start_dt` and `end_dt`. -/
structure HistoryRequest where
  symbol : String
  exchange : Exchange
  code : IntervalCode
  start : ℚ
  finish : ℚ
  deriving DecidableEq, Repr

/-- `_INTERVAL_MAX_DAYS`. -/
def IntervalCode.maxDays : IntervalCode → ℕ
  | .m1 => 6
  | .m5 => 59
  | .m15 => 59
  | .m30 => 59
  | .d1 => 365 * 10
  | .w1 => 365 * 20

/-- The head of `sb_history`. -/
def historyRequest (call : HistoryCall) (now : ℚ) : Except HttpException HistoryRequest :=
  match intervalMap.lookup call.interval with
  | none => .error ⟨400, "Unsupported interval: " ++ call.interval⟩
  | some code =>
    let finish : ℚ := match call.dateTo with
      | some day => dayStart day
      | none => now
    let start : ℚ := match call.dateFrom with
      | some day => dayStart day
      | none => finish - (min code.maxDays 365 : ℕ) * 86400
    let floor := finish - code.maxDays * 86400
    .ok
      { symbol := canonicalSymbol call.symbol, exchange := call.exchange, code := code
        start := if start < floor then floor else start, finish := finish }

/-- `(symbol, exchange, code, start.date(), end.date())`. -/
abbrev HistoryKey := String × Exchange × IntervalCode × ℤ × ℤ

/-- `(symbol, exchange, bucket)`. -/
abbrev TodayKey := String × Exchange × ℕ

namespace HistoryRequest

variable (req : HistoryRequest)

def historyKey : HistoryKey :=
  (req.symbol, req.exchange, req.code, istDay req.start, istDay req.finish)

def todayKey (bucket : SessionBucket) : TodayKey := (req.symbol, req.exchange, bucket.1)

/-- `start_dt.date() <= today <= end_dt.date()`. -/
def covers (today : ℤ) : Prop := istDay req.start ≤ today ∧ today ≤ istDay req.finish

instance (today : ℤ) : Decidable (req.covers today) := by
  unfold covers
  infer_instance

end HistoryRequest

/-- What `get_history` returns: rows with distinct stamps. -/
structure HistoryRows where
  rows : List HistoryRow
  distinct : (rows.map (·.bucket)).Nodup

/-- Where a candle comes from. -/
inductive BarOrigin where
  | yahoo
  | scraper
  deriving DecidableEq, Repr

/-- A candle of the response; `origin` is a ghost. -/
structure HistoryBar where
  candle : SbCandle
  origin : BarOrigin
  deriving DecidableEq, Repr

/-- `today` is the day the response was put together on. -/
structure HistoryResponse where
  today : ℤ
  todaySource : Option String
  candles : List HistoryBar
  deriving DecidableEq, Repr

/-- `[c for c in _norm_candles(rows) if c["timestamp"][:10] < today]`. -/
def pastBars (rows : HistoryRows) (today : ℤ) : List SbCandle :=
  (normCandles rows.rows).filter fun c => istDay c.timestamp < today

/-- The past bars, and the bars of today at their end. -/
def historyResponse (rows : HistoryRows) (today : ℤ) (tbars : List Candle) : HistoryResponse where
  today := today
  todaySource := if tbars ≠ [] then some "scraper_live" else none
  candles := (pastBars rows today).map (⟨·, .yahoo⟩) ++ tbars.map fun c => ⟨.of c, .scraper⟩

/-! ## 3. Requests under way -/

/-- `SB_HIST_TTL_S`, `SB_TODAY_TTL_S`, `SB_HIST_CACHE_MB`, `SB_TODAY_CACHE_MB`, the latter in bytes. -/
structure HistorySettings where
  histTtl : ℚ := 3600
  todayTtl : ℚ := 30
  histBudget : ℤ := 48 * 1024 * 1024
  todayBudget : ℤ := 16 * 1024 * 1024

/-- `_sizeof` of a list. -/
def sizeofList (length : ℕ) : ℕ := length * 450 + 64

/-- What a request waits for: the history feed, or the curve of a session. -/
inductive Waiting where
  | history (req : HistoryRequest)
  | curves (req : HistoryRequest) (bucket : SessionBucket) (rows : HistoryRows) (today : ℤ)

/-- The two caches, the requests under way, and a ghost: the intraday responses. -/
structure HistoryState where
  histCache : TtlCache HistoryKey HistoryRows := {}
  todayCache : TtlCache TodayKey TodayBars := {}
  waiting : ℕ → Option Waiting := fun _ => none
  served : List HistoryResponse := []

inductive HistoryAction where
  | request (id : ℕ) (call : HistoryCall) (now : ℚ)
  /-- `get_history` returns. -/
  | historyArrives (id : ℕ) (rows : HistoryRows) (now : ℚ)
  /-- The feeds that `_today_session_bars` asks have answered. -/
  | curvesArrive (id : ℕ) (tickertape bse : Option IntradayCurve) (now : ℚ)
  /-- `sb_cache_clear`. -/
  | clear

namespace HistoryState

variable (cfg : HistorySettings)

def await (id : ℕ) (w : Option Waiting) (s : HistoryState) : HistoryState :=
  { s with waiting := Function.update s.waiting id w }

def serve (r : HistoryResponse) (s : HistoryState) : HistoryState :=
  { s with served := s.served ++ [r] }

/-- `sb_history` after `_cached_history`, up to its end or to the wait for a curve. Daily and weekly
    candles have no part of today. -/
def withHistory (id : ℕ) (req : HistoryRequest) (rows : HistoryRows) (now : ℚ)
    (s : HistoryState) : HistoryState :=
  match req.code.bucket with
  | none => s
  | some bucket =>
    let today := istDay now
    if req.covers today then
      let (hit, cache) := s.todayCache.get cfg.todayTtl (req.todayKey bucket) now
      let s := { s with todayCache := cache }
      match hit with
      | some bars => s.serve (historyResponse rows today bars.candles)
      | none => s.await id (some (.curves req bucket rows today))
    else s.serve (historyResponse rows today [])

def step (s : HistoryState) : HistoryAction → Option HistoryState
  | .request id call now =>
    if (s.waiting id).isSome then none
    else
      match historyRequest call now with
      | .error _ => some s
      | .ok req =>
        let (hit, cache) := s.histCache.get cfg.histTtl req.historyKey now
        let s := { s with histCache := cache }
        match hit with
        | some rows => some (s.withHistory cfg id req rows now)
        | none => some (s.await id (some (.history req)))
  | .historyArrives id rows now =>
    match s.waiting id with
    | some (.history req) =>
      let cache := s.histCache.put cfg.histBudget (fun rows => sizeofList rows.rows.length)
        req.historyKey rows now
      some (({ s with histCache := cache }.await id none).withHistory cfg id req rows now)
    | _ => none
  | .curvesArrive id tickertape bse now =>
    match s.waiting id with
    | some (.curves req bucket rows today) =>
      let bars := TodayBars.fetch tickertape bse today bucket
      let cache := s.todayCache.put cfg.todayBudget (fun bars => sizeofList bars.candles.length)
        (req.todayKey bucket) bars now
      some (({ s with todayCache := cache }.await id none).serve
        (historyResponse rows today bars.candles))
    | _ => none
  | .clear => some { s with histCache := s.histCache.clear, todayCache := s.todayCache.clear }

end HistoryState

end BharatTicker
