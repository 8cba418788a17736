/-
  File:      BharatTicker/IntradayStore.lean
  Subject:   THE DURABLE 1-SECOND STORE (`engine/intraday_store.py`, `db/queries.py`).

  The table `intraday_candles` is a list of rows under distinct primary keys; the statements that
  the store runs are functions of it.

  * `IntradayTable.upsert` -- `INSERT ... ON CONFLICT DO UPDATE`;
  * `getIntradayCandles`, `countIntraday` -- the two `SELECT`s;
  * `flushRows` -- the rows that `flush_live_to_store` writes;
  * `readPastIntraday` -- `read_past_intraday`.

  A day is the number of days since the epoch, and lies at the fixed IST offset.
-/
import BharatTicker.LiveCandles

namespace BharatTicker

open Basis

/-! ## 1. The table -/

/-- The primary key `(symbol, exchange, time)`. -/
structure IntradayKey where
  symbol : String
  exchange : String
  time : ℚ
  deriving DecidableEq, Repr

/-- The columns `open`, `high`, `low`, `close`, `volume`. -/
abbrev RowBar := Bar ℚ ℤ

structure IntradayTable where
  rows : List (IntradayKey × RowBar) := []
  primaryKey : (rows.map Prod.fst).Nodup := by exact List.nodup_nil

namespace IntradayTable

/-- `INSERT_INTRADAY_CANDLE`, one row. -/
def upsert (t : IntradayTable) (r : IntradayKey × RowBar) : IntradayTable where
  rows := assign t.rows r.1 r.2
  primaryKey := nodup_keys_assign t.primaryKey r.1 r.2

/-- `upsert_intraday_candles`: all rows, in one commit. -/
def upsertAll (t : IntradayTable) (rows : List (IntradayKey × RowBar)) : IntradayTable :=
  rows.foldl upsert t

/-- The row under a key. -/
def row? (t : IntradayTable) (k : IntradayKey) : Option RowBar := entryAt t.rows k

theorem upsertAll_rows (t : IntradayTable) (rows : List (IntradayKey × RowBar)) :
    (t.upsertAll rows).rows = rows.foldl (fun l r => assign l r.1 r.2) t.rows := by
  unfold upsertAll
  induction rows generalizing t with
  | nil => rfl
  | cons r rows ih => exact ih (t.upsert r)

/-- After the commit: what was written, and elsewhere what there was. -/
theorem row?_upsertAll (t : IntradayTable) {rows : List (IntradayKey × RowBar)}
    (h : (rows.map Prod.fst).Nodup) (k : IntradayKey) :
    (t.upsertAll rows).row? k = (entryAt rows k).or (t.row? k) := by
  unfold row?
  rw [upsertAll_rows, entryAt_foldl_assign rows t.rows h]

end IntradayTable

/-! ## 2. The queries -/

/-- `WHERE symbol = ... AND exchange = ... AND time >= ... AND time < ...`. -/
def selectWindow (t : IntradayTable) (symbol exchange : String) (start stop : ℚ) :
    List (IntradayKey × RowBar) :=
  t.rows.filter fun r => r.1.symbol = symbol && r.1.exchange = exchange &&
    decide (start ≤ r.1.time) && decide (r.1.time < stop)

/-- `COUNT_INTRADAY_DAY`. -/
def countIntraday (t : IntradayTable) (symbol exchange : String) (start stop : ℚ) : Nat :=
  (selectWindow t symbol exchange start stop).length

/-- `to_timestamp(floor(extract(epoch FROM time) / :bucket_s) * :bucket_s)`. -/
def bucketOf (bucketS : ℚ) (r : IntradayKey × RowBar) : ℚ := ⌊r.1.time / bucketS⌋ * bucketS

/-- The aggregates over the rows of one bucket. -/
def groupBar (g : List (IntradayKey × RowBar)) : RowBar :=
  let asc := g.insertionSort fun r s => r.1.time ≤ s.1.time
  let desc := g.insertionSort fun r s => s.1.time ≤ r.1.time
  { opening := (asc.head?.map (·.2.opening)).getD 0
    high := (g.map (·.2.high)).max?.getD 0
    low := (g.map (·.2.low)).min?.getD 0
    close := (desc.head?.map (·.2.close)).getD 0
    volume := (g.map (·.2.volume)).sum }

/-- `GET_INTRADAY_CANDLES`: each bucket with its aggregates, in order. -/
def getIntradayCandles (t : IntradayTable) (symbol exchange : String) (bucketS start stop : ℚ) :
    List (ℚ × RowBar) :=
  let sel := selectWindow t symbol exchange start stop
  (((sel.map (bucketOf bucketS)).dedup).insertionSort (· ≤ ·)).map fun b =>
    (b, groupBar (sel.filter fun r => bucketOf bucketS r = b))

/-! ## 3. Flushing and reading -/

/-- The row of a candle. -/
def rowOf (symbol exchange : String) (c : Candle) : IntradayKey × RowBar :=
  (⟨upper symbol, upper exchange, c.timestamp⟩, c.toBar)

/-- The rows of `flush_live_to_store`: the candles that do not lie before `since`. -/
def flushRows (symbol exchange : String) (since : Option ℚ) (candles : List Candle) :
    List (IntradayKey × RowBar) :=
  (candles.filter fun c => since.all fun s => !decide (c.timestamp < s)).map (rowOf symbol exchange)

/-- `_day_window`: midnight to midnight, IST. -/
def dayWindow (day : ℤ) : ℚ × ℚ := (day * 86400 - 19800, (day + 1) * 86400 - 19800)

/-- One candle of the answer. -/
def candleOfRow (r : ℚ × RowBar) : Candle where
  toBar := r.2.map (roundTo 2) id
  timestamp := r.1

/-- `read_past_intraday`: `none` without a store; else `captured` and `candles`. -/
def readPastIntraday (isConnected : Bool) (t : IntradayTable) (symbol exchange : String)
    (bucketSeconds : ℚ) (day : ℤ) : Option (Bool × List Candle) :=
  if !isConnected then none
  else
    let start := (dayWindow day).1
    let stop := (dayWindow day).2
    let bucketS : ℚ := max 1 (roundHalfEven bucketSeconds)
    if countIntraday t (upper symbol) (upper exchange) start stop = 0 then some (false, [])
    else some (true, (getIntradayCandles t (upper symbol) (upper exchange) bucketS start stop).map
      candleOfRow)

end BharatTicker
