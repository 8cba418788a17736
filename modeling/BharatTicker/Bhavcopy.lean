/-
  File:      BharatTicker/Bhavcopy.lean
  Subject:   THE END-OF-DAY FILES (`providers/nse_archive.py`: `_ensure_loaded`, `_download`;
             `providers/bse_master.py`: `ensure_loaded`, `_download`).

  Both loaders walk back from the current day and take the first file that downloads. The lock lets
  one attempt run at a time, so an attempt is one step; the times of its clock readings are its
  input, and what each download ends in. A date is the number of its day; its text, by which the
  code names a file, is the same for the same day only.

  * `HttpResponse`, `nseRows`, `bseRows` -- a file and what is kept of it;
  * `Bhavcopy` -- what a loader holds;
  * `nseWalk`, `bseWalk`, `ensureLoaded` -- one attempt;
  * `step` -- attempts at non-decreasing times.
-/
import BharatTicker.Basis.Dict
import BharatTicker.Basis.Run
import BharatTicker.IstClock
import BharatTicker.MarketData

namespace BharatTicker

open Basis

/-! ## 1. Files -/

/-- A row of the file, its columns stripped. -/
abbrev BhavRow := Dict String String

/-- `row.get(column) or ""`. -/
def BhavRow.column (row : BhavRow) (name : String) : String := (Dict.get? row name).getD ""

/-- The rows of a file by symbol. -/
abbrev BhavRows := Dict String BhavRow

/-- A response, with what `csv.DictReader` makes of its text: the cells of each row under the names
    of their columns; `none` where a row has more cells than there are columns, on which the loop
    raises. -/
structure HttpResponse where
  statusCode : ℕ
  text : String
  table : Option (List (List (String × String)))
  deriving DecidableEq, Repr

/-- `"<html" in resp.text[:200].lower()`. -/
def HttpResponse.isHtml (resp : HttpResponse) : Bool :=
  decide ("<html".toList <:+: lower (String.ofList (resp.text.toList.take 200)))

/-- `{(k or "").strip(): (v or "").strip() for k, v in raw.items()}`. -/
def stripRow (raw : List (String × String)) : BhavRow :=
  Dict.update [] (raw.map fun cell => (strip cell.1, strip cell.2))

/-- `out or None`. -/
def orNone (rows : BhavRows) : Option BhavRows := if rows = [] then none else some rows

/-- The rows that `NSEArchiveProvider._download` keeps: the last one of a symbol wins. -/
def nseKeep (out : BhavRows) (raw : List (String × String)) : BhavRows :=
  let row := stripRow raw
  let sym := row.column "SYMBOL"
  if sym ≠ "" ∧ row.column "SERIES" ∈ ["EQ", "BE", "BZ", "SM", "ST"] then
    Dict.set out (upper sym) row
  else out

/-- `NSEArchiveProvider._download`, once the request has returned. -/
def nseRows (resp : HttpResponse) : Option BhavRows :=
  if resp.statusCode ≠ 200 ∨ resp.text = "" ∨ resp.isHtml = true then none
  else resp.table.bind fun table => orNone (table.foldl nseKeep [])

/-- `KEEP_SERIES`. -/
def keepSeries : List String := ["A", "B", "T", "X", "XT", "M", "MT", "P", "Z", "ZP", "W"]

/-- The rows that `BSEMaster._download` keeps: the first one of a symbol wins. -/
def bseKeep (out : BhavRows) (raw : List (String × String)) : BhavRows :=
  let row := stripRow raw
  let sym := upper (row.column "TckrSymb")
  let series := strip (row.column "SctySrs")
  if sym ≠ "" ∧ strip (row.column "FinInstrmTp") = "STK" ∧ (series ∈ keepSeries ∨ series = "") then
    if sym ∈ Dict.keys out then out else Dict.set out sym row
  else out

/-- `BSEMaster._download`, once the request has returned. -/
def bseRows (resp : HttpResponse) : Option BhavRows :=
  if resp.statusCode ≠ 200 ∨ resp.isHtml = true then none
  else resp.table.bind fun table => orNone (table.foldl bseKeep [])

/-! ## 2. Loaders -/

/-- `_rows`, `_loaded_date`, `_loaded_at`, `_last_attempt`, the clock, and a ghost: the files asked
    for so far, with the day each was asked for. -/
structure Bhavcopy where
  rows : BhavRows := []
  loadedDate : Option ℤ := none
  loadedAt : ℚ := 0
  lastAttempt : ℚ := 0
  now : ℚ := 0
  downloads : List (ℤ × Option HttpResponse) := []

/-- One round of the walk: when the day is read off the clock, what the download returns (`none`
    where it raises), and when it is over. -/
structure DayTry where
  askedAt : ℚ
  response : Option HttpResponse
  answeredAt : ℚ

/-- One attempt. There are fewer than eight tries where the attempt is cancelled. -/
structure LoadCall where
  calledAt : ℚ
  tries : List DayTry

/-- The readings of the clock in the order in which they are taken. -/
def LoadCall.times (call : LoadCall) : List ℚ :=
  call.calledAt :: call.tries.flatMap fun t => [t.askedAt, t.answeredAt]

namespace Bhavcopy

/-- A download is made for `day`. -/
def asked (day : ℤ) (t : DayTry) (s : Bhavcopy) : Bhavcopy :=
  { s with downloads := s.downloads ++ [(day, t.response)] }

/-- `_rows`, `_loaded_date` and `_loaded_at` of the file just downloaded. -/
def load (day : ℤ) (rows : BhavRows) (t : DayTry) (s : Bhavcopy) : Bhavcopy :=
  { s with rows := rows, loadedDate := some day, loadedAt := t.answeredAt }

/-- The loop of `NSEArchiveProvider._ensure_loaded` from `back` on. It ends at the loaded day. -/
def nseWalk : ℕ → List DayTry → Bhavcopy → Bhavcopy
  | _, [], s => s
  | back, t :: tries, s =>
    let day := istDay t.askedAt - back
    if s.loadedDate = some day ∧ s.rows ≠ [] then s
    else
      match t.response.bind nseRows with
      | some rows => (s.asked day t).load day rows t
      | none => nseWalk (back + 1) tries (s.asked day t)

/-- The loop of `BSEMaster.ensure_loaded` from `back` on. -/
def bseWalk : ℕ → List DayTry → Bhavcopy → Bhavcopy
  | _, [], s => s
  | back, t :: tries, s =>
    let day := istDay t.askedAt - back
    match t.response.bind bseRows with
    | some rows => (s.asked day t).load day rows t
    | none => bseWalk (back + 1) tries (s.asked day t)

/-- Nothing is due: what is loaded is less than an hour old, or nothing is and an attempt was made
    less than two minutes ago. -/
def idle (s : Bhavcopy) (now : ℚ) : Prop :=
  (s.rows ≠ [] ∧ now - s.loadedAt < 3600) ∨ (s.rows = [] ∧ now - s.lastAttempt < 120)

instance (s : Bhavcopy) (now : ℚ) : Decidable (s.idle now) := by
  unfold idle
  infer_instance

/-- `_ensure_loaded` and `ensure_loaded`, around their loops. -/
def ensureLoaded (walk : ℕ → List DayTry → Bhavcopy → Bhavcopy) (call : LoadCall) (s : Bhavcopy) :
    Bhavcopy :=
  if s.idle call.calledAt then s
  else walk 0 (call.tries.take 8) { s with lastAttempt := call.calledAt }

/-- An attempt, its times not before the last one's. -/
def step (walk : ℕ → List DayTry → Bhavcopy → Bhavcopy) (s : Bhavcopy) (call : LoadCall) :
    Option Bhavcopy :=
  if (s.now :: call.times).Pairwise (· ≤ ·) then
    some { s.ensureLoaded walk call with now := call.times.getLastD s.now }
  else none

/-- `NSEArchiveProvider._ensure_loaded`. -/
def nseStep : Bhavcopy → LoadCall → Option Bhavcopy := step nseWalk

/-- `BSEMaster.ensure_loaded`. -/
def bseStep : Bhavcopy → LoadCall → Option Bhavcopy := step bseWalk

end Bhavcopy

end BharatTicker
