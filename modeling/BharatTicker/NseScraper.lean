/-
  File:      BharatTicker/NseScraper.lean
  Subject:   THE NSE SCRAPER (`providers/nse_scraper.py`), shared by any number of calls.

  A call of `connect`, `fetch_quote` or `health_check` suspends where it waits for `_lock`, where it
  awaits an answer of the home page, of the browser or of a request, and where an old session is
  closed. Between these the calls take their steps in any order. Every reading of the clock has its own
  time; nobody cancels a call. What the cookies are, and what a tick is made of, is left out. `log` is a
  ghost: the requests that left, and where the first quote request of a call was blocked, newest first.

  * `ScraperPhase`, `ScraperPoint` -- where a call stands, and where it goes on after a refresh;
  * `NSEScraper`, `ensure`, `resume`, `connect`, `refreshed`, `quoted` -- the methods;
  * `ScraperAction`, `step` -- the calls' steps.
-/
import BharatTicker.Basis.Run

namespace BharatTicker

open Basis

/-! ## 1. Calls -/

/-- `session_refresh_interval_seconds`, and `proxy_pool.count`. -/
structure ScraperSettings where
  refreshInterval : ℤ := 90
  proxyCount : ℕ := 0

/-- The quote requests of one call of `fetch_quote`. -/
inductive QuoteAttempt where
  | first
  | retry
  /-- On the next proxy. -/
  | rotated
  deriving DecidableEq, Repr

/-- What called `connect`. -/
inductive AfterConnect where
  | nothing
  | fetchQuote
  | rotateSession
  deriving DecidableEq, Repr

/-- Where a call goes on after `_refresh_cookies`. -/
inductive ScraperPoint where
  /-- In `connect`. -/
  | connected (next : AfterConnect)
  | quote (attempt : QuoteAttempt)
  /-- In `health_check`. -/
  | status
  deriving DecidableEq, Repr

/-- How far `_refresh_cookies` has got. -/
inductive RefreshStage where
  /-- It awaits the lock. -/
  | waiting
  /-- It holds the lock and awaits the home page. -/
  | home
  /-- It holds the lock and awaits the browser. -/
  | playwright
  deriving DecidableEq, Repr

/-- What a call ends with: a tick, an exception with its status, or an answer of `health_check`. -/
inductive ScraperResult where
  | nothing
  | tick
  | providerBlocked
  | providerError (status : Option ℕ)
  | healthy (ok : Bool)
  deriving DecidableEq, Repr

inductive ScraperPhase where
  | idle
  | refreshing (stage : RefreshStage) (next : ScraperPoint)
  | quoting (attempt : QuoteAttempt)
  /-- It closes the session, in `_rotate_session`. -/
  | rotating
  /-- It awaits the market status. -/
  | checking
  | done (result : ScraperResult)
  deriving DecidableEq, Repr

inductive ScraperEvent where
  | home
  | quote (task : ℕ) (attempt : QuoteAttempt)
  | status (task : ℕ)
  /-- The first quote request of the call got a 403. -/
  | blocked (task : ℕ)
  deriving DecidableEq, Repr

/-- `_session`, `_is_connected`, `_last_cookie_refresh`, `_lock`, the calls and the clock. -/
structure NSEScraper where
  clock : ℚ
  session : Bool := false
  isConnected : Bool := false
  lastCookieRefresh : ℚ := 0
  lock : Option ℕ := none
  tasks : ℕ → ScraperPhase := fun _ => .idle
  log : List ScraperEvent := []

/-- How an awaited request ends; `usable`: its body is parsed. -/
inductive ScraperAnswer where
  | response (status : ℕ) (usable : Bool := true)
  | raised
  deriving DecidableEq, Repr

/-- `resp.status_code`. -/
def ScraperAnswer.status : ScraperAnswer → Option ℕ
  | .response status _ => some status
  | .raised => none

/-- The steps of a call, with its readings of the clock in their order. -/
inductive ScraperAction where
  | connect (task : ℕ) (t : ℚ)
  | fetchQuote (task : ℕ) (t : ℚ)
  | healthCheck (task : ℕ) (t : ℚ)
  /-- `disconnect` has closed the session. -/
  | disconnect (t : ℚ)
  /-- It gets the lock and reads the clock at `t`; where it goes on at once, `_ensure_fresh_cookies` reads
      it at `u`. -/
  | lock (task : ℕ) (t u : ℚ)
  /-- The home page answers; `t` is noted. -/
  | home (task : ℕ) (answer : ScraperAnswer) (t u : ℚ)
  /-- The browser has the cookies, or has failed. -/
  | playwright (task : ℕ) (ok : Bool) (t u : ℚ)
  | quoted (task : ℕ) (answer : ScraperAnswer) (t : ℚ)
  /-- The old session is closed. -/
  | closed (task : ℕ) (t : ℚ)
  | checked (task : ℕ) (answer : ScraperAnswer) (t : ℚ)
  deriving DecidableEq, Repr

namespace NSEScraper

/-! ## 2. The methods -/

/-- A new scraper, a clock that shows `now`. -/
def init (now : ℚ) : NSEScraper where
  clock := now

variable (cfg : ScraperSettings) (s : NSEScraper)

def setTask (i : ℕ) (phase : ScraperPhase) : NSEScraper :=
  { s with tasks := Function.update s.tasks i phase }

/-- A request leaves, if there is a session. -/
def send (i : ℕ) (event : ScraperEvent) (phase : ScraperPhase) (failed : ScraperResult) : NSEScraper :=
  if s.session then { s.setTask i phase with log := event :: s.log } else s.setTask i (.done failed)

/-- The quote request. -/
def sendQuote (i : ℕ) (attempt : QuoteAttempt) : NSEScraper :=
  s.send i (.quote i attempt) (.quoting attempt) (.providerError none)

/-- The request of `health_check`. -/
def sendStatus (i : ℕ) : NSEScraper := s.send i (.status i) .checking (.healthy false)

/-- `_ensure_fresh_cookies`, and the quote request. -/
def ensureQuote (i : ℕ) (attempt : QuoteAttempt) (u : ℚ) : NSEScraper :=
  let elapsed := u - s.lastCookieRefresh
  if cfg.refreshInterval < elapsed then s.setTask i (.refreshing .waiting (.quote attempt))
  else s.sendQuote i attempt

/-- What follows a refresh that has returned. -/
def resume (i : ℕ) (u : ℚ) : ScraperPoint → NSEScraper
  | .connected .nothing => { s with isConnected := true }.setTask i (.done .nothing)
  | .connected .fetchQuote => { s with isConnected := true }.ensureQuote cfg i .first u
  | .connected .rotateSession => { s with isConnected := true }.ensureQuote cfg i .rotated u
  | .quote attempt => s.sendQuote i attempt
  | .status => s.sendStatus i

/-- What an exception of `_refresh_cookies` becomes. -/
def refreshFailed : ScraperPoint → ScraperResult
  | .connected _ | .quote _ => .providerError none
  | .status => .healthy false

/-- `connect`, of a scraper that is not connected, up to the lock. -/
def connect (i : ℕ) (next : AfterConnect) : NSEScraper :=
  { s with session := true }.setTask i (.refreshing .waiting (.connected next))

/-- `_rotate_session` from where the old session is gone. -/
def rotate (i : ℕ) : NSEScraper :=
  { s with session := false, lastCookieRefresh := 0, isConnected := false }.connect i .rotateSession

/-- The answer to a quote request. -/
def quoted (i : ℕ) (attempt : QuoteAttempt) : ScraperAnswer → NSEScraper
  | .raised => s.setTask i (.done (.providerError none))
  | .response status usable =>
    if status = 403 then
      match attempt with
      | .first =>
        { s.setTask i (.refreshing .waiting (.quote .retry)) with log := .blocked i :: s.log }
      | .retry =>
        if 1 < cfg.proxyCount then
          if s.session then s.setTask i .rotating else s.rotate i
        else s.setTask i (.done .providerBlocked)
      | .rotated => s.setTask i (.done .providerBlocked)
    else if status ≠ 200 then s.setTask i (.done (.providerError (some status)))
    else s.setTask i (.done (if usable then .tick else .providerError none))

/-- `_refresh_cookies` from where it has the lock. -/
def locked (i : ℕ) (next : ScraperPoint) (t u : ℚ) : NSEScraper :=
  if t - s.lastCookieRefresh < cfg.refreshInterval then s.resume cfg i u next
  else if s.session then
    { s.setTask i (.refreshing .home next) with lock := some i, log := .home :: s.log }
  else s.setTask i (.done (refreshFailed next))

/-- The answer of the home page. -/
def homeAnswered (i : ℕ) (next : ScraperPoint) (t u : ℚ) : ScraperAnswer → NSEScraper
  | .raised => { s with lock := none }.setTask i (.done (refreshFailed next))
  | .response status _ =>
    if status = 200 then { s with lock := none, lastCookieRefresh := t }.resume cfg i u next
    else if status = 403 then s.setTask i (.refreshing .playwright next)
    else { s with lock := none }.resume cfg i u next

/-- `_playwright_cookie_fallback` has returned; its exceptions are swallowed. -/
def browserDone (i : ℕ) (next : ScraperPoint) (ok : Bool) (t u : ℚ) : NSEScraper :=
  { s with lock := none, lastCookieRefresh := if ok then t else s.lastCookieRefresh }.resume cfg i u next

/-! ## 3. Steps -/

/-- The state that a step leads to, its clock aside. -/
def next (cfg : ScraperSettings) (s : NSEScraper) : ScraperAction → Option NSEScraper
  | .connect i _ =>
    if s.tasks i = .idle then
      some (if s.isConnected then s.setTask i (.done .nothing) else s.connect i .nothing)
    else none
  | .fetchQuote i t =>
    if s.tasks i = .idle then
      some (if s.isConnected then s.ensureQuote cfg i .first t else s.connect i .fetchQuote)
    else none
  | .healthCheck i t =>
    if s.tasks i = .idle then
      some (
        if !s.isConnected then s.setTask i (.done (.healthy false))
        else if cfg.refreshInterval < t - s.lastCookieRefresh then
          s.setTask i (.refreshing .waiting .status)
        else s.sendStatus i)
    else none
  | .disconnect _ => some { s with session := false, isConnected := false }
  | .lock i t u =>
    match s.tasks i with
    | .refreshing .waiting next => if s.lock = none then some (s.locked cfg i next t u) else none
    | _ => none
  | .home i answer t u =>
    match s.tasks i with
    | .refreshing .home next => some (s.homeAnswered cfg i next t u answer)
    | _ => none
  | .playwright i ok t u =>
    match s.tasks i with
    | .refreshing .playwright next => some (s.browserDone cfg i next ok t u)
    | _ => none
  | .quoted i answer _ =>
    match s.tasks i with
    | .quoting attempt => some (s.quoted cfg i attempt answer)
    | _ => none
  | .closed i _ => if s.tasks i = .rotating then some (s.rotate i) else none
  | .checked i answer _ =>
    if s.tasks i = .checking then
      some (s.setTask i (.done (.healthy (answer.status = some 200))))
    else none

end NSEScraper

/-- The readings of the clock of a step, the first and the last. -/
def ScraperAction.times : ScraperAction → ℚ × ℚ
  | .connect _ t | .fetchQuote _ t | .healthCheck _ t | .disconnect t | .quoted _ _ t | .closed _ t
  | .checked _ _ t => (t, t)
  | .lock _ t u | .home _ _ t u | .playwright _ _ t u => (t, u)

/-- One step of a call, on a clock that does not run backwards. -/
def NSEScraper.step (cfg : ScraperSettings) (s : NSEScraper) (a : ScraperAction) : Option NSEScraper :=
  if s.clock ≤ a.times.1 ∧ a.times.1 ≤ a.times.2 then
    (s.next cfg a).map fun s' => { s' with clock := a.times.2 }
  else none

end BharatTicker
