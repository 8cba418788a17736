/-
  File:      BharatTicker/LiveFeeds/Calls.lean
  Subject:   QUOTES OF THE LIVE FEEDS OVER ANY RUN (`providers/nse_live.py`, `providers/groww.py`:
             `fetch_quote`, `_resolve`; `providers/base.py`: `record_success`, `record_error`).

  Any number of calls are under way, and wait for the answers to their own requests. `str.upper` and
  `json.loads` are parameters, the latter `none` where it raises; the session and the texts of what is
  raised are not kept.

  * `ProviderMetrics`, `Accounted` -- what a provider counts, against how its calls ended;
  * `growwFetched`, `nseLiveFetched` -- an answer as a result of `fetch_quote`;
  * `suggestedCode`, `NSELiveProvider.step` -- the codes of Moneycontrol, and the calls;
  * `FeedInv`, `step_feedInv` -- every code is that of the symbol it is kept for;
  * `nse_live_calls` -- so no call returns the quote of a code that was found for another symbol, and
    what is counted are the calls that did not end with an empty payload.
-/
import BharatTicker.Basis.Run
import BharatTicker.Basis.Dict
import BharatTicker.LiveFeeds

namespace BharatTicker

open Basis

/-! ## 1. What is counted -/

/-- The counters of `DataProvider`. -/
structure ProviderMetrics where
  errorCount : ℕ := 0
  totalRequests : ℕ := 0
  totalLatencyMs : ℚ := 0
  deriving DecidableEq, Repr

namespace ProviderMetrics

/-- `record_success`. -/
def recordSuccess (latencyMs : ℚ) (m : ProviderMetrics) : ProviderMetrics :=
  { m with totalRequests := m.totalRequests + 1, totalLatencyMs := m.totalLatencyMs + latencyMs }

/-- `record_error`. -/
def recordError (m : ProviderMetrics) : ProviderMetrics :=
  { m with totalRequests := m.totalRequests + 1, errorCount := m.errorCount + 1 }

end ProviderMetrics

/-- The `ProviderError` of `fetch_quote`. -/
inductive FetchFailure where
  /-- `No Moneycontrol code for`, and the symbol. -/
  | noCode
  /-- `HTTP`, the status, `for` and the symbol. -/
  | http (statusCode : ℕ)
  /-- From `_parse`. -/
  | emptyPayload
  /-- `Failed`, the symbol and what was raised. -/
  | failed
  deriving DecidableEq, Repr

/-- How a call ended, and its latency. -/
structure FeedOutcome where
  result : Except FetchFailure FeedQuote
  latencyMs : ℚ

namespace FeedOutcome

/-- A quote was returned. -/
def isTick (o : FeedOutcome) : Bool := o.result.toOption.isSome

/-- The payload was empty: its `ProviderError` passes through `except ProviderError: raise`. -/
def isEmpty (o : FeedOutcome) : Bool :=
  match o.result with
  | .error .emptyPayload => true
  | _ => false

end FeedOutcome

/-- What `fetch_quote` records. -/
def ProviderMetrics.record (m : ProviderMetrics) (o : FeedOutcome) : ProviderMetrics :=
  match o.result with
  | .ok _ => m.recordSuccess o.latencyMs
  | .error .emptyPayload => m
  | .error .noCode | .error (.http _) | .error .failed => m.recordError

/-- **The counters, against how the calls ended.** -/
structure Accounted (m : ProviderMetrics) (outcomes : List FeedOutcome) : Prop where
  requests : m.totalRequests + outcomes.countP FeedOutcome.isEmpty = outcomes.length
  errors : m.errorCount + outcomes.countP FeedOutcome.isTick = m.totalRequests
  latency : m.totalLatencyMs = ((outcomes.filter FeedOutcome.isTick).map FeedOutcome.latencyMs).sum

theorem Accounted.start : Accounted {} [] := ⟨rfl, rfl, rfl⟩

section Accounted

variable {m : ProviderMetrics} {outcomes : List FeedOutcome} {o : FeedOutcome}

/-- A quote counts, with its latency. -/
theorem Accounted.tick (h : Accounted m outcomes) (htick : o.isTick = true) (hempty : ¬ o.isEmpty = true) :
    Accounted (m.recordSuccess o.latencyMs) (o :: outcomes) where
  requests := by
    rw [List.countP_cons_of_neg hempty, List.length_cons, ← h.requests]
    exact Nat.add_right_comm _ _ _
  errors := by
    rw [List.countP_cons_of_pos htick]
    exact congrArg (· + 1) h.errors
  latency := by
    rw [List.filter_cons_of_pos htick, List.map_cons, List.sum_cons, ← h.latency]
    exact add_comm _ _

/-- An empty payload does not count. -/
theorem Accounted.empty (h : Accounted m outcomes) (htick : ¬ o.isTick = true) (hempty : o.isEmpty = true) :
    Accounted m (o :: outcomes) where
  requests := by
    rw [List.countP_cons_of_pos hempty, List.length_cons, ← h.requests]
    rfl
  errors := by
    rw [List.countP_cons_of_neg htick]
    exact h.errors
  latency := by
    rw [List.filter_cons_of_neg htick]
    exact h.latency

/-- Any other failure counts as one. -/
theorem Accounted.error (h : Accounted m outcomes) (htick : ¬ o.isTick = true)
    (hempty : ¬ o.isEmpty = true) : Accounted m.recordError (o :: outcomes) where
  requests := by
    rw [List.countP_cons_of_neg hempty, List.length_cons, ← h.requests]
    exact Nat.add_right_comm _ _ _
  errors := by
    rw [List.countP_cons_of_neg htick]
    change m.errorCount + 1 + _ = m.totalRequests + 1
    rw [← h.errors]
    exact Nat.add_right_comm _ _ _
  latency := by
    rw [List.filter_cons_of_neg htick]
    exact h.latency

/-- **A call that ends keeps the account.** -/
theorem Accounted.record (h : Accounted m outcomes) (o : FeedOutcome) :
    Accounted (m.record o) (o :: outcomes) := by
  obtain ⟨result, latencyMs⟩ := o
  cases result with
  | ok t => exact h.tick rfl Bool.false_ne_true
  | error e =>
    cases e with
    | emptyPayload => exact h.empty Bool.false_ne_true rfl
    | noCode | http _ | failed => exact h.error Bool.false_ne_true Bool.false_ne_true

end Accounted

/-! ## 2. Answers -/

/-- An answer to a request: its status and text. -/
structure FeedResponse where
  statusCode : ℕ
  text : String
  deriving DecidableEq, Repr

/-- `text[:1] in "{["`: also of the empty text. -/
def startsJson (text : String) : Bool := text.toList.head?.all fun c => c = '{' || c = '['

/-- What `_parse` raises, as `fetch_quote` raises it. -/
def FetchFailure.ofParse : FeedFailure → FetchFailure
  | .emptyPayload => .emptyPayload
  | .quote _ => .failed

section Answers

variable (upper : String → String) (loads : String → Option PyJson)

/-- The `try` of `fetch_quote`: a response is read, and what is in it parsed. -/
def fetched (data : PyJson → Option (List (String × PyJson)))
    (parse : List (String × PyJson) → Except FeedFailure FeedQuote) :
    Option FeedResponse → Except FetchFailure FeedQuote
  | none => .error .failed
  | some r =>
    if r.statusCode ≠ 200 ∨ startsJson r.text = false then .error (.http r.statusCode)
    else
      match (loads r.text).bind data with
      | none => .error .failed
      | some d => (parse d).mapError .ofParse

/-- `GrowwProvider.fetch_quote`, once its request is answered, or raised. -/
def growwFetched (symbol : String) : Option FeedResponse → Except FetchFailure FeedQuote :=
  -- `r.json() or {}`
  fetched loads (fun j => (orEmpty j).toOption) fun d => growwParse upper d (upper symbol)

/-- `NSELiveProvider.fetch_quote`, once its request for the price is. -/
def nseLiveFetched (exCode : Exchange) (symbol : String) :
    Option FeedResponse → Except FetchFailure FeedQuote :=
  -- `(r.json() or {}).get("data", {})`
  fetched loads
    (fun j => (orEmpty j >>= fun e => asDict ((e.lookup "data").getD (.obj []))).toOption)
    fun d => nseLiveParse upper exCode d symbol

/-- `(x or "")`, of which a method of texts is called; `none` where that raises. -/
def textOr (x : PyJson) : Option String :=
  if x.truthy then
    match x with
    | .str s => some s
    | _ => none
  else some ""

/-- The first code in the rows of a suggestion; `none` where a row raises. -/
def firstCode : List PyJson → Option (Option String)
  | [] => some none
  | .obj entries :: rows =>
    (textOr (jsonGet entries "sc_id")).bind fun sc =>
      -- the name is read, but not compared with the symbol
      (textOr (jsonGet entries "link_src")).bind fun _ =>
        if stripSpaces sc.toList ≠ [] then some (some (String.ofList (stripSpaces sc.toList)))
        else firstCode rows
  | _ :: _ => none

/-- `r.text.strip().lstrip("(").rstrip(");").rstrip(")")`. -/
def suggestText (text : String) : String :=
  String.ofList ((((stripSpaces text.toList).dropWhile (· = '(')).rdropWhile
    fun c => c = ')' || c = ';').rdropWhile (· = ')'))

/-- The code in a suggestion, if there is one and nothing raises. -/
def suggestedCode (text : String) : Option String :=
  let txt := suggestText text
  if startsJson txt then
    match loads txt with
    | some (.arr rows) => (firstCode rows).join
    | _ => none
  else none

end Answers

/-! ## 3. The provider -/

/-- Where a call of `fetch_quote` is. -/
inductive FeedCall where
  | idle
  /-- It waits for a suggestion. -/
  | resolving (symbol : String)
  /-- It waits for the price of a code. -/
  | pricing (symbol code : String)
  deriving DecidableEq, Repr

/-- What happened, as far as the codes and results go. -/
inductive FeedEvent where
  /-- A request for suggestions for a symbol was answered with a code. -/
  | suggested (symbol code : String)
  /-- A call ended. -/
  | finished (symbol : String) (code : Option String) (outcome : FeedOutcome)

def FeedEvent.outcome : FeedEvent → Option FeedOutcome
  | .suggested .. => none
  | .finished _ _ o => some o

/-- `_sc`, the counters, the calls, and the events, newest first. -/
structure NSELiveProvider where
  sc : Dict String String
  metrics : ProviderMetrics := {}
  calls : ℕ → FeedCall := fun _ => .idle
  log : List FeedEvent := []

/-- What calls do, and what they are answered. -/
inductive FeedAction where
  | fetchQuote (call : ℕ) (symbol : String)
  | suggest (call : ℕ) (text : Option String)
  | price (call : ℕ) (response : Option FeedResponse) (latencyMs : ℚ)

namespace NSELiveProvider

variable (upper : String → String) (loads : String → Option PyJson) (exCode : Exchange)

def setCall (i : ℕ) (c : FeedCall) (s : NSELiveProvider) : NSELiveProvider :=
  { s with calls := Function.update s.calls i c }

/-- A call ends. -/
def finish (i : ℕ) (symbol : String) (code : Option String) (o : FeedOutcome)
    (s : NSELiveProvider) : NSELiveProvider :=
  { s.setCall i .idle with
    metrics := s.metrics.record o
    log := .finished symbol code o :: s.log }

/-- `_resolve` returned. -/
def resolved (i : ℕ) (symbol : String) (code : Option String) (s : NSELiveProvider) : NSELiveProvider :=
  match code.filter (· ≠ "") with
  | some code => s.setCall i (.pricing symbol code)
  | none => s.finish i symbol none ⟨.error .noCode, 0⟩

/-- A suggestion with a code is kept for the symbol. -/
def learn (symbol code : String) (s : NSELiveProvider) : NSELiveProvider :=
  { s with
    sc := Dict.set s.sc (upper symbol) code
    log := .suggested (upper symbol) code :: s.log }

/-- One action. -/
def step (s : NSELiveProvider) : FeedAction → Option NSELiveProvider
  | .fetchQuote i symbol =>
    if s.calls i = .idle then
      match Dict.get? s.sc (upper symbol) with
      | some code => some (s.resolved i symbol (some code))
      | none => some (s.setCall i (.resolving symbol))
    else none
  | .suggest i text =>
    match s.calls i with
    | .resolving symbol =>
      match text.bind (suggestedCode loads) with
      | some code => some ((s.learn upper symbol code).resolved i symbol (some code))
      | none => some (s.resolved i symbol none)
    | .idle | .pricing .. => none
  | .price i response latencyMs =>
    match s.calls i with
    | .pricing symbol code =>
      some (s.finish i symbol (some code) ⟨nseLiveFetched upper loads exCode symbol response, latencyMs⟩)
    | .idle | .resolving _ => none

end NSELiveProvider

/-! ## 4. The invariant -/

/-- A code that is the seed's, or was suggested for the symbol. -/
def Known (seed : Dict String String) (log : List FeedEvent) (symbol code : String) : Prop :=
  Dict.get? seed symbol = some code ∨ .suggested symbol code ∈ log

structure FeedInv (upper : String → String) (exCode : Exchange) (seed : Dict String String)
    (s : NSELiveProvider) : Prop where
  seeds : ∀ k c, Dict.get? seed k = some c → Dict.get? s.sc k = some c
  codes : ∀ k c, Dict.get? s.sc k = some c → Known seed s.log k c
  resolving : ∀ i symbol, s.calls i = .resolving symbol → Dict.get? seed (upper symbol) = none
  pricing : ∀ i symbol code, s.calls i = .pricing symbol code → Known seed s.log (upper symbol) code
  ticks : ∀ symbol code t latencyMs, .finished symbol code ⟨.ok t, latencyMs⟩ ∈ s.log →
    FeedTick (normalizeSymbol upper (upper symbol)) exCode (nseLiveName exCode) t ∧
      ∃ c, code = some c ∧ Known seed s.log (upper symbol) c
  account : Accounted s.metrics (s.log.filterMap FeedEvent.outcome)

section Calls

variable {upper : String → String} {loads : String → Option PyJson} {exCode : Exchange}
  {seed : Dict String String} {s s' : NSELiveProvider} {i : ℕ} {symbol : String}

theorem Known.cons {log : List FeedEvent} {code : String} (h : Known seed log symbol code)
    (e : FeedEvent) : Known seed (e :: log) symbol code := h.imp_right (List.mem_cons_of_mem e)

/-- What is returned was parsed from an answer. -/
theorem fetched_eq_ok {data : PyJson → Option (List (String × PyJson))}
    {parse : List (String × PyJson) → Except FeedFailure FeedQuote} {r : Option FeedResponse}
    {t : FeedQuote} (h : fetched loads data parse r = .ok t) : ∃ d, parse d = .ok t := by
  cases r with
  | none => cases h
  | some r =>
    unfold fetched at h
    dsimp only at h
    split at h
    · cases h
    · split at h
      · cases h
      · rename_i d hd
        exact ⟨d, mapError_eq_ok.1 h⟩

theorem nseLiveFetched_feedTick {r : Option FeedResponse} {t : FeedQuote}
    (h : nseLiveFetched upper loads exCode symbol r = .ok t) :
    FeedTick (normalizeSymbol upper (upper symbol)) exCode (nseLiveName exCode) t := by
  obtain ⟨d, hd⟩ := fetched_eq_ok h
  exact nseLiveParse_feedTick hd

theorem growwFetched_feedTick {r : Option FeedResponse} {t : FeedQuote}
    (h : growwFetched upper loads symbol r = .ok t) :
    FeedTick (normalizeSymbol upper (upper symbol)) .NSE "groww" t := by
  obtain ⟨d, hd⟩ := fetched_eq_ok h
  exact growwParse_feedTick hd

/-- A call moves on. -/
theorem setCall_inv (h : FeedInv upper exCode seed s) {c : FeedCall}
    (hresolving : ∀ symbol, c = .resolving symbol → Dict.get? seed (upper symbol) = none)
    (hpricing : ∀ symbol code, c = .pricing symbol code → Known seed s.log (upper symbol) code) :
    FeedInv upper exCode seed (s.setCall i c) where
  seeds := h.seeds
  codes := h.codes
  resolving j symbol hj := by
    by_cases hji : j = i
    · subst hji
      have hself : Function.update s.calls j c j = .resolving symbol := hj
      rw [Function.update_self] at hself
      exact hresolving symbol hself
    · have hother : Function.update s.calls i c j = .resolving symbol := hj
      rw [Function.update_of_ne hji] at hother
      exact h.resolving j symbol hother
  pricing j symbol code hj := by
    by_cases hji : j = i
    · subst hji
      have hself : Function.update s.calls j c j = .pricing symbol code := hj
      rw [Function.update_self] at hself
      exact hpricing symbol code hself
    · have hother : Function.update s.calls i c j = .pricing symbol code := hj
      rw [Function.update_of_ne hji] at hother
      exact h.pricing j symbol code hother
  ticks := h.ticks
  account := h.account

/-- **A call ends**, with a quote only of a code that is known for the symbol. -/
theorem finish_inv (h : FeedInv upper exCode seed s) {code : Option String} {o : FeedOutcome}
    (ho : ∀ t, o.result = .ok t →
      FeedTick (normalizeSymbol upper (upper symbol)) exCode (nseLiveName exCode) t ∧
        ∃ c, code = some c ∧ Known seed s.log (upper symbol) c) :
    FeedInv upper exCode seed (s.finish i symbol code o) := by
  have hidle : FeedInv upper exCode seed (s.setCall i .idle) :=
    setCall_inv h (fun _ e => by cases e) (fun _ _ e => by cases e)
  refine ⟨hidle.seeds, fun k c hk => (hidle.codes k c hk).cons _, hidle.resolving,
    fun j symbol code hj => (hidle.pricing j symbol code hj).cons _, fun symbol' code' t latencyMs ht => ?_,
    h.account.record o⟩
  rcases List.mem_cons.mp ht with e | ht
  · cases e
    obtain ⟨hfeed, c, hc, hknown⟩ := ho t rfl
    exact ⟨hfeed, c, hc, hknown.cons _⟩
  · obtain ⟨hfeed, c, hc, hknown⟩ := h.ticks symbol' code' t latencyMs ht
    exact ⟨hfeed, c, hc, hknown.cons _⟩

theorem resolved_inv (h : FeedInv upper exCode seed s) {code : Option String}
    (hcode : ∀ c, code = some c → Known seed s.log (upper symbol) c) :
    FeedInv upper exCode seed (s.resolved i symbol code) := by
  unfold NSELiveProvider.resolved
  split
  · rename_i c hc
    obtain ⟨hc, -⟩ := Option.filter_eq_some_iff.mp hc
    refine setCall_inv h (fun _ e => by cases e) (fun symbol' code' e => ?_)
    cases e
    exact hcode c hc
  · exact finish_inv h fun t e => by cases e

/-- **A code is learnt** for a symbol that has no seed. -/
theorem learn_inv (h : FeedInv upper exCode seed s) (hnone : Dict.get? seed (upper symbol) = none)
    (code : String) : FeedInv upper exCode seed (s.learn upper symbol code) where
  seeds k c hk := by
    have hne : k ≠ upper symbol := by
      rintro rfl
      rw [hnone] at hk
      cases hk
    exact (Dict.get?_set_of_ne s.sc code hne).trans (h.seeds k c hk)
  codes k c hk := by
    have hset : Dict.get? (Dict.set s.sc (upper symbol) code) k = some c := hk
    rw [Dict.get?_set] at hset
    split at hset
    · rename_i e
      cases hset
      exact .inr (e ▸ List.mem_cons_self)
    · exact (h.codes k c hset).cons _
  resolving := h.resolving
  pricing j symbol code hj := (h.pricing j symbol code hj).cons _
  ticks symbol code t latencyMs ht := by
    rcases List.mem_cons.mp ht with e | ht
    · cases e
    · obtain ⟨hfeed, c, hc, hknown⟩ := h.ticks symbol code t latencyMs ht
      exact ⟨hfeed, c, hc, hknown.cons _⟩
  account := h.account

/-- **One action keeps the invariant.** -/
theorem step_feedInv {a : FeedAction} (h : FeedInv upper exCode seed s)
    (hs : s.step upper loads exCode a = some s') : FeedInv upper exCode seed s' := by
  cases a with
  | fetchQuote i symbol =>
    obtain ⟨-, hs⟩ := Option.ite_none_right_eq_some.mp hs
    split at hs
    · rename_i code hcode
      cases hs
      exact resolved_inv h fun c e => Option.some_inj.mp e ▸ h.codes _ _ hcode
    · rename_i hnone
      cases hs
      refine setCall_inv h (fun symbol' e => ?_) (fun _ _ e => by cases e)
      cases e
      -- a seed would be in the map
      cases hseed : Dict.get? seed (upper symbol) with
      | none => rfl
      | some c =>
        rw [h.seeds _ c hseed] at hnone
        cases hnone
  | suggest i text =>
    simp only [NSELiveProvider.step] at hs
    split at hs
    · rename_i symbol hcall
      split at hs
      · rename_i code hcode
        cases hs
        exact resolved_inv (learn_inv h (h.resolving i symbol hcall) code)
          fun c e => Option.some_inj.mp e ▸ .inr List.mem_cons_self
      · cases hs
        exact resolved_inv h fun c e => by cases e
    · cases hs
    · cases hs
  | price i response latencyMs =>
    simp only [NSELiveProvider.step] at hs
    split at hs
    · rename_i symbol code hcall
      cases hs
      exact finish_inv h fun t ht =>
        ⟨nseLiveFetched_feedTick ht, code, rfl, h.pricing i symbol code hcall⟩
    · cases hs
    · cases hs

theorem feedInv_init : FeedInv upper exCode seed { sc := seed } where
  seeds k c hk := hk
  codes k c hk := .inl hk
  resolving i symbol hi := by cases hi
  pricing i symbol code hi := by cases hi
  ticks symbol code t latencyMs ht := by cases ht
  account := .start

end Calls

/-- **No quote under the code of another symbol, and what the error rate counts.** In every run of any
    calls, in any order of the answers: a seeded code is never replaced, and every other one came with a
    suggestion for its symbol; each quote returned has the symbol asked for, the exchange of the feed
    and positive prices, and was asked for under a code known for that symbol; and the requests counted
    are the calls that ended, less those with an empty payload, which count neither as a request nor as
    an error. -/
theorem nse_live_calls (upper : String → String) (loads : String → Option PyJson) (exCode : Exchange)
    (seed : Dict String String) (acts : List FeedAction) (s : NSELiveProvider)
    (hr : run (NSELiveProvider.step upper loads exCode) { sc := seed } acts = some s) :
    (∀ k c, Dict.get? seed k = some c → Dict.get? s.sc k = some c) ∧
      (∀ k c, Dict.get? s.sc k = some c → Known seed s.log k c) ∧
      (∀ symbol code t latencyMs, .finished symbol code ⟨.ok t, latencyMs⟩ ∈ s.log →
        FeedTick (normalizeSymbol upper (upper symbol)) exCode (nseLiveName exCode) t ∧
          ∃ c, code = some c ∧ Known seed s.log (upper symbol) c) ∧
      Accounted s.metrics (s.log.filterMap FeedEvent.outcome) := by
  have h : FeedInv upper exCode seed s :=
    run_invariant (I := FeedInv upper exCode seed) (fun _ _ _ h hs => step_feedInv h hs) feedInv_init hr
  exact ⟨h.seeds, h.codes, h.ticks, h.account⟩

/-- A suggestion, as JSON. -/
def zomatoSuggestion : String := "[\x7b\"sc_id\":\" Z02 \",\"link_src\":null\x7d]"

/-- The price, as JSON. -/
def zomatoPrice : String :=
  "\x7b\"data\":\x7b\"pricecurrent\":\"261.50\",\"priceprevclose\":\"260\",\"VOL\":7\x7d\x7d"

/-- What `json.loads` makes of the two. -/
def zomatoLoads (text : String) : Option PyJson :=
  if text = zomatoSuggestion then
    some (.arr [.obj [("sc_id", .str " Z02 "), ("link_src", .null)]])
  else if text = zomatoPrice then
    some (.obj [("data", .obj [("pricecurrent", .str "261.50"), ("priceprevclose", .str "260"),
      ("VOL", .int 7)])])
  else none

/-- A call that looks its symbol up, and one that is answered with half a text. -/
def zomatoRun : List FeedAction :=
  [.fetchQuote 1 "ZOM", .fetchQuote 2 "SBIN", .suggest 1 (some zomatoSuggestion),
    .price 1 (some ⟨200, zomatoPrice⟩) 40, .price 2 (some ⟨200, "["⟩) 55]

theorem nse_live_calls_zomato :
    ∃ s, run (NSELiveProvider.step id zomatoLoads .NSE) { sc := [("SBIN", "SBI")] } zomatoRun = some s ∧
      s.metrics = ⟨1, 2, 40⟩ ∧ Known [("SBIN", "SBI")] s.log "ZOM" "Z02" := by
  have hrun : (run (NSELiveProvider.step id zomatoLoads .NSE) { sc := [("SBIN", "SBI")] } zomatoRun).map
      (fun s => (s.metrics, Dict.get? s.sc "ZOM")) = some (⟨1, 2, 40⟩, some "Z02") := by decide +kernel
  obtain ⟨s, hr, hs⟩ := Option.map_eq_some_iff.mp hrun
  obtain ⟨hmetrics, hcode⟩ := Prod.mk.inj hs
  exact ⟨s, hr, hmetrics,
    (nse_live_calls id zomatoLoads .NSE [("SBIN", "SBI")] zomatoRun s hr).2.1 "ZOM" "Z02" hcode⟩

end BharatTicker
