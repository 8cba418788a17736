/-
  File:      BharatTicker/NsePublic.lean
  Subject:   THE PUBLIC NSE CLIENT (`providers/nse_public.py`: `_ensure_session`, `_rotate_session`,
             `_nse_json`) OVER THE PROXY POOL.

  All calls share one session, which goes out through the proxy that the pool picked when it was built.
  A call whose request is blocked or raises parks the proxy of the client, builds another session and
  asks again. A call is suspended while a session answers its first request, while one is closed, and
  while its own request is under way; the others go on meanwhile.

  * `JsonAnswer`, `JsonCall` -- what a request is answered, and the locals of a call;
  * `NSEPublic`, `NSEPublic.step` -- the client, and the calls in any order;
  * `latestBlocked`, `verdictOf` -- what a call returns, of its answers alone;
  * `JsonInv`, `step_jsonInv` -- what a call did so far, and whose proxy the session has;
  * `nse_json_retries` -- a call asks once more only for a block or an exception, at most as often as
    there are proxies and three times, and parks one proxy for each retry: the one its request went
    through, unless another call built a session meanwhile.
-/
import BharatTicker.BseScraper
import BharatTicker.ProxyPool.Parked

namespace BharatTicker

open Basis

/-! ## 1. Calls -/

/-- What becomes of a request. -/
inductive JsonAnswer where
  /-- Status 200 and JSON. -/
  | json (j : PyJson)
  /-- Any other response. -/
  | status (code : ℕ)
  /-- The request, or the reading of its JSON. -/
  | raised

/-- The status of a block: 401 or 403. -/
def JsonAnswer.blockCode : JsonAnswer → Option ℕ
  | .status code => if code = 401 ∨ code = 403 then some code else none
  | .json _ | .raised => none

/-- A block or an exception. -/
def JsonAnswer.retryable : JsonAnswer → Bool
  | .status code => code = 401 ∨ code = 403
  | .json _ => false
  | .raised => true

def JsonAnswer.isRaised : JsonAnswer → Bool
  | .raised => true
  | .json _ | .status _ => false

/-- What `_nse_json` returns: JSON, `{"_blocked": True, "status": ..}`, or `None`. -/
inductive JsonVerdict where
  | json (j : PyJson)
  | blocked (status : ℕ)
  | nothing

/-- The locals of a call; ghosts are the answers to its requests and the proxies it parked, newest
    first. -/
structure JsonCall where
  attempts : ℕ
  i : ℕ := 0
  blocked : Option ℕ := none
  answers : List JsonAnswer := []
  parked : List (Option String) := []

/-- A session. `via` is a ghost: the proxy it was built with. -/
structure JsonSession where
  id : ℕ
  via : Option String
  deriving DecidableEq, Repr

/-- Where a call is suspended. -/
inductive JsonPhase where
  | idle
  | warming (c : JsonCall)
  | closing (c : JsonCall)
  | requesting (c : JsonCall) (session : Option JsonSession)

def JsonPhase.call? : JsonPhase → Option JsonCall
  | .idle => none
  | .warming c | .closing c | .requesting c _ => some c

/-- What is recorded. -/
inductive JsonEvent where
  /-- A call parked a proxy for the answer of a session, while the client had another one or the same. -/
  | rotated (bad : Option String) (asked current : Option JsonSession)
  | finished (c : JsonCall) (verdict : JsonVerdict)

/-! ## 2. The client -/

/-- The client: `_session`, `_proxy`, the shared pool, and the calls; `sessions` and `log` are ghosts. -/
structure NSEPublic where
  pool : ProxyPool
  session : Option JsonSession := none
  proxy : Option String := none
  sessions : ℕ := 0
  phases : ℕ → JsonPhase := fun _ => .idle
  log : List JsonEvent := []

/-- A reading of the clock for the pool, one for its pick, and the draw of `random.choice`. -/
structure PoolClock where
  early : ℚ := 0
  late : ℚ := 0
  draw : ℕ := 0

inductive JsonAction where
  | call (task : ℕ) (clock : PoolClock)
  /-- `fetch_indices` makes sure of a session. -/
  | indices (clock : PoolClock)
  | warmed (task : ℕ)
  | closed (task : ℕ) (clock : PoolClock)
  | answered (task : ℕ) (answer : JsonAnswer) (clock : PoolClock)

/-- `attempts`. -/
def attemptsFor (pool : ProxyPool) : ℕ := if 1 < pool.count then min pool.count 3 else 1

namespace NSEPublic

def init (proxies : ProxyList) (strategy : ProxyStrategy) : NSEPublic where
  pool := .init proxies strategy

def setPhase (s : NSEPublic) (task : ℕ) (p : JsonPhase) : NSEPublic :=
  { s with phases := Function.update s.phases task p }

/-- A session is built on the proxy that the pool picks. -/
def build (clock : PoolClock) (s : NSEPublic) : NSEPublic :=
  let picked := s.pool.current clock.late clock.draw
  let proxies := picked.2.asProxies picked.1 clock.late clock.draw
  { s with
    pool := proxies.2
    proxy := picked.1
    session := some ⟨s.sessions, proxies.1.map (·.http)⟩
    sessions := s.sessions + 1 }

/-- The request of a call goes out. -/
def request (s : NSEPublic) (task : ℕ) (c : JsonCall) : NSEPublic :=
  s.setPhase task (.requesting c s.session)

/-- The top of the loop: `_ensure_session`, and the request. -/
def ensureSession (s : NSEPublic) (task : ℕ) (c : JsonCall) (clock : PoolClock) : NSEPublic :=
  match s.session with
  | none => (s.build clock).setPhase task (.warming c)
  | some _ => s.request task c

/-- `_rotate_session`, for the answer of a session. -/
def rotateSession (s : NSEPublic) (task : ℕ) (c : JsonCall) (asked : Option JsonSession)
    (clock : PoolClock) : NSEPublic :=
  let c := { c with i := c.i + 1, parked := s.proxy :: c.parked }
  let s' : NSEPublic :=
    { s with
      pool := (s.pool.rotate s.proxy clock.early clock.late clock.draw).2
      log := .rotated s.proxy asked s.session :: s.log }
  match s.session with
  | some _ => s'.setPhase task (.closing c)
  | none => (s'.build clock).setPhase task (.warming c)

/-- A call returns. -/
def finish (s : NSEPublic) (task : ℕ) (c : JsonCall) (verdict : JsonVerdict) : NSEPublic :=
  { s.setPhase task .idle with log := .finished c verdict :: s.log }

/-- `return blocked`, behind the loop. -/
def blockedVerdict (c : JsonCall) : JsonVerdict :=
  match c.blocked with
  | some code => .blocked code
  | none => .nothing

/-- The body of the loop, behind the request. -/
def answered (s : NSEPublic) (task : ℕ) (c : JsonCall) (asked : Option JsonSession)
    (answer : JsonAnswer) (clock : PoolClock) : NSEPublic :=
  let c := { c with answers := answer :: c.answers }
  match answer with
  | .json j => s.finish task c (.json j)
  | .status code =>
    if code = 401 ∨ code = 403 then
      let c := { c with blocked := some code }
      if c.i + 1 < c.attempts then s.rotateSession task c asked clock
      else s.finish task c (.blocked code)
    else s.finish task c .nothing
  | .raised =>
    if c.i + 1 < c.attempts then s.rotateSession task c asked clock
    else s.finish task c (blockedVerdict c)

/-- One action. -/
def step (s : NSEPublic) : JsonAction → Option NSEPublic
  | .call task clock =>
    match s.phases task with
    | .idle => some (s.ensureSession task { attempts := attemptsFor s.pool } clock)
    | .warming _ | .closing _ | .requesting .. => none
  | .indices clock =>
    match s.session with
    | none => some (s.build clock)
    | some _ => some s
  | .warmed task =>
    match s.phases task with
    -- at the top of the loop there is a session now
    | .warming c => some (s.request task c)
    | .idle | .closing _ | .requesting .. => none
  | .closed task clock =>
    match s.phases task with
    | .closing c => some (({ s with session := none }.build clock).setPhase task (.warming c))
    | .idle | .warming _ | .requesting .. => none
  | .answered task answer clock =>
    match s.phases task with
    | .requesting c asked =>
      -- without a session, `self._session.get` raises
      if asked = none ∧ answer.isRaised = false then none
      else some (s.answered task c asked answer clock)
    | .idle | .warming _ | .closing _ => none

end NSEPublic

/-! ## 3. What a call returns -/

/-- The newest block. -/
def latestBlocked (answers : List JsonAnswer) : Option ℕ := answers.findSome? JsonAnswer.blockCode

/-- **What a call returns**, of its answers, newest first. -/
def verdictOf (answers : List JsonAnswer) : JsonVerdict :=
  match answers with
  | [] => .nothing
  | .json j :: _ => .json j
  | a :: rest =>
    if a.retryable then
      match latestBlocked (a :: rest) with
      | some code => .blocked code
      | none => .nothing
    else .nothing

/-- A call that asks once more. -/
structure Retrying (attempts : ℕ) (c : JsonCall) : Prop where
  budget : c.attempts = attempts
  asked : c.answers.length = c.i
  parked : c.parked.length = c.i
  left : c.i < attempts
  retried : ∀ a ∈ c.answers, a.retryable = true
  blocked : c.blocked = latestBlocked c.answers

/-- A call that returned. -/
structure Returned (attempts : ℕ) (c : JsonCall) (verdict : JsonVerdict) : Prop where
  bounded : c.answers.length ≤ attempts
  parked : c.parked.length + 1 = c.answers.length
  /-- Every answer but the newest was a block or an exception. -/
  retried : ∀ a ∈ c.answers.tail, a.retryable = true
  /-- And where the newest one is too, no attempt was left. -/
  exhausted : (∀ a ∈ c.answers, a.retryable = true) → c.answers.length = attempts
  verdict : verdict = verdictOf c.answers

/-- A proxy of the list; none, if the list is empty. -/
def Listed (proxies : ProxyList) (p : Option String) : Prop :=
  if proxies.texts = [] then p = none else ∃ text ∈ proxies.texts, p = some text

/-! ## 4. The invariant -/

structure JsonInv (proxies : ProxyList) (s : NSEPublic) : Prop where
  pool : s.pool.proxies = proxies
  /-- The session goes out through the proxy of the client. -/
  session : ∀ x, s.session = some x → x.via = s.proxy ∧ Listed proxies s.proxy
  present : ∀ task c, (s.phases task).call? = some c → s.session.isSome
  calls : ∀ task c, (s.phases task).call? = some c → Retrying (attemptsFor s.pool) c
  requests : ∀ task c x, s.phases task = .requesting c x → ∃ y, x = some y ∧ Listed proxies y.via
  rotations : ∀ bad asked current, .rotated bad asked current ∈ s.log →
    1 < proxies.texts.length ∧ Listed proxies bad ∧ ∃ x y, asked = some x ∧ current = some y ∧
      Listed proxies x.via ∧ y.via = bad
  finished : ∀ c verdict, .finished c verdict ∈ s.log → Returned (attemptsFor s.pool) c verdict

section Client

variable {proxies : ProxyList} {s s' : NSEPublic} {task : ℕ} {c : JsonCall} {clock : PoolClock}

theorem current_listed (pool : ProxyPool) (now : ℚ) (draw : ℕ) :
    Listed pool.proxies (pool.current now draw).1 := by
  unfold Listed
  rw [ProxyPool.current_fst]
  split
  · rfl
  · rename_i hne
    obtain ⟨p, hp⟩ := pool.exists_select hne now draw
    exact ⟨p, ProxyPool.mem_of_candidates (ProxyPool.mem_of_select hp), hp⟩

theorem current_proxies (pool : ProxyPool) (now : ℚ) (draw : ℕ) :
    (pool.current now draw).2.proxies = pool.proxies := by
  obtain ⟨uses, h⟩ := pool.current_snd now draw
  rw [h]

theorem rotate_proxies (pool : ProxyPool) (bad : Option String) (clock : PoolClock) :
    (pool.rotate bad clock.early clock.late clock.draw).2.proxies = pool.proxies :=
  pool.call_proxies ⟨.rotate bad, clock.early, clock.late, clock.draw⟩

/-- `as_proxies` of a proxy of the list is that proxy. -/
theorem asProxies_listed {pool : ProxyPool} {p : Option String} (h : Listed pool.proxies p) (now : ℚ)
    (draw : ℕ) : (pool.asProxies p now draw).1.map (·.http) = p ∧
      (pool.asProxies p now draw).2.proxies = pool.proxies := by
  refine ⟨?_, pool.call_proxies ⟨.asProxies p, now, now, draw⟩⟩
  unfold Listed at h
  unfold ProxyPool.asProxies
  split at h
  · rename_i hempty
    subst h
    have hnone : (pool.current now draw).1 = none := by rw [ProxyPool.current_fst, if_pos hempty]
    simp only [true_or, if_pos, hnone, Option.map_none]
  · obtain ⟨text, hmem, rfl⟩ := h
    have hne : text ≠ "" := pool.proxies.nonempty text hmem
    simp [hne]

theorem attemptsFor_congr {pool : ProxyPool} (h : pool.proxies = proxies) :
    attemptsFor pool = if 1 < proxies.texts.length then min proxies.texts.length 3 else 1 := by
  unfold attemptsFor ProxyPool.count
  rw [h]

/-- **What is built goes out through a proxy of the list.** -/
theorem build_spec (h : s.pool.proxies = proxies) (clock : PoolClock) :
    (s.build clock).pool.proxies = proxies ∧ Listed proxies (s.build clock).proxy ∧
      (s.build clock).session = some ⟨s.sessions, (s.build clock).proxy⟩ := by
  have hlisted := current_listed s.pool clock.late clock.draw
  have hsame := current_proxies s.pool clock.late clock.draw
  have hpicked : Listed (s.pool.current clock.late clock.draw).2.proxies
      (s.pool.current clock.late clock.draw).1 := by rwa [hsame]
  obtain ⟨hvia, hproxies⟩ := asProxies_listed hpicked clock.late clock.draw
  refine ⟨(hproxies.trans hsame).trans h, h ▸ hlisted, ?_⟩
  simp only [NSEPublic.build, hvia]

theorem one_lt_count {pool : ProxyPool} {i : ℕ} (h : i + 1 < attemptsFor pool) : 1 < pool.count := by
  unfold attemptsFor at h
  split at h
  · assumption
  · omega

/-- A call goes on. -/
theorem setPhase_jsonInv (h : JsonInv proxies s) {p : JsonPhase}
    (hcall : ∀ c, p.call? = some c → s.session.isSome ∧ Retrying (attemptsFor s.pool) c)
    (hrequest : ∀ c x, p = .requesting c x → ∃ y, x = some y ∧ Listed proxies y.via) :
    JsonInv proxies (s.setPhase task p) where
  pool := h.pool
  session := h.session
  present j c hj := by
    by_cases hjt : j = task
    · subst hjt
      have hself : (Function.update s.phases j p j).call? = some c := hj
      rw [Function.update_self] at hself
      exact (hcall c hself).1
    · have hother : (Function.update s.phases task p j).call? = some c := hj
      rw [Function.update_of_ne hjt] at hother
      exact h.present j c hother
  calls j c hj := by
    by_cases hjt : j = task
    · subst hjt
      have hself : (Function.update s.phases j p j).call? = some c := hj
      rw [Function.update_self] at hself
      exact (hcall c hself).2
    · have hother : (Function.update s.phases task p j).call? = some c := hj
      rw [Function.update_of_ne hjt] at hother
      exact h.calls j c hother
  requests j c x hj := by
    by_cases hjt : j = task
    · subst hjt
      have hself : Function.update s.phases j p j = .requesting c x := hj
      rw [Function.update_self] at hself
      exact hrequest c x hself
    · have hother : Function.update s.phases task p j = .requesting c x := hj
      rw [Function.update_of_ne hjt] at hother
      exact h.requests j c x hother
  rotations := h.rotations
  finished := h.finished

/-- Nothing but the session and its proxy change when one is built, whatever was there before. -/
theorem build_jsonInv (h : JsonInv proxies s) (x : Option JsonSession) (clock : PoolClock) :
    JsonInv proxies ({ s with session := x }.build clock) := by
  obtain ⟨hpool, hlisted, hsession⟩ := build_spec (s := { s with session := x }) h.pool clock
  have hattempts : attemptsFor ({ s with session := x }.build clock).pool = attemptsFor s.pool := by
    rw [attemptsFor_congr hpool, attemptsFor_congr h.pool]
  refine ⟨hpool, fun y hy => ?_, fun j c _ => by rw [hsession]; rfl, fun j c hj => ?_, h.requests,
    h.rotations, fun c verdict hc => ?_⟩
  · rw [hsession, Option.some_inj] at hy
    subst hy
    exact ⟨rfl, hlisted⟩
  · rw [hattempts]
    exact h.calls j c hj
  · rw [hattempts]
    exact h.finished c verdict hc

/-- A request goes out on the session that is there. -/
theorem request_jsonInv (h : JsonInv proxies s) (hsession : s.session.isSome)
    (hc : Retrying (attemptsFor s.pool) c) : JsonInv proxies (s.request task c) := by
  obtain ⟨x, hx⟩ := Option.isSome_iff_exists.mp hsession
  obtain ⟨hvia, hlisted⟩ := h.session x hx
  refine setPhase_jsonInv h (fun c' e => ?_) (fun c' y e => ?_)
  · cases e
    exact ⟨hsession, hc⟩
  · cases e
    exact ⟨x, hx, hvia ▸ hlisted⟩

/-- A session is built, and the call waits for it. -/
theorem warm_jsonInv (h : JsonInv proxies s) (x : Option JsonSession)
    (hc : Retrying (attemptsFor s.pool) c) (clock : PoolClock) :
    JsonInv proxies (({ s with session := x }.build clock).setPhase task (.warming c)) := by
  obtain ⟨hpool, -, hsession⟩ := build_spec (s := { s with session := x }) h.pool clock
  refine setPhase_jsonInv (build_jsonInv h x clock) (fun c' e => ?_) (fun c' y e => by cases e)
  cases e
  rw [attemptsFor_congr hpool, ← attemptsFor_congr h.pool]
  exact ⟨by rw [hsession]; rfl, hc⟩

theorem ensureSession_jsonInv (h : JsonInv proxies s) (hc : Retrying (attemptsFor s.pool) c)
    (clock : PoolClock) : JsonInv proxies (s.ensureSession task c clock) := by
  unfold NSEPublic.ensureSession
  split
  · exact warm_jsonInv h s.session hc clock
  · rename_i x hx
    exact request_jsonInv h (by rw [hx]; rfl) hc

/-- **A call parks the proxy of the client**, which the session has, and asks once more. -/
theorem rotateSession_jsonInv (h : JsonInv proxies s) {asked : JsonSession}
    (hsession : s.session.isSome) (hasked : Listed proxies asked.via)
    (hleft : c.i + 1 < attemptsFor s.pool)
    (hc : Retrying (attemptsFor s.pool) { c with i := c.i + 1, parked := s.proxy :: c.parked }) :
    JsonInv proxies (s.rotateSession task c (some asked) clock) := by
  obtain ⟨x, hx⟩ := Option.isSome_iff_exists.mp hsession
  obtain ⟨hvia, hlisted⟩ := h.session x hx
  have hpool := rotate_proxies s.pool s.proxy clock
  have hattempts : attemptsFor (s.pool.rotate s.proxy clock.early clock.late clock.draw).2 =
      attemptsFor s.pool := by rw [attemptsFor_congr hpool, attemptsFor_congr rfl]
  have hmany : 1 < proxies.texts.length := h.pool ▸ one_lt_count hleft
  have hrotated : JsonInv proxies { s with
      pool := (s.pool.rotate s.proxy clock.early clock.late clock.draw).2
      log := .rotated s.proxy (some asked) s.session :: s.log } := by
    refine ⟨hpool.trans h.pool, h.session, h.present, fun j c' hj => ?_, h.requests,
      fun bad a b hmem => ?_, fun c' verdict hmem => ?_⟩
    · rw [hattempts]
      exact h.calls j c' hj
    · rcases List.mem_cons.mp hmem with e | hmem
      · cases e
        exact ⟨hmany, hlisted, asked, x, rfl, hx, hasked, hvia⟩
      · exact h.rotations bad a b hmem
    · rw [hattempts]
      rcases List.mem_cons.mp hmem with e | hmem
      · cases e
      · exact h.finished c' verdict hmem
  unfold NSEPublic.rotateSession
  rw [hx] at hrotated ⊢
  refine setPhase_jsonInv hrotated (fun c' e => ?_) (fun c' y e => by cases e)
  cases e
  rw [hattempts]
  exact ⟨rfl, hc⟩

/-- A call returns. -/
theorem finish_jsonInv (h : JsonInv proxies s) {verdict : JsonVerdict}
    (hc : Returned (attemptsFor s.pool) c verdict) : JsonInv proxies (s.finish task c verdict) := by
  have hidle : JsonInv proxies (s.setPhase task .idle) :=
    setPhase_jsonInv h (fun c' e => by cases e) (fun c' y e => by cases e)
  refine ⟨hidle.pool, hidle.session, hidle.present, hidle.calls, hidle.requests, fun bad a b hmem => ?_,
    fun c' v hmem => ?_⟩
  · rcases List.mem_cons.mp hmem with e | hmem
    · cases e
    · exact h.rotations bad a b hmem
  · rcases List.mem_cons.mp hmem with e | hmem
    · cases e
      exact hc
    · exact h.finished c' v hmem

/-! ## 5. Answers -/

variable {attempts : ℕ} {a : JsonAnswer}

/-- **A call returns** on an answer that is no reason to retry, or with no attempt left. -/
theorem Retrying.returned (h : Retrying attempts c) (c' : JsonCall) (hanswers : c'.answers = a :: c.answers)
    (hparked : c'.parked = c.parked) (hlast : a.retryable = true → ¬ c.i + 1 < attempts)
    {verdict : JsonVerdict} (hverdict : verdict = verdictOf (a :: c.answers)) :
    Returned attempts c' verdict where
  bounded := by
    rw [hanswers, List.length_cons, h.asked]
    exact h.left
  parked := by rw [hanswers, hparked, List.length_cons, h.asked, h.parked]
  retried b hb := by
    rw [hanswers, List.tail_cons] at hb
    exact h.retried b hb
  exhausted hall := by
    rw [hanswers] at hall
    have hnone := hlast (hall a List.mem_cons_self)
    have hleft := h.left
    rw [hanswers, List.length_cons, h.asked]
    omega
  verdict := by rw [hanswers, hverdict]

/-- **A call asks once more**, after a block or an exception. -/
theorem Retrying.again (h : Retrying attempts c) (c' : JsonCall) (hanswers : c'.answers = a :: c.answers)
    (hparked : c'.parked = c.parked) (hi : c'.i = c.i) (hbudget : c'.attempts = c.attempts)
    (hblocked : c'.blocked = latestBlocked (a :: c.answers)) (ha : a.retryable = true)
    (hleft : c.i + 1 < attempts) (bad : Option String) :
    Retrying attempts { c' with i := c'.i + 1, parked := bad :: c'.parked } where
  budget := hbudget.trans h.budget
  asked := by
    dsimp only
    rw [hanswers, hi, List.length_cons, h.asked]
  parked := by
    dsimp only
    rw [hparked, hi, List.length_cons, h.parked]
  left := by
    dsimp only
    rwa [hi]
  retried b hb := by
    rw [hanswers] at hb
    rcases List.mem_cons.mp hb with rfl | hb
    · exact ha
    · exact h.retried b hb
  blocked := by
    dsimp only
    rw [hblocked, hanswers]

theorem latestBlocked_raised (answers : List JsonAnswer) :
    latestBlocked (.raised :: answers) = latestBlocked answers := rfl

theorem latestBlocked_block {code : ℕ} (hcode : code = 401 ∨ code = 403) (answers : List JsonAnswer) :
    latestBlocked (.status code :: answers) = some code := by
  simp only [latestBlocked, List.findSome?_cons, JsonAnswer.blockCode, if_pos hcode]

/-- **The body of the loop keeps the invariant.** -/
theorem answered_jsonInv (h : JsonInv proxies s) {asked : JsonSession} (hsession : s.session.isSome)
    (hasked : Listed proxies asked.via) (hc : Retrying (attemptsFor s.pool) c) (a : JsonAnswer)
    (clock : PoolClock) : JsonInv proxies (s.answered task c (some asked) a clock) := by
  cases a with
  | json j =>
    exact finish_jsonInv h (hc.returned { c with answers := .json j :: c.answers } rfl rfl
      (fun e => by cases e) rfl)
  | status code =>
    by_cases hcode : code = 401 ∨ code = 403
    · have hretry : JsonAnswer.retryable (.status code) = true := decide_eq_true hcode
      have hlatest := latestBlocked_block hcode c.answers
      simp only [NSEPublic.answered, if_pos hcode]
      by_cases hleft : c.i + 1 < c.attempts
      · rw [if_pos hleft]
        rw [hc.budget] at hleft
        exact rotateSession_jsonInv h hsession hasked hleft
          (hc.again { c with answers := .status code :: c.answers, blocked := some code } rfl rfl rfl rfl
            hlatest.symm hretry hleft s.proxy)
      · rw [if_neg hleft]
        rw [hc.budget] at hleft
        refine finish_jsonInv h (hc.returned
          { c with answers := .status code :: c.answers, blocked := some code } rfl rfl
          (fun _ => hleft) ?_)
        simp only [verdictOf, hretry, if_true, hlatest]
    · have hretry : JsonAnswer.retryable (.status code) = false := decide_eq_false hcode
      simp only [NSEPublic.answered, if_neg hcode]
      refine finish_jsonInv h (hc.returned { c with answers := .status code :: c.answers } rfl rfl
        (fun e => absurd e (by rw [hretry]; decide)) ?_)
      simp only [verdictOf, hretry, Bool.false_eq_true, if_false]
  | raised =>
    simp only [NSEPublic.answered]
    by_cases hleft : c.i + 1 < c.attempts
    · rw [if_pos hleft]
      rw [hc.budget] at hleft
      exact rotateSession_jsonInv h hsession hasked hleft
        (hc.again { c with answers := .raised :: c.answers } rfl rfl rfl rfl hc.blocked rfl hleft s.proxy)
    · rw [if_neg hleft]
      rw [hc.budget] at hleft
      refine finish_jsonInv h (hc.returned { c with answers := .raised :: c.answers } rfl rfl
        (fun _ => hleft) ?_)
      simp only [verdictOf, JsonAnswer.retryable, if_true, latestBlocked_raised,
        NSEPublic.blockedVerdict, hc.blocked]

/-- A new call. -/
theorem retrying_start (pool : ProxyPool) : Retrying (attemptsFor pool) { attempts := attemptsFor pool } where
  budget := rfl
  asked := rfl
  parked := rfl
  left := by
    unfold attemptsFor
    dsimp only
    split <;> omega
  retried a ha := by cases ha
  blocked := rfl

/-- **One action keeps the invariant.** -/
theorem step_jsonInv (h : JsonInv proxies s) {a : JsonAction} (hs : s.step a = some s') :
    JsonInv proxies s' := by
  cases a with
  | call task clock =>
    simp only [NSEPublic.step] at hs
    split at hs
    · cases hs
      exact ensureSession_jsonInv h (retrying_start s.pool) clock
    all_goals cases hs
  | indices clock =>
    simp only [NSEPublic.step] at hs
    split at hs
    · cases hs
      exact build_jsonInv h s.session clock
    · cases hs
      exact h
  | warmed task =>
    simp only [NSEPublic.step] at hs
    split at hs
    · rename_i c hphase
      cases hs
      exact request_jsonInv h (h.present task c (by rw [hphase]; rfl)) (h.calls task c (by rw [hphase]; rfl))
    all_goals cases hs
  | closed task clock =>
    simp only [NSEPublic.step] at hs
    split at hs
    · rename_i c hphase
      cases hs
      exact warm_jsonInv h none (h.calls task c (by rw [hphase]; rfl)) clock
    all_goals cases hs
  | answered task answer clock =>
    simp only [NSEPublic.step] at hs
    split at hs
    · rename_i c asked hphase
      obtain ⟨x, rfl, hlisted⟩ := h.requests task c asked hphase
      obtain ⟨-, hs⟩ := Option.ite_none_left_eq_some.mp hs
      cases hs
      exact answered_jsonInv h (h.present task c (by rw [hphase]; rfl)) hlisted
        (h.calls task c (by rw [hphase]; rfl)) answer clock
    all_goals cases hs

end Client

theorem jsonInv_init (proxies : ProxyList) (strategy : ProxyStrategy) :
    JsonInv proxies (.init proxies strategy) where
  pool := rfl
  session x hx := by cases hx
  present task c hc := by cases hc
  calls task c hc := by cases hc
  requests task c x hx := by cases hx
  rotations bad asked current hmem := by cases hmem
  finished c verdict hmem := by cases hmem

/-- **Retries of the NSE client.** In every run of any calls, whatever they are answered: every request
    goes out on a session whose proxy is one of the list. A call makes at most as many requests as there
    are proxies, at most three, and one without a second proxy; it asks again only after a block or an
    exception, gives up early only on another response, and what it returns is read off its answers. It
    parks one proxy for each retry, never the only one; and that proxy is the one its request went
    through, if the client still has the session that was asked. -/
theorem nse_json_retries (proxies : ProxyList) (strategy : ProxyStrategy) (acts : List JsonAction)
    (s : NSEPublic) (hr : run NSEPublic.step (.init proxies strategy) acts = some s) :
    (∀ task c x, s.phases task = .requesting c x → ∃ y, x = some y ∧ Listed proxies y.via) ∧
      (∀ c verdict, .finished c verdict ∈ s.log →
        Returned (if 1 < proxies.texts.length then min proxies.texts.length 3 else 1) c verdict) ∧
      ∀ bad asked current, .rotated bad asked current ∈ s.log →
        1 < proxies.texts.length ∧ Listed proxies bad ∧
          ∃ x, asked = some x ∧ Listed proxies x.via ∧ (current = some x → bad = x.via) := by
  have h : JsonInv proxies s :=
    run_invariant (I := JsonInv proxies) (fun _ _ _ h hs => step_jsonInv h hs)
      (jsonInv_init proxies strategy) hr
  refine ⟨h.requests, fun c verdict hc => ?_, fun bad asked current hmem => ?_⟩
  · rw [← attemptsFor_congr h.pool]
    exact h.finished c verdict hc
  · obtain ⟨hmany, hbad, x, y, hx, hy, hlisted, hvia⟩ := h.rotations bad asked current hmem
    refine ⟨hmany, hbad, x, hx, hlisted, fun he => ?_⟩
    rw [hy, Option.some_inj] at he
    exact he ▸ hvia.symm

/-- Two calls that are blocked on one session. -/
def overlappingCalls : List JsonAction :=
  [.call 1 {}, .warmed 1, .call 2 {}, .answered 1 (.status 403) { early := 1, late := 1 },
    .closed 1 { late := 2 }, .warmed 1, .answered 2 (.status 403) { early := 3, late := 3 },
    .answered 1 .raised {}]

/-- The second one parks the proxy that it was not asked through; the first one has no attempt left. -/
theorem nse_json_retries_overlapping :
    ∃ s, run NSEPublic.step (.init twoProxies .roundRobin) overlappingCalls = some s ∧
      s.pool.deadUntilOf "a:1" = 121 ∧ s.pool.deadUntilOf "b:1" = 123 ∧
      ∀ c verdict, .finished c verdict ∈ s.log → Returned 2 c verdict := by
  have hrun : (run NSEPublic.step (.init twoProxies .roundRobin) overlappingCalls).map
      (fun s => (s.pool.deadUntilOf "a:1", s.pool.deadUntilOf "b:1")) = some (121, 123) := by
    decide +kernel
  obtain ⟨s, hr, hs⟩ := Option.map_eq_some_iff.mp hrun
  obtain ⟨ha, hb⟩ := Prod.mk.inj hs
  exact ⟨s, hr, ha, hb, (nse_json_retries twoProxies .roundRobin overlappingCalls s hr).2.1⟩

end BharatTicker
