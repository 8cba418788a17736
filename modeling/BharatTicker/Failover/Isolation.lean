/-
  File:      BharatTicker/Failover/Isolation.lean
  Subject:   HOW FAR SYMBOLS ARE ISOLATED FROM EACH OTHER in the failover layer.

  Providers answer every symbol they list and raise `ProviderError` for the others. Requests are
  served one after another; a request for a symbol that no provider lists always fails, but it
  charges a failure to the breaker of every provider it is fetched from.

  * `Request`, `listing`, `serve`, `serveAll` -- requests, and the runs they make;
  * `Charged` -- an unlisted request has been fetched from the provider;
  * `Unspent` -- the simulation: charged breakers are CLOSED in both runs, with no more failures
    in the run without the unlisted requests; every other breaker is the same in both;
  * `round_unspent`, `serve_unspent` -- a request of both runs; `cascade_charges` -- an unlisted one;
  * `listed_isolated` -- the two runs agree as long as every charged breaker stays CLOSED;
  * `unlisted_requests_trip` -- the run in which one opens.
-/
import BharatTicker.Failover.Cascade

namespace BharatTicker

-- the concrete runs below compute with rationals
unseal Rat.add Rat.mul Rat.sub Rat.inv

/-! ## 1. Requests and runs -/

/-- One request: its arguments, the times of its rounds, and what each provider would return. -/
structure Request where
  args : QuoteRequest
  checkedAt : String → ℚ
  startedAt : String → ℚ
  endedAt : String → ℚ
  quote : String → TickData
  error : String → ProviderError

/-- A provider that answers what it lists and raises `ProviderError` otherwise. -/
def listing (lists : String → String → Bool) (r : Request) (name : String) : Attempt where
  checkedAt := r.checkedAt name
  startedAt := r.startedAt name
  fetch := if lists name r.args.symbol then .tick (r.quote name) else .providerError (r.error name)
  endedAt := r.endedAt name

section Runs

variable (cfg : BreakerConfig) (lists : String → String → Bool)

def serve (fc : FailoverController) (r : Request) : CascadeResult :=
  fetchQuote cfg r.args (listing lists r) fc

/-- The controller after the requests, served one after another. -/
def serveAll (fc : FailoverController) (rs : List Request) : FailoverController :=
  rs.foldl (fun fc r => (serve cfg lists fc r).controller) fc

/-- The symbol of the request is listed by a provider. -/
def isListed (providers : List Provider) (r : Request) : Bool :=
  providers.any fun p => lists p.name r.args.symbol

/-- A request for an unlisted symbol has been fetched from the provider of this name. -/
def Charged (fc : FailoverController) (rs : List Request) (name : String) : Prop :=
  ∃ pre r post, rs = pre ++ r :: post ∧ isListed lists fc.providers r = false ∧
    ∃ p ∈ (serve cfg lists (serveAll cfg lists fc pre) r).fetched, p.name = name

end Runs

section Isolation

variable {cfg : BreakerConfig} {lists : String → String → Bool}

theorem serveAll_snoc (fc : FailoverController) (rs : List Request) (r : Request) :
    serveAll cfg lists fc (rs ++ [r]) =
      (serve cfg lists (serveAll cfg lists fc rs) r).controller := by
  simp [serveAll]

/-! ## 2. A round of a listing provider -/

variable {req : QuoteRequest} {a : Attempt} {p : Provider} {fc fc' : FailoverController}

/-- A breaker that refuses is left as it was. -/
theorem stateAt_of_refused {now : ℚ} {cb : CircuitBreaker}
    (h : (cb.canExecute cfg now).1 = false) : cb.stateAt cfg now = cb := by
  by_cases hd : cb.state = .OPEN ∧ cfg.recoveryTimeout < now - cb.lastFailureTime
  · have e := CircuitBreaker.stateAt_of_due hd.1 hd.2
    have hpos : 0 < cfg.halfOpenMaxCalls := cfg.halfOpenMaxCalls_pos
    rw [← CircuitBreaker.canExecute_stateAt, e, CircuitBreaker.canExecute_halfOpen rfl] at h
    simp [hpos] at h
  · exact if_neg hd

/-- What a round of `p` shows and does to its own breaker. -/
structure RoundEq (name : String) (r r' : Round) : Prop where
  fetched : r'.fetched = r.fetched
  outcome : r'.outcome = r.outcome
  breaker : r'.controller.circuitBreakers name = r.controller.circuitBreakers name

theorem executeFetch_congr (h : fc'.circuitBreakers p.name = fc.circuitBreakers p.name) :
    RoundEq p.name (executeFetch cfg a p fc) (executeFetch cfg a p fc') := by
  unfold executeFetch
  rw [h]
  split
  · exact ⟨rfl, rfl, by simp [FailoverController.setBreaker]⟩
  · cases a.fetch <;> exact ⟨rfl, rfl, by simp [FailoverController.setBreaker]⟩

/-- Where `connect` does not raise, a round that passes the filters and is admitted is `execute` on
    the breaker that the state read left. -/
theorem tryProvider_connected (hf : filteredOut fc req p = false) (hc : a.connectError = none)
    (hb : ((fc.circuitBreakers p.name).canExecute cfg a.checkedAt).1 = true) :
    RoundEq p.name
      (executeFetch cfg a p
        (fc.setBreaker p.name ((fc.circuitBreakers p.name).stateAt cfg a.checkedAt)))
      (tryProvider cfg req a p fc) := by
  have e : (fc.circuitBreakers p.name).canExecute cfg a.checkedAt =
      (true, (fc.circuitBreakers p.name).stateAt cfg a.checkedAt) :=
    Prod.ext hb (CircuitBreaker.canExecute_snd _ _)
  unfold tryProvider
  simp only [hf, Bool.false_eq_true, if_false, e, hc]
  split
  · exact ⟨rfl, rfl, rfl⟩
  · exact executeFetch_congr rfl

/-- A refused round changes nothing. -/
theorem tryProvider_refused (hf : filteredOut fc req p = false)
    (hb : ((fc.circuitBreakers p.name).canExecute cfg a.checkedAt).1 = false) :
    tryProvider cfg req a p fc = ⟨fc, false, .next none⟩ := by
  have e : (fc.circuitBreakers p.name).canExecute cfg a.checkedAt =
      (false, fc.circuitBreakers p.name) :=
    Prod.ext hb ((CircuitBreaker.canExecute_snd _ _).trans (stateAt_of_refused hb))
  unfold tryProvider
  simp only [hf, Bool.false_eq_true, if_false, e]
  simp [FailoverController.setBreaker]

/-- Where `connect` does not raise, a round depends on the flag and the breaker of its provider. -/
theorem tryProvider_congr (cfg : BreakerConfig) (req : QuoteRequest) (hc : a.connectError = none)
    (he : fc'.enabled p.name = fc.enabled p.name)
    (h : fc'.circuitBreakers p.name = fc.circuitBreakers p.name) :
    RoundEq p.name (tryProvider cfg req a p fc) (tryProvider cfg req a p fc') := by
  have hff : filteredOut fc' req p = filteredOut fc req p := by
    unfold filteredOut
    rw [he]
  cases hf : filteredOut fc req p with
  | true =>
    rw [tryProvider_filtered cfg a hf, tryProvider_filtered cfg a (hff.trans hf)]
    exact ⟨rfl, rfl, h⟩
  | false =>
    cases hb : ((fc.circuitBreakers p.name).canExecute cfg a.checkedAt).1 with
    | false =>
      rw [tryProvider_refused hf hb, tryProvider_refused (hff.trans hf) (by rw [h, hb])]
      exact ⟨rfl, rfl, h⟩
    | true =>
      have h1 := tryProvider_connected hf hc hb
      have h2 := tryProvider_connected (hff.trans hf) hc (h ▸ hb)
      rw [h] at h2
      have h3 : RoundEq p.name
          (executeFetch cfg a p
            (fc.setBreaker p.name ((fc.circuitBreakers p.name).stateAt cfg a.checkedAt)))
          (executeFetch cfg a p
            (fc'.setBreaker p.name ((fc.circuitBreakers p.name).stateAt cfg a.checkedAt))) :=
        executeFetch_congr (by simp [FailoverController.setBreaker])
      exact ⟨h2.fetched.trans (h3.fetched.trans h1.fetched.symm),
        h2.outcome.trans (h3.outcome.trans h1.outcome.symm),
        h2.breaker.trans (h3.breaker.trans h1.breaker.symm)⟩

/-- The breaker of a listing provider after a round on a CLOSED breaker. -/
def afterListing (cfg : BreakerConfig) (lists : String → String → Bool) (r : Request) (n : String)
    (cb : CircuitBreaker) : CircuitBreaker :=
  if lists n r.args.symbol then cb.recordSuccess cfg else cb.recordFailure cfg (r.endedAt n)

/-- A round of a listing provider on a CLOSED breaker. -/
theorem tryProvider_listing_closed (cfg : BreakerConfig) (lists : String → String → Bool)
    {r : Request} (hf : filteredOut fc r.args p = false)
    (hcl : (fc.circuitBreakers p.name).state = .CLOSED) :
    let round := tryProvider cfg r.args (listing lists r p.name) p fc
    round.fetched = true ∧
    round.outcome = (if lists p.name r.args.symbol then .answer (r.quote p.name)
      else .next (some (p.name ++ ": " ++ (r.error p.name).str))) ∧
    round.controller.circuitBreakers p.name =
      afterListing cfg lists r p.name (fc.circuitBreakers p.name) := by
  intro round
  have hs : (fc.circuitBreakers p.name).stateAt cfg (r.checkedAt p.name) =
      fc.circuitBreakers p.name := CircuitBreaker.stateAt_of_not_open (by simp [hcl])
  have hb : ((fc.circuitBreakers p.name).canExecute cfg (r.checkedAt p.name)).1 = true := by
    rw [CircuitBreaker.canExecute_closed hcl]
  obtain ⟨h1, h2, h3⟩ := tryProvider_connected (a := listing lists r p.name) hf rfl hb
  have hin : (fc.circuitBreakers p.name).enter cfg (r.startedAt p.name) =
      (true, fc.circuitBreakers p.name) := CircuitBreaker.enter_closed hcl
  rw [show (listing lists r p.name).checkedAt = r.checkedAt p.name from rfl, hs] at h1 h2 h3
  cases hl : lists p.name r.args.symbol with
  | true =>
    refine ⟨h1.trans ?_, h2.trans ?_, h3.trans ?_⟩ <;>
      simp [executeFetch, FailoverController.setBreaker, listing, hin, hl, afterListing]
  | false =>
    refine ⟨h1.trans ?_, h2.trans ?_, h3.trans ?_⟩ <;>
      simp [executeFetch, FailoverController.setBreaker, listing, hin, hl, afterListing]

/-! ## 3. What a round can do to a state -/

theorem recordFailure_closed_inv {now : ℚ} {cb : CircuitBreaker}
    (h : (cb.recordFailure cfg now).state = .CLOSED) :
    cb.state = .CLOSED ∧ (cb.recordFailure cfg now).failureCount = cb.failureCount + 1 := by
  by_cases hlt : cb.state = .CLOSED → cfg.failureThreshold ≤ cb.failureCount + 1
  · rw [CircuitBreaker.recordFailure_trip hlt] at h
    cases h
  · obtain ⟨hc, hlt⟩ := Classical.not_imp.mp hlt
    rw [CircuitBreaker.recordFailure_closed hc (Nat.lt_of_not_le hlt)]
    exact ⟨hc, rfl⟩

theorem stateAt_closed_inv {now : ℚ} {cb : CircuitBreaker}
    (h : (cb.stateAt cfg now).state = .CLOSED) : cb.state = .CLOSED := by
  by_cases hd : cb.state = .OPEN ∧ cfg.recoveryTimeout < now - cb.lastFailureTime
  · rw [CircuitBreaker.stateAt_of_due hd.1 hd.2] at h
    cases h
  · rwa [show cb.stateAt cfg now = cb from if_neg hd] at h

theorem enter_closed_inv {now : ℚ} {cb : CircuitBreaker}
    (h : (cb.enter cfg now).2.state = .CLOSED) : cb.state = .CLOSED := by
  cases hb : (cb.canExecute cfg now).1 with
  | false =>
    rw [CircuitBreaker.enter_rejected hb] at h
    exact stateAt_closed_inv h
  | true =>
    have e : cb.canExecute cfg now = (true, cb.stateAt cfg now) :=
      Prod.ext hb (CircuitBreaker.canExecute_snd now cb)
    simp only [CircuitBreaker.enter, e, CircuitBreaker.stateAt_stateAt] at h
    split at h
    · rename_i hh
      rw [hh] at h
      cases h
    · exact stateAt_closed_inv h

/-- An admitted fetch that raises `ProviderError`. -/
theorem executeFetch_failed (cfg : BreakerConfig) {e : ProviderError}
    (hin : ((fc.circuitBreakers p.name).enter cfg a.startedAt).1 = true)
    (he : a.fetch = .providerError e) :
    executeFetch cfg a p fc =
      ⟨fc.setBreaker p.name
        (((fc.circuitBreakers p.name).enter cfg a.startedAt).2.recordFailure cfg a.endedAt), true,
        .next (some (p.name ++ ": " ++ e.str))⟩ := by
  unfold executeFetch
  split
  · rename_i cb h
    rw [h] at hin
    cases hin
  · rename_i cb h
    simp only [he, h]

/-- A round of an unlisted symbol that leaves its breaker CLOSED found it CLOSED, and has charged it
    if it fetched; a round that did not fetch changes nothing. -/
theorem tryProvider_unlisted (cfg : BreakerConfig) (fc : FailoverController) {r : Request}
    (hl : lists p.name r.args.symbol = false) :
    let round := tryProvider cfg r.args (listing lists r p.name) p fc
    (∃ e, round.outcome = .next e) ∧
    (round.fetched = false → round.controller = fc) ∧
    (round.fetched = true → (round.controller.circuitBreakers p.name).state = .CLOSED →
      (fc.circuitBreakers p.name).state = .CLOSED ∧
      (fc.circuitBreakers p.name).failureCount ≤
        (round.controller.circuitBreakers p.name).failureCount) := by
  intro round
  cases hf : filteredOut fc r.args p with
  | true =>
    rw [show round = ⟨fc, false, .next none⟩ from tryProvider_filtered cfg _ hf]
    exact ⟨⟨none, rfl⟩, fun _ => rfl, fun h => by cases h⟩
  | false =>
    cases hb : ((fc.circuitBreakers p.name).canExecute cfg (r.checkedAt p.name)).1 with
    | false =>
      rw [show round = ⟨fc, false, .next none⟩ from tryProvider_refused hf hb]
      exact ⟨⟨none, rfl⟩, fun _ => rfl, fun h => by cases h⟩
    | true =>
      obtain ⟨h1, h2, h3⟩ := tryProvider_connected (a := listing lists r p.name) hf rfl hb
      generalize hfc : fc.setBreaker p.name ((fc.circuitBreakers p.name).stateAt cfg
        (listing lists r p.name).checkedAt) = fc₁ at h1 h2 h3
      have hcb : fc₁.circuitBreakers p.name =
          (fc.circuitBreakers p.name).stateAt cfg (r.checkedAt p.name) := by
        rw [← hfc]
        exact Function.update_self ..
      have hin : ((fc₁.circuitBreakers p.name).enter cfg (r.startedAt p.name)).1 = true := by
        rw [hcb, ← CircuitBreaker.canExecute_snd]
        exact enter_after_canExecute hb
      have hfail : (listing lists r p.name).fetch = .providerError (r.error p.name) := by
        simp [listing, hl]
      have he := executeFetch_failed cfg (a := listing lists r p.name) hin hfail
      have hfetched : round.fetched = true := by rw [h1, he]
      have hnext : ∃ e, round.outcome = .next e := ⟨_, by rw [h2, he]⟩
      refine ⟨hnext, fun h => absurd (hfetched.symm.trans h) (by simp), fun _ hcl => ?_⟩
      have hclosed : (fc.circuitBreakers p.name).state = .CLOSED := by
        rw [h3, he] at hcl
        have h4 := (recordFailure_closed_inv (by simpa [FailoverController.setBreaker] using hcl)).1
        exact stateAt_closed_inv (hcb ▸ enter_closed_inv h4)
      have ha := (tryProvider_listing_closed cfg lists hf hclosed).2.2
      simp only [afterListing, hl, Bool.false_eq_true, if_false] at ha
      refine ⟨hclosed, ?_⟩
      rw [show round.controller.circuitBreakers p.name = _ from ha] at hcl ⊢
      rw [(recordFailure_closed_inv hcl).2]
      exact Nat.le_succ _

/-! ## 4. The simulation -/

/-- `fc` is the run with all requests, `fc'` the one without the unlisted requests, and `K` names
    the charged providers. -/
structure Unspent (K : String → Prop) (fc fc' : FailoverController) : Prop where
  providers : fc'.providers = fc.providers
  enabled : fc'.enabled = fc.enabled
  charged : ∀ n, K n → (fc.circuitBreakers n).state = .CLOSED →
    (fc'.circuitBreakers n).state = .CLOSED ∧
      (fc'.circuitBreakers n).failureCount ≤ (fc.circuitBreakers n).failureCount
  same : ∀ n, ¬ K n → fc'.circuitBreakers n = fc.circuitBreakers n

variable {K : String → Prop}

theorem Unspent.of_iff {K' : String → Prop} (h : Unspent K fc fc') (hK : ∀ n, K' n ↔ K n) :
    Unspent K' fc fc' :=
  ⟨h.providers, h.enabled, fun n hn => h.charged n ((hK n).mp hn),
    fun n hn => h.same n fun hk => hn ((hK n).mpr hk)⟩

/-- Fewer failures on a CLOSED breaker stay fewer, and do not open it first. -/
theorem afterListing_mono {r : Request} {n : String} {cb cb' : CircuitBreaker}
    (h : cb.state = .CLOSED) (h' : cb'.state = .CLOSED) (hle : cb'.failureCount ≤ cb.failureCount)
    (hcl : (afterListing cfg lists r n cb).state = .CLOSED) :
    (afterListing cfg lists r n cb').state = .CLOSED ∧
      (afterListing cfg lists r n cb').failureCount ≤
        (afterListing cfg lists r n cb).failureCount := by
  unfold afterListing at hcl ⊢
  split
  · rw [CircuitBreaker.recordSuccess_closed h, CircuitBreaker.recordSuccess_closed h']
    exact ⟨h', Nat.sub_le_sub_right hle 1⟩
  · rename_i hl
    rw [if_neg hl] at hcl
    have hlt : cb.failureCount + 1 < cfg.failureThreshold := by
      by_contra hge
      rw [CircuitBreaker.recordFailure_trip fun _ => Nat.le_of_not_lt hge] at hcl
      cases hcl
    rw [CircuitBreaker.recordFailure_closed h hlt,
      CircuitBreaker.recordFailure_closed h' (by omega)]
    exact ⟨h', Nat.succ_le_succ hle⟩

/-- A round of `p` in both runs keeps the simulation where it keeps it at the breaker of `p`. -/
theorem Unspent.of_round (h : Unspent K fc fc') {round round' : Round}
    (hround : round = tryProvider cfg req a p fc) (hround' : round' = tryProvider cfg req a p fc')
    (hK : K p.name → (round.controller.circuitBreakers p.name).state = .CLOSED →
      (round'.controller.circuitBreakers p.name).state = .CLOSED ∧
        (round'.controller.circuitBreakers p.name).failureCount ≤
          (round.controller.circuitBreakers p.name).failureCount)
    (hnK : ¬ K p.name →
      round'.controller.circuitBreakers p.name = round.controller.circuitBreakers p.name) :
    Unspent K round.controller round'.controller := by
  subst hround hround'
  have hother : ∀ n ≠ p.name,
      (tryProvider cfg req a p fc).controller.circuitBreakers n = fc.circuitBreakers n ∧
        (tryProvider cfg req a p fc').controller.circuitBreakers n = fc'.circuitBreakers n :=
    fun n hn => ⟨(tryProvider_frame hn).breaker, (tryProvider_frame hn).breaker⟩
  refine ⟨?_, ?_, fun n hn hs => ?_, fun n hn => ?_⟩
  · rw [tryProvider_switches.1, tryProvider_switches.1, h.providers]
  · rw [tryProvider_switches.2, tryProvider_switches.2, h.enabled]
  · by_cases e : n = p.name
    · subst e
      exact hK hn hs
    · rw [(hother n e).1] at hs ⊢
      rw [(hother n e).2]
      exact h.charged n hn hs
  · by_cases e : n = p.name
    · subst e
      exact hnK hn
    · rw [(hother n e).1, (hother n e).2]
      exact h.same n hn

/-- **One round of both runs**: the same outcome, and the simulation is kept. -/
theorem round_unspent (cfg : BreakerConfig) (lists : String → String → Bool) (r : Request)
    (h : Unspent K fc fc')
    (hcl : K p.name → (fc.circuitBreakers p.name).state = .CLOSED) :
    let round := tryProvider cfg r.args (listing lists r p.name) p fc
    let round' := tryProvider cfg r.args (listing lists r p.name) p fc'
    round'.fetched = round.fetched ∧ round'.outcome = round.outcome ∧
      Unspent K round.controller round'.controller := by
  intro round round'
  by_cases hk : K p.name
  · have hcl := hcl hk
    obtain ⟨hcl', hle⟩ := h.charged p.name hk hcl
    have hff : filteredOut fc' r.args p = filteredOut fc r.args p := by
      unfold filteredOut
      rw [h.enabled]
    cases hf : filteredOut fc r.args p with
    | true =>
      have e : round = ⟨fc, false, .next none⟩ := tryProvider_filtered cfg _ hf
      have e' : round' = ⟨fc', false, .next none⟩ := tryProvider_filtered cfg _ (hff.trans hf)
      rw [e, e']
      exact ⟨rfl, rfl, h⟩
    | false =>
      obtain ⟨h1, h2, h3⟩ := tryProvider_listing_closed cfg lists hf hcl
      obtain ⟨h1', h2', h3'⟩ :=
        tryProvider_listing_closed cfg lists (hff.trans hf) hcl'
      refine ⟨h1'.trans h1.symm, h2'.trans h2.symm,
        h.of_round rfl rfl (fun _ hs => ?_) fun hn => absurd hk hn⟩
      rw [show round.controller.circuitBreakers p.name = _ from h3] at hs ⊢
      rw [show round'.controller.circuitBreakers p.name = _ from h3']
      exact afterListing_mono hcl hcl' hle hs
  · have hc := tryProvider_congr cfg r.args (a := listing lists r p.name) rfl
      (congrFun h.enabled p.name) (h.same p.name hk)
    exact ⟨hc.fetched, hc.outcome, h.of_round rfl rfl (fun hn => absurd hn hk) fun _ => hc.breaker⟩

/-! ## 5. Whole requests, and runs of them -/

variable {r : Request} {ps : List Provider}

/-- The loop over the providers that are left, in both runs. -/
theorem cascade_unspent (errors : List String) (h : Unspent K fc fc')
    (hnd : (ps.map (·.name)).Nodup)
    (hcl : ∀ p ∈ ps, K p.name → (fc.circuitBreakers p.name).state = .CLOSED) :
    let c := cascade cfg r.args (listing lists r) ps fc errors
    let c' := cascade cfg r.args (listing lists r) ps fc' errors
    c'.result = c.result ∧ c'.fetched = c.fetched ∧ Unspent K c.controller c'.controller := by
  induction ps generalizing fc fc' errors with
  | nil => exact ⟨rfl, rfl, h⟩
  | cons p ps ih =>
    obtain ⟨hf, ho, hu⟩ := round_unspent cfg lists r h
      (hcl p List.mem_cons_self)
    cases hout : (tryProvider cfg r.args (listing lists r p.name) p fc).outcome with
    | answer t =>
      rw [cascade_answer hout, cascade_answer (ho.trans hout)]
      exact ⟨rfl, rfl, hu⟩
    | next e =>
      have hcl' : ∀ q ∈ ps, K q.name → ((tryProvider cfg r.args (listing lists r p.name) p
          fc).controller.circuitBreakers q.name).state = .CLOSED := by
        intro q hq hk
        rw [(tryProvider_frame (name_ne_head hnd hq)).breaker]
        exact hcl q (List.mem_cons_of_mem p hq) hk
      obtain ⟨h1, h2, h3⟩ := ih (errors ++ e.toList) hu (List.nodup_cons.mp hnd).2 hcl'
      rw [cascade_next hout, cascade_next (ho.trans hout)]
      refine ⟨h1, ?_, h3⟩
      dsimp only
      rw [hf, h2]

/-- The loop for an unlisted symbol: the breakers it fetched through are charged. -/
theorem cascade_charges (errors : List String) (h : Unspent K fc fc')
    (hl : ∀ p ∈ ps, lists p.name r.args.symbol = false) :
    Unspent
      (fun n => K n ∨ ∃ p ∈ (cascade cfg r.args (listing lists r) ps fc errors).fetched, p.name = n)
      (cascade cfg r.args (listing lists r) ps fc errors).controller fc' := by
  induction ps generalizing fc K errors with
  | nil => exact h.of_iff fun n => by simp [cascade]
  | cons p ps ih =>
    obtain ⟨⟨e, ho⟩, hun, hch⟩ := tryProvider_unlisted cfg fc
      (hl p List.mem_cons_self)
    have hl' : ∀ q ∈ ps, lists q.name r.args.symbol = false := fun q hq =>
      hl q (List.mem_cons_of_mem p hq)
    cases hf : (tryProvider cfg r.args (listing lists r p.name) p fc).fetched with
    | false =>
      have hrest := ih (errors ++ e.toList) h hl'
      rw [cascade_next ho]
      simpa only [hf, hun hf, Bool.false_eq_true, if_false] using hrest
    | true =>
      have hround : Unspent (fun n => K n ∨ p.name = n)
          (tryProvider cfg r.args (listing lists r p.name) p fc).controller fc' := by
        refine ⟨h.providers.trans tryProvider_switches.1.symm,
          h.enabled.trans tryProvider_switches.2.symm, fun n hn hs => ?_, fun n hn => ?_⟩
        · by_cases en : n = p.name
          · subst en
            obtain ⟨hc, hle⟩ := hch hf hs
            by_cases hk : K p.name
            · obtain ⟨h1, h2⟩ := h.charged p.name hk hc
              exact ⟨h1, h2.trans hle⟩
            · rw [h.same p.name hk]
              exact ⟨hc, hle⟩
          · rw [(tryProvider_frame en).breaker] at hs ⊢
            rcases hn with hk | hk
            · exact h.charged n hk hs
            · exact absurd hk.symm en
        · have en : n ≠ p.name := fun en => hn (.inr en.symm)
          rw [(tryProvider_frame en).breaker]
          exact h.same n fun hk => hn (.inl hk)
      have hrest := ih (errors ++ e.toList) hround hl'
      rw [cascade_next ho]
      simp only [hf, if_true]
      exact hrest.of_iff fun n => by simp only [List.mem_cons, exists_eq_or_imp, or_assoc]

/-- **A request of both runs.** -/
theorem serve_unspent (h : Unspent K fc fc') (hnd : (fc.providers.map (·.name)).Nodup)
    (hcl : ∀ p ∈ fc.providers, K p.name → (fc.circuitBreakers p.name).state = .CLOSED) :
    (serve cfg lists fc' r).result = (serve cfg lists fc r).result ∧
      (serve cfg lists fc' r).fetched = (serve cfg lists fc r).fetched ∧
      Unspent K (serve cfg lists fc r).controller (serve cfg lists fc' r).controller := by
  unfold serve fetchQuote
  rw [h.providers]
  exact cascade_unspent [] h hnd hcl

theorem charged_snoc {rs : List Request} {n : String} :
    Charged cfg lists fc (rs ++ [r]) n ↔ Charged cfg lists fc rs n ∨
      isListed lists fc.providers r = false ∧
        ∃ p ∈ (serve cfg lists (serveAll cfg lists fc rs) r).fetched, p.name = n := by
  unfold Charged
  constructor
  · intro hex
    obtain ⟨pre, q, post, e, hq, hp⟩ := hex
    rcases List.eq_nil_or_concat post with rfl | ⟨post', x, rfl⟩
    · obtain ⟨rfl, e2⟩ := List.append_inj' e rfl
      cases e2
      exact .inr ⟨hq, hp⟩
    · have e' : rs ++ [r] = (pre ++ q :: post') ++ [x] := by simpa using e
      obtain ⟨rfl, -⟩ := List.append_inj' e' rfl
      exact .inl ⟨pre, q, post', rfl, hq, hp⟩
  · intro hor
    rcases hor with ⟨pre, q, post, rfl, hq, hp⟩ | ⟨hq, hp⟩
    · exact ⟨pre, q, post ++ [r], by simp, hq, hp⟩
    · exact ⟨rs, r, [], rfl, hq, hp⟩

/-- Every charged breaker has been CLOSED since. -/
def ChargesHeld (cfg : BreakerConfig) (lists : String → String → Bool) (fc : FailoverController)
    (rs : List Request) : Prop :=
  ∀ before after, rs = before ++ after → ∀ n, Charged cfg lists fc before n →
    ((serveAll cfg lists fc before).circuitBreakers n).state = .CLOSED

/-- The run with and the run without the requests for unlisted symbols. -/
theorem serveAll_unspent {rs : List Request} (hnd : (fc.providers.map (·.name)).Nodup)
    (h : ChargesHeld cfg lists fc rs) :
    Unspent (Charged cfg lists fc rs) (serveAll cfg lists fc rs)
      (serveAll cfg lists fc (rs.filter (isListed lists fc.providers))) ∧
    (serveAll cfg lists fc rs).providers = fc.providers := by
  induction rs using List.reverseRecOn with
  | nil =>
    refine ⟨⟨rfl, rfl, ?_, fun n _ => rfl⟩, rfl⟩
    intro n hex
    obtain ⟨pre, q, post, e, -⟩ := hex
    simp at e
  | append_singleton rs r ih =>
    have h' : ChargesHeld cfg lists fc rs := fun before after e =>
      h before (after ++ [r]) (by rw [e, List.append_assoc])
    obtain ⟨hu, hpr⟩ := ih h'
    rw [serveAll_snoc]
    refine ⟨?_, (cascade_switches _ _ _ _ _ _).1.trans hpr⟩
    cases hl : isListed lists fc.providers r with
    | true =>
      rw [List.filter_append, List.filter_cons_of_pos hl, List.filter_nil, serveAll_snoc]
      have hcl : ∀ p ∈ (serveAll cfg lists fc rs).providers, Charged cfg lists fc rs p.name →
          ((serveAll cfg lists fc rs).circuitBreakers p.name).state = .CLOSED := fun p _ hp =>
        h rs [r] rfl p.name hp
      exact (serve_unspent hu (hpr ▸ hnd) hcl).2.2.of_iff fun n => by simp [charged_snoc, hl]
    | false =>
      have hl' : ∀ p ∈ (serveAll cfg lists fc rs).providers, lists p.name r.args.symbol = false := by
        rw [hpr]
        simpa [isListed] using hl
      rw [List.filter_append, List.filter_cons_of_neg (by simp [hl]), List.filter_nil,
        List.append_nil]
      exact (cascade_charges [] hu hl').of_iff fun n => by simp [charged_snoc, hl]; rfl

/-- **Symbols are isolated while charged breakers hold.** For providers of distinct names that
    answer what they list: as long as every breaker charged by a request for an unlisted symbol
    has been CLOSED since, a request is answered as in the run without those requests. -/
theorem listed_isolated (cfg : BreakerConfig) (lists : String → String → Bool)
    (fc : FailoverController) (hnd : (fc.providers.map (·.name)).Nodup) (rs : List Request)
    (h : ChargesHeld cfg lists fc rs) (r : Request) :
    (serve cfg lists (serveAll cfg lists fc rs) r).answer =
      (serve cfg lists (serveAll cfg lists fc (rs.filter (isListed lists fc.providers))) r).answer := by
  obtain ⟨hu, hpr⟩ := serveAll_unspent hnd h
  obtain ⟨h1, h2, -⟩ := serve_unspent (r := r) hu (hpr ▸ hnd) fun p _ hp =>
    h rs [] (List.append_nil rs).symm p.name hp
  unfold CascadeResult.answer
  rw [h1, h2]

end Isolation

/-! ## 6. Where isolation ends -/

/-- A quote of the one provider there is, asked at second `n`. -/
def growwRequest (symbol : String) (n : Nat) : Request where
  args := { symbol := symbol, exchange := some "NSE" }
  checkedAt := fun _ => n
  startedAt := fun _ => n
  endedAt := fun _ => n
  quote := fun _ => ⟨symbol, .NSE, 2450, 0, "groww"⟩
  error := fun _ => ⟨"groww", "HTTP 404 for " ++ symbol⟩

def growwLists (name symbol : String) : Bool := name = "groww" && symbol = "RELIANCE"

def growwOnly : FailoverController := FailoverController.registerAll {} [growwProvider]

/-- One request for an unlisted symbol charges the breaker and does not open it. -/
theorem listed_isolated_once :
    (serve (.ofArgs {}) growwLists
      (serveAll (.ofArgs {}) growwLists growwOnly [growwRequest "NOSUCH" 1])
      (growwRequest "RELIANCE" 2)).answer =
    (serve (.ofArgs {}) growwLists
      (serveAll (.ofArgs {}) growwLists growwOnly ([growwRequest "NOSUCH" 1].filter
        (isListed growwLists growwOnly.providers)))
      (growwRequest "RELIANCE" 2)).answer := by
  refine listed_isolated (.ofArgs {}) growwLists growwOnly (by decide) _ ?_ _
  intro before after e n hex
  obtain ⟨pre, r, post, rfl, -, p, hp, rfl⟩ := hex
  have hpre : pre = [] ∧ post = [] := by
    have hlen := congrArg List.length e
    simp only [List.length_append, List.length_cons, List.length_nil] at hlen
    exact ⟨List.eq_nil_of_length_eq_zero (by omega), List.eq_nil_of_length_eq_zero (by omega)⟩
  obtain ⟨rfl, rfl⟩ := hpre
  obtain ⟨rfl, -⟩ := List.cons.inj e
  have hf : (serve (.ofArgs {}) growwLists growwOnly (growwRequest "NOSUCH" 1)).fetched =
      [growwProvider] := by decide
  obtain rfl : p = growwProvider := by
    have hp' : p ∈ (serve (.ofArgs {}) growwLists growwOnly (growwRequest "NOSUCH" 1)).fetched := hp
    rw [hf] at hp'
    exact List.mem_singleton.mp hp'
  decide

/-- Five requests for an unlisted symbol, one a second. -/
def unlistedRequests : List Request :=
  [growwRequest "NOSUCH" 1, growwRequest "NOSUCH" 2, growwRequest "NOSUCH" 3,
    growwRequest "NOSUCH" 4, growwRequest "NOSUCH" 5]

/-- **Requests for an unlisted symbol take a listed one down.** After five of them the breaker is
    open and the next request for a listed symbol fails, which the provider answers in the run
    without them. -/
theorem unlisted_requests_trip :
    (serve (.ofArgs {}) growwLists
      (serveAll (.ofArgs {}) growwLists growwOnly unlistedRequests)
      (growwRequest "RELIANCE" 6)).answer = none ∧
    (serve (.ofArgs {}) growwLists
      (serveAll (.ofArgs {}) growwLists growwOnly (unlistedRequests.filter
        (isListed growwLists growwOnly.providers)))
      (growwRequest "RELIANCE" 6)).answer =
        some (growwProvider, ⟨"RELIANCE", .NSE, 2450, 0, "groww"⟩) := by
  decide

end BharatTicker
