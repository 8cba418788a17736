/-
  File:      BharatTicker/Failover/Cascade.lean
  Subject:   WHO ANSWERS A QUOTE. The cascade picks the first provider, in the order of
             registration keys, that can answer.

  * `Answers` -- what "provider `p` would answer with `t`" means at a controller: the filters let it
    pass, its breaker admits, it connects and its fetch returns `t`;
  * `tryProvider_answer`, `tryProvider_frame`, `tryProvider_filtered` -- one round;
  * `FirstAnswer`, `cascade_answer_iff` -- the loop is answered by the first provider that can;
  * `cascade_ok`, `cascade_error`, `cascade_fetched`, `cascade_frame` -- its result, whom it fetches
    from and what it leaves alone, by induction on the providers that are left;
  * `registerAll_congr` -- the registered order depends on the providers only;
  * `fetchQuote_correct` -- the whole call.
-/
import BharatTicker.Basis.Aggregate
import BharatTicker.Failover

namespace BharatTicker

variable {cfg : BreakerConfig} {req : QuoteRequest}

/-! ## 1. What it takes to answer -/

/-- Provider `p`, asked at `fc`, answers with `t`. -/
structure Answers (cfg : BreakerConfig) (req : QuoteRequest) (fc : FailoverController) (a : Attempt)
    (p : Provider) (t : TickData) : Prop where
  enabled : fc.enabled p.name = true
  venue : offVenue req p = false
  source : offSource req p = false
  live : barredDelayed req p = false
  admitted : ((fc.circuitBreakers p.name).canExecute cfg a.checkedAt).1 = true
  connects : fc.isConnected p.name = true ∨ a.connectError = none
  fetches : a.fetch = .tick t

/-- Two controllers that a round at a provider of this name cannot tell apart. -/
structure AgreeAt (name : String) (fc fc' : FailoverController) : Prop where
  enabled : fc'.enabled name = fc.enabled name
  breaker : fc'.circuitBreakers name = fc.circuitBreakers name
  connected : fc'.isConnected name = fc.isConnected name

theorem AgreeAt.refl (name : String) (fc : FailoverController) : AgreeAt name fc fc := ⟨rfl, rfl, rfl⟩

theorem AgreeAt.trans {name : String} {fc₁ fc₂ fc₃ : FailoverController} (h : AgreeAt name fc₁ fc₂)
    (h' : AgreeAt name fc₂ fc₃) : AgreeAt name fc₁ fc₃ :=
  ⟨h'.enabled.trans h.enabled, h'.breaker.trans h.breaker, h'.connected.trans h.connected⟩

theorem AgreeAt.symm {name : String} {fc fc' : FailoverController} (h : AgreeAt name fc fc') :
    AgreeAt name fc' fc :=
  ⟨h.enabled.symm, h.breaker.symm, h.connected.symm⟩

theorem Answers.agree {fc fc' : FailoverController} {a : Attempt} {p : Provider} {t : TickData}
    (hans : Answers cfg req fc a p t) (h : AgreeAt p.name fc fc') : Answers cfg req fc' a p t where
  enabled := h.enabled.trans hans.enabled
  venue := hans.venue
  source := hans.source
  live := hans.live
  admitted := h.breaker ▸ hans.admitted
  connects := h.connected ▸ hans.connects
  fetches := hans.fetches

theorem answers_congr {fc fc' : FailoverController} {a : Attempt} {p : Provider} {t : TickData}
    (h : AgreeAt p.name fc fc') : Answers cfg req fc' a p t ↔ Answers cfg req fc a p t :=
  ⟨fun hans => hans.agree h.symm, fun hans => hans.agree h⟩

theorem answers_unique {fc : FailoverController} {a : Attempt} {p : Provider} {t t' : TickData}
    (h : Answers cfg req fc a p t) (h' : Answers cfg req fc a p t') : t = t' := by
  have e := h.fetches.symm.trans h'.fetches
  cases e
  rfl

theorem filteredOut_eq_false {fc : FailoverController} {p : Provider} :
    filteredOut fc req p = false ↔ fc.enabled p.name = true ∧ offVenue req p = false ∧
      offSource req p = false ∧ barredDelayed req p = false := by
  unfold filteredOut
  cases fc.enabled p.name <;> cases offVenue req p <;> cases offSource req p <;>
    cases barredDelayed req p <;> simp

/-! ## 2. One round -/

section Round

variable {a : Attempt} {p : Provider} {fc : FailoverController}

/-- A breaker that has just admitted admits again in `execute`, whatever the time. -/
theorem enter_after_canExecute {now now' : ℚ} {cb : CircuitBreaker}
    (h : (cb.canExecute cfg now).1 = true) :
    (((cb.canExecute cfg now).2).enter cfg now').1 = true := by
  rw [CircuitBreaker.canExecute_snd]
  rw [← CircuitBreaker.canExecute_stateAt] at h
  cases hst : (cb.stateAt cfg now).state with
  | CLOSED => rw [CircuitBreaker.enter_closed hst]
  | HALF_OPEN =>
    rw [CircuitBreaker.canExecute_halfOpen hst] at h
    rw [CircuitBreaker.enter_halfOpen hst (of_decide_eq_true h)]
  | OPEN => simp [CircuitBreaker.canExecute, hst] at h

/-- With an admitting breaker, `execute` fetches, and answers exactly when the fetch does. -/
theorem executeFetch_admitted (h : ((fc.circuitBreakers p.name).enter cfg a.startedAt).1 = true) :
    (executeFetch cfg a p fc).fetched = true ∧
      ∀ t, (executeFetch cfg a p fc).outcome = .answer t ↔ a.fetch = .tick t := by
  unfold executeFetch
  split
  · rename_i he
    rw [he] at h
    cases h
  · cases a.fetch <;> simp

/-- What `execute` touches: the breaker of its provider. -/
theorem executeFetch_frame {n : String} (hn : n ≠ p.name) :
    AgreeAt n fc (executeFetch cfg a p fc).controller := by
  unfold executeFetch
  split
  · exact ⟨rfl, Function.update_of_ne hn _ _, rfl⟩
  · cases a.fetch <;> exact ⟨rfl, Function.update_of_ne hn _ _, rfl⟩

/-- A provider the filters skip: nothing is asked and nothing changes. -/
theorem tryProvider_filtered (cfg : BreakerConfig) (a : Attempt) (h : filteredOut fc req p = true) :
    tryProvider cfg req a p fc = ⟨fc, false, .next none⟩ := if_pos h

/-- What one round can be, once the filters let its provider pass. -/
theorem tryProvider_cases (cfg : BreakerConfig) (a : Attempt)
    (hf : filteredOut fc req p = false) :
    (((fc.circuitBreakers p.name).canExecute cfg a.checkedAt).1 = false ∧
      ∃ cb, tryProvider cfg req a p fc = ⟨fc.setBreaker p.name cb, false, .next none⟩) ∨
    (fc.isConnected p.name = false ∧ (∃ m, a.connectError = some m) ∧
      ∃ cb, tryProvider cfg req a p fc = ⟨fc.setBreaker p.name cb, false, .next none⟩) ∨
    (((fc.circuitBreakers p.name).canExecute cfg a.checkedAt).1 = true ∧
      (fc.isConnected p.name = true ∨ a.connectError = none) ∧
      ∃ fc', tryProvider cfg req a p fc = executeFetch cfg a p fc' ∧
        fc'.circuitBreakers p.name = ((fc.circuitBreakers p.name).canExecute cfg a.checkedAt).2 ∧
        ∀ n ≠ p.name, AgreeAt n fc fc') := by
  unfold tryProvider
  rw [if_neg (by simp [hf])]
  split
  · rename_i cb he
    exact .inl ⟨by rw [he], cb, rfl⟩
  · rename_i cb he
    have hframe : ∀ n ≠ p.name, AgreeAt n fc (fc.setBreaker p.name cb) := fun n hn =>
      ⟨rfl, Function.update_of_ne hn _ _, rfl⟩
    have hcb : (fc.setBreaker p.name cb).circuitBreakers p.name = cb := Function.update_self ..
    by_cases hc : fc.isConnected p.name = true
    · refine .inr (.inr ⟨by rw [he], .inl hc, fc.setBreaker p.name cb, if_pos hc, ?_, hframe⟩)
      rw [hcb, he]
    · have hc' : fc.isConnected p.name = false := by simpa using hc
      have hc₂ : ¬ (fc.setBreaker p.name cb).isConnected p.name = true := hc
      simp only [if_neg hc₂]
      cases hm : a.connectError with
      | some m =>
        refine .inr (.inl ⟨hc', ⟨m, rfl⟩, cb.recordFailure cfg a.endedAt, ?_⟩)
        simp [FailoverController.setBreaker]
      | none =>
        refine .inr (.inr ⟨by rw [he], .inr rfl, _, rfl, ?_, fun n hn => ?_⟩)
        · rw [he]
          exact hcb
        · exact (hframe n hn).trans ⟨rfl, rfl, Function.update_of_ne hn _ _⟩

/-- **One round answers exactly when its provider can**, and then it has fetched. -/
theorem tryProvider_answer {t : TickData} :
    (tryProvider cfg req a p fc).outcome = .answer t ↔ Answers cfg req fc a p t := by
  cases hf : filteredOut fc req p with
  | true =>
    rw [tryProvider_filtered cfg a hf]
    constructor
    · intro hno
      cases hno
    · intro h
      rw [filteredOut_eq_false.2 ⟨h.enabled, h.venue, h.source, h.live⟩] at hf
      cases hf
  | false =>
    obtain ⟨h1, h2, h3, h4⟩ := filteredOut_eq_false.1 hf
    obtain ⟨hb, cb, e⟩ | ⟨hc, ⟨m, hm⟩, cb, e⟩ | ⟨hb, hc, fc', e, hcb, -⟩ :=
      tryProvider_cases cfg a hf
    · rw [e]
      constructor
      · intro hno
        cases hno
      · intro h
        rw [h.admitted] at hb
        cases hb
    · rw [e]
      constructor
      · intro hno
        cases hno
      · intro h
        rcases h.connects with h' | h'
        · rw [hc] at h'
          cases h'
        · rw [hm] at h'
          cases h'
    · have hin : ((fc'.circuitBreakers p.name).enter cfg a.startedAt).1 = true := by
        rw [hcb]
        exact enter_after_canExecute hb
      rw [e, (executeFetch_admitted hin).2 t]
      exact ⟨fun ht => ⟨h1, h2, h3, h4, hb, hc, ht⟩, fun h => h.fetches⟩

/-- A round leaves what belongs to other providers as it is. -/
theorem tryProvider_frame {n : String} (hn : n ≠ p.name) :
    AgreeAt n fc (tryProvider cfg req a p fc).controller := by
  have hset : ∀ cb, AgreeAt n fc (fc.setBreaker p.name cb) := fun cb =>
    ⟨rfl, Function.update_of_ne hn _ _, rfl⟩
  cases hf : filteredOut fc req p with
  | true =>
    rw [tryProvider_filtered cfg a hf]
    exact AgreeAt.refl n fc
  | false =>
    obtain ⟨-, cb, e⟩ | ⟨-, -, cb, e⟩ | ⟨-, -, fc', e, -, hfr⟩ :=
      tryProvider_cases cfg a hf
    · rw [e]
      exact hset cb
    · rw [e]
      exact hset cb
    · rw [e]
      exact (hfr n hn).trans (executeFetch_frame hn)

/-- A round moves nothing but breakers and connection flags. -/
theorem tryProvider_switches :
    (tryProvider cfg req a p fc).controller.providers = fc.providers ∧
      (tryProvider cfg req a p fc).controller.enabled = fc.enabled := by
  have hx : ∀ fc₁ : FailoverController, (executeFetch cfg a p fc₁).controller.providers =
      fc₁.providers ∧ (executeFetch cfg a p fc₁).controller.enabled = fc₁.enabled := by
    intro fc₁
    unfold executeFetch
    split
    · exact ⟨rfl, rfl⟩
    · cases a.fetch <;> exact ⟨rfl, rfl⟩
  unfold tryProvider
  split
  · exact ⟨rfl, rfl⟩
  · split
    · exact ⟨rfl, rfl⟩
    · dsimp only
      split
      · exact hx _
      · cases a.connectError with
        | none => exact hx _
        | some m => exact ⟨rfl, rfl⟩

end Round

/-! ## 3. The loop -/

section Loop

variable {env : String → Attempt} {ps : List Provider} {fc : FailoverController}
  {errors : List String}

/-- The loop stops at a round that answers. -/
theorem cascade_answer {p : Provider} {t : TickData}
    (h : (tryProvider cfg req (env p.name) p fc).outcome = .answer t) :
    cascade cfg req env (p :: ps) fc errors =
      ⟨(tryProvider cfg req (env p.name) p fc).controller, [p], .ok t⟩ := by
  simp only [cascade, h]

/-- The loop goes on after any other round. -/
theorem cascade_next {p : Provider} {e : Option String}
    (h : (tryProvider cfg req (env p.name) p fc).outcome = .next e) :
    cascade cfg req env (p :: ps) fc errors =
      let r := tryProvider cfg req (env p.name) p fc
      let rest := cascade cfg req env ps r.controller (errors ++ e.toList)
      { rest with fetched := if r.fetched then p :: rest.fetched else rest.fetched } := by
  simp only [cascade, h]

/-- Distinct names: a later provider does not have the name of the head. -/
theorem name_ne_head {p q : Provider} (hnd : ((p :: ps).map (·.name)).Nodup) (hq : q ∈ ps) :
    q.name ≠ p.name := by
  intro e
  exact (List.nodup_cons.mp hnd).1 (List.mem_map.mpr ⟨q, hq, e⟩)

/-- The rounds of a loop over `ps` leave what belongs to other providers as it is. -/
theorem cascade_frame_of_not_mem {n : String} (hn : ∀ p ∈ ps, n ≠ p.name) :
    AgreeAt n fc (cascade cfg req env ps fc errors).controller := by
  induction ps generalizing fc errors with
  | nil => exact AgreeAt.refl n fc
  | cons p ps ih =>
    have hp : AgreeAt n fc (tryProvider cfg req (env p.name) p fc).controller :=
      tryProvider_frame (hn p List.mem_cons_self)
    cases ho : (tryProvider cfg req (env p.name) p fc).outcome with
    | answer t =>
      rw [cascade_answer ho]
      exact hp
    | next e =>
      rw [cascade_next ho]
      exact hp.trans (ih fun q hq => hn q (List.mem_cons_of_mem p hq))

/-- What the round at the head leaves of the question whether a later provider answers. -/
theorem answers_after_head {p q : Provider} {t : TickData} (hnd : ((p :: ps).map (·.name)).Nodup)
    (hq : q ∈ ps) :
    Answers cfg req (tryProvider cfg req (env p.name) p fc).controller (env q.name) q t ↔
      Answers cfg req fc (env q.name) q t :=
  answers_congr (tryProvider_frame (name_ne_head hnd hq))

/-- `p` is the first of `ps` to answer, with `t`. -/
def FirstAnswer (cfg : BreakerConfig) (req : QuoteRequest) (env : String → Attempt)
    (fc : FailoverController) (ps : List Provider) (p : Provider) (t : TickData) : Prop :=
  ∃ pre post, ps = pre ++ p :: post ∧ Answers cfg req fc (env p.name) p t ∧
    ∀ q ∈ pre, ∀ t', ¬ Answers cfg req fc (env q.name) q t'

/-- The first to answer is the head, or the first of the rest when the head does not answer. -/
theorem firstAnswer_cons {c p : Provider} {t : TickData} :
    FirstAnswer cfg req env fc (c :: ps) p t ↔
      (p = c ∧ Answers cfg req fc (env c.name) c t) ∨
      ((∀ t', ¬ Answers cfg req fc (env c.name) c t') ∧ FirstAnswer cfg req env fc ps p t) := by
  constructor
  · intro hex
    obtain ⟨pre, post, e, hp, hpre⟩ := hex
    cases pre with
    | nil =>
      obtain ⟨rfl, rfl⟩ := List.cons.inj e
      exact .inl ⟨rfl, hp⟩
    | cons x pre =>
      obtain ⟨rfl, rfl⟩ := List.cons.inj e
      exact .inr ⟨hpre c List.mem_cons_self, pre, post, rfl, hp, fun q hq =>
        hpre q (List.mem_cons_of_mem c hq)⟩
  · intro hor
    rcases hor with ⟨rfl, hp⟩ | ⟨hc, pre, post, rfl, hp, hpre⟩
    · exact ⟨[], ps, rfl, hp, fun q hq => by cases hq⟩
    · refine ⟨c :: pre, post, rfl, hp, fun q hq => ?_⟩
      rcases List.mem_cons.mp hq with rfl | hq
      · exact hc
      · exact hpre q hq

/-- A round at a provider of another name does not move the first answer of the rest. -/
theorem firstAnswer_after_head {c p : Provider} {t : TickData}
    (hnd : ((c :: ps).map (·.name)).Nodup) :
    FirstAnswer cfg req env (tryProvider cfg req (env c.name) c fc).controller ps p t ↔
      FirstAnswer cfg req env fc ps p t := by
  unfold FirstAnswer
  refine exists_congr fun pre => exists_congr fun post => and_congr_right fun e => ?_
  subst e
  have hpre : ∀ q ∈ pre, q ∈ pre ++ p :: post := fun q hq => List.mem_append_left _ hq
  refine and_congr (answers_after_head hnd (by simp)) ?_
  exact forall₂_congr fun q hq => forall_congr' fun t' =>
    not_congr (answers_after_head hnd (hpre q hq))

/-- A tick is returned by the provider that was fetched from last. -/
theorem cascade_fetched_last {t : TickData} (h : (cascade cfg req env ps fc errors).result = .ok t) :
    ∃ p, (cascade cfg req env ps fc errors).fetched.getLast? = some p := by
  induction ps generalizing fc errors with
  | nil => cases h
  | cons c ps ih =>
    cases ho : (tryProvider cfg req (env c.name) c fc).outcome with
    | answer t₀ =>
      rw [cascade_answer ho]
      exact ⟨c, rfl⟩
    | next e =>
      rw [cascade_next ho] at h ⊢
      obtain ⟨p, hp⟩ := ih h
      refine ⟨p, ?_⟩
      dsimp only
      split
      · rw [List.getLast?_cons, hp]
        rfl
      · exact hp

theorem cascade_result_ok {t : TickData} :
    (cascade cfg req env ps fc errors).result = .ok t ↔
      ∃ p, (cascade cfg req env ps fc errors).answer = some (p, t) := by
  unfold CascadeResult.answer
  constructor
  · intro h
    obtain ⟨p, hp⟩ := cascade_fetched_last h
    exact ⟨p, by rw [h, hp]; rfl⟩
  · intro hex
    obtain ⟨p, h⟩ := hex
    split at h
    · rename_i t' ht
      obtain ⟨q, -, e⟩ := Option.map_eq_some_iff.mp h
      cases e
      exact ht
    · cases h

/-- After a round that does not answer, the answer is that of the rest. -/
theorem cascade_next_answer {c : Provider} {e : Option String}
    (h : (tryProvider cfg req (env c.name) c fc).outcome = .next e) :
    (cascade cfg req env (c :: ps) fc errors).answer =
      (cascade cfg req env ps (tryProvider cfg req (env c.name) c fc).controller
        (errors ++ e.toList)).answer := by
  rw [cascade_next h]
  unfold CascadeResult.answer
  dsimp only
  split
  · rename_i t ht
    obtain ⟨p, hp⟩ := cascade_fetched_last ht
    split
    · rw [List.getLast?_cons, hp]
      rfl
    · rfl
  · rfl

/-- **The loop is answered by the first provider that can.** -/
theorem cascade_answer_iff {p : Provider} {t : TickData} (hnd : (ps.map (·.name)).Nodup) :
    (cascade cfg req env ps fc errors).answer = some (p, t) ↔
      FirstAnswer cfg req env fc ps p t := by
  induction ps generalizing fc errors with
  | nil =>
    constructor
    · intro hno
      cases hno
    · intro hex
      obtain ⟨pre, post, e, -⟩ := hex
      simp at e
  | cons c ps ih =>
    rw [firstAnswer_cons]
    cases ho : (tryProvider cfg req (env c.name) c fc).outcome with
    | answer t₀ =>
      have h₀ : Answers cfg req fc (env c.name) c t₀ := tryProvider_answer.1 ho
      rw [cascade_answer ho]
      constructor
      · intro hno
        cases hno
        exact .inl ⟨rfl, h₀⟩
      · intro hor
        rcases hor with ⟨rfl, h⟩ | ⟨h, -⟩
        · rw [answers_unique h h₀]
          rfl
        · exact absurd h₀ (h t₀)
    | next e =>
      have h₀ : ∀ t', ¬ Answers cfg req fc (env c.name) c t' := by
        intro t' h'
        rw [tryProvider_answer.2 h'] at ho
        cases ho
      rw [cascade_next_answer ho, ih (List.nodup_cons.mp hnd).2, firstAnswer_after_head hnd]
      constructor
      · exact fun h => .inr ⟨h₀, h⟩
      · intro hor
        rcases hor with ⟨-, h⟩ | ⟨-, h⟩
        · exact absurd h (h₀ t)
        · exact h

/-- **The loop returns the tick of the first provider that answers.** -/
theorem cascade_ok {t : TickData} (hnd : (ps.map (·.name)).Nodup) :
    (cascade cfg req env ps fc errors).result = .ok t ↔
      ∃ p, FirstAnswer cfg req env fc ps p t := by
  rw [cascade_result_ok]
  exact exists_congr fun p => cascade_answer_iff hnd

/-- The loop ends with a tick or with the error over all providers. -/
theorem cascade_result (cfg : BreakerConfig) (req : QuoteRequest) (env : String → Attempt)
    (ps : List Provider) (fc : FailoverController) (errors : List String) :
    (∃ t, (cascade cfg req env ps fc errors).result = .ok t) ∨
      ∃ errs, (cascade cfg req env ps fc errors).result = .error (allFailed req.symbol errs) := by
  induction ps generalizing fc errors with
  | nil => exact .inr ⟨errors, rfl⟩
  | cons p ps ih =>
    cases ho : (tryProvider cfg req (env p.name) p fc).outcome with
    | answer t =>
      rw [cascade_answer ho]
      exact .inl ⟨t, rfl⟩
    | next e =>
      rw [cascade_next ho]
      exact ih _ _

/-- The first element of a list with a property, when there is one. -/
theorem exists_first {α : Type*} {P : α → Prop} {l : List α} (h : ∃ a ∈ l, P a) :
    ∃ pre a post, l = pre ++ a :: post ∧ P a ∧ ∀ b ∈ pre, ¬ P b := by
  induction l with
  | nil =>
    obtain ⟨a, ha, -⟩ := h
    cases ha
  | cons c l ih =>
    by_cases hc : P c
    · exact ⟨[], c, l, rfl, hc, fun b hb => by cases hb⟩
    · obtain ⟨a, ha, hP⟩ := h
      rcases List.mem_cons.mp ha with rfl | ha
      · exact absurd hP hc
      · obtain ⟨pre, x, post, rfl, hx, hpre⟩ := ih ⟨a, ha, hP⟩
        refine ⟨c :: pre, x, post, rfl, hx, fun b hb => ?_⟩
        rcases List.mem_cons.mp hb with rfl | hb
        · exact hc
        · exact hpre b hb

/-- **The loop raises exactly when no provider answers.** -/
theorem cascade_error (hnd : (ps.map (·.name)).Nodup) :
    (∃ errs, (cascade cfg req env ps fc errors).result = .error (allFailed req.symbol errs)) ↔
      ∀ p ∈ ps, ∀ t, ¬ Answers cfg req fc (env p.name) p t := by
  constructor
  · intro hex p hp t h
    obtain ⟨errs, he⟩ := hex
    obtain ⟨pre, w, post, e, ⟨t', hw⟩, hpre⟩ := exists_first (P := fun q => ∃ t, Answers cfg req fc
      (env q.name) q t) ⟨p, hp, t, h⟩
    have hok : (cascade cfg req env ps fc errors).result = .ok t' := (cascade_ok hnd).mpr
      ⟨w, pre, post, e, hw, fun q hq t' h' => hpre q hq ⟨t', h'⟩⟩
    rw [he] at hok
    cases hok
  · intro hno
    rcases cascade_result cfg req env ps fc errors with ⟨t, ht⟩ | h
    · obtain ⟨w, pre, post, rfl, hw, -⟩ := (cascade_ok hnd).mp ht
      exact absurd hw (hno w (by simp) t)
    · exact h

/-- The providers fetched from, in order, are among those of the loop. -/
theorem cascade_fetched : (cascade cfg req env ps fc errors).fetched.Sublist ps := by
  induction ps generalizing fc errors with
  | nil => exact List.Sublist.refl []
  | cons p ps ih =>
    cases ho : (tryProvider cfg req (env p.name) p fc).outcome with
    | answer t =>
      rw [cascade_answer ho]
      exact List.Sublist.cons_cons p (List.nil_sublist ps)
    | next e =>
      rw [cascade_next ho]
      dsimp only
      split
      · exact List.Sublist.cons_cons p ih
      · exact List.Sublist.cons p ih

/-- A loop moves nothing but breakers and connection flags. -/
theorem cascade_switches (cfg : BreakerConfig) (req : QuoteRequest) (env : String → Attempt)
    (ps : List Provider) (fc : FailoverController) (errors : List String) :
    (cascade cfg req env ps fc errors).controller.providers = fc.providers ∧
      (cascade cfg req env ps fc errors).controller.enabled = fc.enabled := by
  induction ps generalizing fc errors with
  | nil => exact ⟨rfl, rfl⟩
  | cons p ps ih =>
    cases ho : (tryProvider cfg req (env p.name) p fc).outcome with
    | answer t =>
      rw [cascade_answer ho]
      exact tryProvider_switches
    | next e =>
      obtain ⟨h1, h2⟩ := ih (tryProvider cfg req (env p.name) p fc).controller (errors ++ e.toList)
      rw [cascade_next ho]
      exact ⟨h1.trans tryProvider_switches.1, h2.trans tryProvider_switches.2⟩

/-- **A provider that the filters skip, or that comes after one that answers, is left alone.** -/
theorem cascade_frame {p : Provider} {pre post : List Provider}
    (hnd : ((pre ++ p :: post).map (·.name)).Nodup)
    (h : filteredOut fc req p = true ∨ ∃ w ∈ pre, ∃ t, Answers cfg req fc (env w.name) w t) :
    AgreeAt p.name fc (cascade cfg req env (pre ++ p :: post) fc errors).controller := by
  induction pre generalizing fc errors with
  | nil =>
    have hpost : ∀ q ∈ post, p.name ≠ q.name := fun q hq => (name_ne_head hnd hq).symm
    rcases h with hf | ⟨w, hw, -⟩
    · have e := tryProvider_filtered cfg (env p.name) hf
      rw [List.nil_append, cascade_next (by rw [e])]
      rw [e]
      exact cascade_frame_of_not_mem hpost
    · cases hw
  | cons c pre ih =>
    have hnd' := (List.nodup_cons.mp hnd).2
    have hpc : p.name ≠ c.name := name_ne_head hnd (by simp)
    have hround : AgreeAt p.name fc (tryProvider cfg req (env c.name) c fc).controller :=
      tryProvider_frame hpc
    rw [List.cons_append]
    cases ho : (tryProvider cfg req (env c.name) c fc).outcome with
    | answer t =>
      rw [cascade_answer ho]
      exact hround
    | next err =>
      rw [cascade_next ho]
      refine hround.trans (ih hnd' ?_)
      rcases h with hf | ⟨w, hw, t, ht⟩
      · refine .inl ?_
        unfold filteredOut at hf ⊢
        rwa [hround.enabled]
      · rcases List.mem_cons.mp hw with rfl | hw
        · rw [tryProvider_answer.2 ht] at ho
          cases ho
        · exact .inr ⟨w, hw, t, (answers_after_head hnd (by simp [hw])).mpr ht⟩

end Loop

/-! ## 4. The registered order -/

section Order

open FailoverController

/-- The registered list is sorted by the key. -/
def KeyOrdered (ps : List Provider) : Prop := ps.Pairwise fun p q => p.sortKey ≤ q.sortKey

/-- Registration keeps every provider there was and adds the new one. -/
theorem registerAll_perm (fc : FailoverController) (ps : List Provider) :
    (registerAll fc ps).providers.Perm (fc.providers ++ ps) := by
  unfold registerAll
  induction ps generalizing fc with
  | nil => simp
  | cons p ps ih =>
    have h : (fc.registerProvider p).providers.Perm (fc.providers ++ [p]) :=
      List.perm_insertionSort _ _
    refine (ih (fc.registerProvider p)).trans ?_
    have h' := h.append_right ps
    rwa [List.append_assoc] at h'

theorem registerProvider_keyOrdered (fc : FailoverController) (p : Provider) :
    KeyOrdered (fc.registerProvider p).providers :=
  Basis.insertionSort_key Provider.sortKey _

/-- After every registration the providers are in the order of their keys. -/
theorem registerAll_keyOrdered (fc : FailoverController) (ps : List Provider)
    (h : KeyOrdered fc.providers) : KeyOrdered (registerAll fc ps).providers := by
  unfold registerAll
  induction ps generalizing fc with
  | nil => exact h
  | cons p ps ih => exact ih _ (registerProvider_keyOrdered fc p)

/-- The key tells providers of distinct names apart. -/
theorem name_eq_of_sortKey_le {p q : Provider} (h : p.sortKey ≤ q.sortKey)
    (h' : q.sortKey ≤ p.sortKey) : p.name = q.name :=
  congrArg (fun k => (ofLex k).2) (le_antisymm h h')

/-- **The order does not depend on the order of registration.** -/
theorem registerAll_congr {ps ps' : List Provider} (hnd : (ps.map (·.name)).Nodup)
    (h : ps'.Perm ps) : (registerAll {} ps').providers = (registerAll {} ps).providers := by
  have hp : (registerAll {} ps').providers.Perm ps' := by simpa using registerAll_perm {} ps'
  have hq : (registerAll {} ps).providers.Perm ps := by simpa using registerAll_perm {} ps
  refine List.Perm.eq_of_pairwise ?_ (registerAll_keyOrdered {} ps' List.Pairwise.nil)
    (registerAll_keyOrdered {} ps List.Pairwise.nil) (hp.trans (h.trans hq.symm))
  intro a b ha hb hab hba
  exact List.inj_on_of_nodup_map hnd ((hp.trans h).mem_iff.mp ha) (hq.mem_iff.mp hb)
    (name_eq_of_sortKey_le hab hba)

end Order

/-! ## 5. The whole call -/

section Whole

variable {ps : List Provider}

/-- In an ordered list, what answers after a first answerer has a larger key. -/
theorem first_le {A : Provider → Prop} {pre post : List Provider} {p q : Provider}
    (ho : KeyOrdered (pre ++ p :: post)) (hpre : ∀ x ∈ pre, ¬ A x) (hq : q ∈ pre ++ p :: post)
    (hA : A q) : p.sortKey ≤ q.sortKey := by
  rcases List.mem_append.mp hq with h | h
  · exact absurd hA (hpre q h)
  · rcases List.mem_cons.mp h with rfl | h
    · exact le_refl _
    · exact (List.pairwise_cons.mp (List.pairwise_append.mp ho).2.1).1 q h

/-- A provider with a smaller key stands before. -/
theorem mem_pre_of_lt {pre post : List Provider} {p w : Provider}
    (ho : KeyOrdered (pre ++ p :: post)) (hw : w ∈ pre ++ p :: post) (hlt : w.sortKey < p.sortKey) :
    w ∈ pre := by
  rcases List.mem_append.mp hw with h | h
  · exact h
  · rcases List.mem_cons.mp h with rfl | h
    · exact absurd hlt (lt_irrefl _)
    · have hle := (List.pairwise_cons.mp (List.pairwise_append.mp ho).2.1).1 w h
      exact absurd hlt (not_lt_of_ge hle)

/-- **In the order of the keys the loop returns the tick of the least provider that answers.** -/
theorem cascade_ok_least {fc : FailoverController} {env : String → Attempt} {t : TickData}
    (hnd : (ps.map (·.name)).Nodup) (ho : KeyOrdered ps) :
    (cascade cfg req env ps fc []).result = .ok t ↔
      ∃ p ∈ ps, Answers cfg req fc (env p.name) p t ∧
        ∀ q ∈ ps, (∃ t', Answers cfg req fc (env q.name) q t') → p.sortKey ≤ q.sortKey := by
  refine (cascade_ok hnd).trans ?_
  constructor
  · intro hex
    obtain ⟨p, pre, post, e, hp, hpre⟩ := hex
    subst e
    refine ⟨p, by simp, hp, fun q hq hA => ?_⟩
    refine first_le (A := fun q => ∃ t', Answers cfg req fc (env q.name) q t') ho ?_ hq hA
    intro x hx hex
    obtain ⟨t', h'⟩ := hex
    exact hpre x hx t' h'
  · intro hex
    obtain ⟨p, hp, hA, hmin⟩ := hex
    obtain ⟨pre, w, post, e, ⟨t', hw⟩, hpre⟩ := exists_first
      (P := fun q => ∃ t, Answers cfg req fc (env q.name) q t) ⟨p, hp, t, hA⟩
    have hwm : w ∈ ps := by simp [e]
    have hwp : w.sortKey ≤ p.sortKey := by
      rw [e] at ho hp
      exact first_le ho hpre hp ⟨t, hA⟩
    obtain rfl : w = p := List.inj_on_of_nodup_map hnd hwm hp
      (name_eq_of_sortKey_le hwp (hmin w hwm ⟨t', hw⟩))
    exact ⟨w, pre, post, e, hA, fun q hq t' h' => hpre q hq ⟨t', h'⟩⟩

/-- **`fetch_quote` is the cascade it is meant to be.** Of the providers registered, in whatever
    order, the call returns the tick of the one with the smallest key that answers; it raises the
    error over all providers exactly when none does; it fetches from each provider at most once;
    and it leaves alone the breakers of those that are filtered out or come after the answer. -/
theorem fetchQuote_correct (cfg : BreakerConfig) (ps : List Provider)
    (hnd : (ps.map (·.name)).Nodup) (enabled : String → Bool) (breakers : String → CircuitBreaker)
    (isConnected : String → Bool) (req : QuoteRequest) (env : String → Attempt) :
    let fc : FailoverController :=
      ⟨(FailoverController.registerAll {} ps).providers, breakers, enabled, isConnected⟩
    let r := fetchQuote cfg req env fc
    (∀ t, r.result = .ok t ↔
      ∃ p ∈ ps, Answers cfg req fc (env p.name) p t ∧
        ∀ q ∈ ps, (∃ t', Answers cfg req fc (env q.name) q t') → p.sortKey ≤ q.sortKey) ∧
    ((∃ errors, r.result = .error (allFailed req.symbol errors)) ↔
      ∀ p ∈ ps, ∀ t, ¬ Answers cfg req fc (env p.name) p t) ∧
    (∀ ps' : List Provider, ps'.Perm ps →
      (FailoverController.registerAll {} ps').providers = fc.providers) ∧
    (r.fetched.map (·.name)).Nodup ∧
    (∀ p ∈ ps, (filteredOut fc req p = true ∨
        ∃ w ∈ ps, w.sortKey < p.sortKey ∧ ∃ t, Answers cfg req fc (env w.name) w t) →
      r.controller.circuitBreakers p.name = fc.circuitBreakers p.name) := by
  intro fc r
  have hperm : fc.providers.Perm ps := by simpa using registerAll_perm {} ps
  have hmem : ∀ p, p ∈ fc.providers ↔ p ∈ ps := fun p => hperm.mem_iff
  have ho : KeyOrdered fc.providers := registerAll_keyOrdered {} ps List.Pairwise.nil
  have hnd' : (fc.providers.map (·.name)).Nodup := (hperm.map _).nodup_iff.mpr hnd
  refine ⟨fun t => ?_, ?_, fun ps' h => registerAll_congr hnd h, ?_, ?_⟩
  · refine (cascade_ok_least hnd' ho).trans ?_
    simp only [hmem]
  · rw [show r = cascade cfg req env fc.providers fc [] from rfl, cascade_error hnd']
    exact ⟨fun h p hp => h p ((hmem p).mpr hp), fun h p hp => h p ((hmem p).mp hp)⟩
  · exact (cascade_fetched.map _).nodup hnd'
  · intro p hp h
    obtain ⟨pre, post, e⟩ := List.append_of_mem ((hmem p).mpr hp)
    have hr : r = cascade cfg req env (pre ++ p :: post) fc [] := by
      rw [← e]
      rfl
    rw [e] at hnd'
    rw [hr]
    refine (cascade_frame hnd' ?_).breaker
    rcases h with h | ⟨w, hw, hlt, hA⟩
    · exact .inl h
    · refine .inr ⟨w, ?_, hA⟩
      have hw' : w ∈ fc.providers := (hmem w).mpr hw
      rw [e] at ho hw'
      exact mem_pre_of_lt ho hw' hlt

def sampleTick : TickData where
  symbol := "RELIANCE"
  exchange := .NSE
  ltp := 2450
  source := "yahoo_finance"

/-- The first provider fails with a `ProviderError`, the second answers. -/
def primaryFails (name : String) : Attempt where
  checkedAt := 0
  startedAt := 0
  fetch := if name = "nse_scraper" then .providerError ⟨"nse_scraper", "WAF blocked"⟩
    else .tick sampleTick
  endedAt := 0

theorem fetchQuote_correct_fallback :
    (fetchQuote (.ofArgs {}) { symbol := "RELIANCE" } primaryFails
      ⟨(FailoverController.registerAll {} [yahooFinanceProvider, nseScraper]).providers, fun _ => {},
        fun _ => true, fun _ => false⟩).result = .ok sampleTick := by
  refine ((fetchQuote_correct (.ofArgs {}) [yahooFinanceProvider, nseScraper] (by decide)
    (fun _ => true) (fun _ => {}) (fun _ => false) { symbol := "RELIANCE" } primaryFails).1
    sampleTick).mpr ⟨yahooFinanceProvider, by simp, ?_, ?_⟩
  · exact ⟨rfl, rfl, rfl, rfl, rfl, .inr rfl, by decide⟩
  · intro q hq hex
    obtain ⟨t', h'⟩ := hex
    rcases List.mem_pair.mp hq with rfl | rfl
    · exact le_refl _
    · have hf : (primaryFails "nse_scraper").fetch = .tick t' := h'.fetches
      rw [show (primaryFails "nse_scraper").fetch
        = .providerError ⟨"nse_scraper", "WAF blocked"⟩ by decide] at hf
      cases hf

end Whole

end BharatTicker
