/-
  File:      BharatTicker/ProxyPool/Status.lean
  Subject:   DOES LOOKING AT THE POOL CHANGE ITS PICKS? `status` asks `current` for the proxy in use, and
             `current` counts a use. Only the least-used strategy reads the counts.

  * `answers` -- what the calls other than `status` return;
  * `Indifferent`, `select_indifferent` -- the pick does not depend on the counts;
  * `current_uses`, `call_answer_uses`, `call_uses` -- two pools that differ in their counts;
  * `status_pure_iff` -- the calls return the same with and without `status` between them exactly for
    the strategies that do not read the counts, and where there is no choice.
-/
import BharatTicker.ProxyPool.Parked

namespace BharatTicker

open Basis

-- the concrete runs below compute with rationals
unseal Rat.add Rat.mul Rat.sub Rat.inv

namespace ProxyPool

/-! ## 1. Two pools that differ in their counts -/

/-- What the calls return, those of `status` left out. -/
def answers : ProxyPool → List PoolCall → List PoolAnswer
  | _, [] => []
  | pool, c :: cs =>
    let (answer, pool') := pool.call c
    if c.method = .status then answers pool' cs else answer :: answers pool' cs

/-- The same pool with other counts of uses. -/
def withUses (pool : ProxyPool) (uses : Dict String ℕ) : ProxyPool := { pool with uses := uses }

/-- The strategy does not read the counts, or there is no choice. -/
def Indifferent (strategy : ProxyStrategy) (proxies : ProxyList) : Prop :=
  strategy ≠ .leastUsed ∨ ∀ p ∈ proxies.texts, ∀ q ∈ proxies.texts, p = q

section Uses

variable {pool : ProxyPool} {c : PoolCall}

/-- **The pick does not depend on the counts.** -/
theorem select_indifferent (h : Indifferent pool.strategy pool.proxies)
    (hne : pool.proxies.texts ≠ []) (uses : Dict String ℕ) (now : ℚ) (draw : ℕ) :
    (pool.withUses uses).select now draw = pool.select now draw := by
  rcases h with hstrategy | hsame
  · unfold select
    cases hs : pool.strategy with
    | roundRobin =>
      simp only [withUses, hs]
      rfl
    | random =>
      simp only [withUses, hs]
      rfl
    | leastUsed => exact absurd hs hstrategy
  · obtain ⟨p, hp⟩ := exists_select pool hne now draw
    obtain ⟨q, hq⟩ := exists_select (pool.withUses uses) hne now draw
    have hmem : q ∈ (pool.withUses uses).proxies.texts := mem_of_candidates (mem_of_select hq)
    rw [hp, hq, hsame q hmem p (mem_of_candidates (mem_of_select hp))]

theorem current_uses (h : Indifferent pool.strategy pool.proxies) (uses : Dict String ℕ) (now : ℚ)
    (draw : ℕ) : ((pool.withUses uses).current now draw).1 = (pool.current now draw).1 := by
  rw [current_fst, current_fst]
  by_cases hne : pool.proxies.texts = []
  · rw [if_pos hne]
    exact if_pos hne
  · rw [if_neg hne, select_indifferent h hne]
    exact if_neg hne

theorem park_withUses (bad : Option String) (t : ℚ) (uses : Dict String ℕ) :
    (pool.withUses uses).park bad t = (pool.park bad t).withUses uses := by
  unfold park
  cases bad with
  | none => rfl
  | some bad =>
    dsimp only
    split <;> rfl

theorem rotate_uses (h : Indifferent pool.strategy pool.proxies) (uses : Dict String ℕ)
    (bad : Option String) (early late : ℚ) (draw : ℕ) :
    ((pool.withUses uses).rotate bad early late draw).1 = (pool.rotate bad early late draw).1 := by
  obtain ⟨d, hd⟩ := pool.park_frame bad early
  unfold rotate
  rw [park_withUses, hd]
  by_cases hne : pool.proxies.texts = []
  · have hne' : (pool.withUses uses).proxies.texts = [] := hne
    rw [if_pos hne, if_pos hne']
  · have hne' : (pool.withUses uses).proxies.texts ≠ [] := hne
    rw [if_neg hne, if_neg hne']
    let rotated : ProxyPool :=
      { pool with deadUntil := d, idx := (pool.idx + 1) % pool.proxies.texts.length }
    have hrotated : Indifferent rotated.strategy rotated.proxies := h
    exact current_uses hrotated uses late draw

theorem asProxies_uses (h : Indifferent pool.strategy pool.proxies) (uses : Dict String ℕ)
    (proxy : Option String) (now : ℚ) (draw : ℕ) :
    ((pool.withUses uses).asProxies proxy now draw).1 = (pool.asProxies proxy now draw).1 := by
  unfold asProxies
  by_cases hown : proxy = none ∨ proxy = some ""
  · simp only [if_pos hown, current_uses h]
    cases (pool.current now draw).1 <;> rfl
  · simp only [if_neg hown]
    cases proxy <;> rfl

/-- **A call other than `status` returns the same** when the counts differ. -/
theorem call_answer_uses (h : Indifferent pool.strategy pool.proxies) (hc : c.method ≠ .status)
    (uses : Dict String ℕ) : ((pool.withUses uses).call c).1 = (pool.call c).1 := by
  unfold call
  cases hm : c.method with
  | current => simp only [Prod.map, current_uses h]
  | rotate bad => simp only [Prod.map, rotate_uses h]
  | asProxies proxy => simp only [Prod.map, asProxies_uses h]
  | status => exact absurd hm hc

/-- A call leaves two pools that differ in their counts with that difference. -/
theorem call_uses (pool : ProxyPool) (c : PoolCall) (uses : Dict String ℕ) :
    ∃ uses', ((pool.withUses uses).call c).2 = (pool.call c).2.withUses uses' := by
  by_cases hne : pool.proxies.texts = []
  · have hne' : (pool.withUses uses).proxies.texts = [] := hne
    exact ⟨uses, by rw [call_of_empty hne, call_of_empty hne']⟩
  · have hne' : (pool.withUses uses).proxies.texts ≠ [] := hne
    obtain ⟨u, hu⟩ := call_snd hne c
    obtain ⟨u', hu'⟩ := call_snd hne' c
    refine ⟨u', ?_⟩
    rw [hu, hu', park_withUses]
    rfl

/-- `status` changes nothing but the counts. -/
theorem call_status (pool : ProxyPool) (hc : c.method = .status) :
    ∃ uses, (pool.call c).2 = pool.withUses uses := by
  by_cases hne : pool.proxies.texts = []
  · exact ⟨pool.uses, call_of_empty hne c⟩
  · obtain ⟨u, hu⟩ := call_snd hne c
    rw [hc] at hu
    exact ⟨u, hu⟩

theorem call_strategy (pool : ProxyPool) (c : PoolCall) :
    (pool.call c).2.strategy = pool.strategy := by
  by_cases hne : pool.proxies.texts = []
  · rw [call_of_empty hne]
  · obtain ⟨u, hu⟩ := call_snd hne c
    obtain ⟨d, hd⟩ := pool.park_frame c.method.bad c.early
    rw [hu, hd]

theorem answers_status (hc : c.method = .status) (cs : List PoolCall) :
    answers pool (c :: cs) = answers (pool.call c).2 cs := if_pos hc

theorem answers_cons (hc : c.method ≠ .status) (cs : List PoolCall) :
    answers pool (c :: cs) = (pool.call c).1 :: answers (pool.call c).2 cs := if_neg hc

/-- **Calls with `status` between them, and without**: a pool with other counts answers the same. -/
theorem answers_filter (h : Indifferent pool.strategy pool.proxies) (uses : Dict String ℕ)
    (cs : List PoolCall) :
    answers (pool.withUses uses) (cs.filter fun c => c.method ≠ .status) = answers pool cs := by
  induction cs generalizing pool uses with
  | nil => rfl
  | cons c cs ih =>
    have hnext : Indifferent (pool.call c).2.strategy (pool.call c).2.proxies := by
      rwa [call_strategy, call_proxies]
    by_cases hc : c.method = .status
    · obtain ⟨u, hu⟩ := call_status pool hc
      rw [List.filter_cons_of_neg (by simpa using hc), answers_status hc, ← ih hnext uses, hu]
      rfl
    · obtain ⟨u, hu⟩ := call_uses pool c uses
      rw [List.filter_cons_of_pos (by simpa using hc), answers_cons hc, answers_cons hc,
        call_answer_uses h hc, hu, ih hnext u]

end Uses

/-! ## 2. The least-used strategy -/

section LeastUsed

variable {proxies : ProxyList} {p q : String} {rest : List String}

theorem usesOf_init (strategy : ProxyStrategy) (p : String) : (init proxies strategy).usesOf p = 0 := by
  unfold usesOf init
  rw [Dict.get?_update_graph (f := fun _ => 0) (by
    intro e he
    obtain ⟨q, -, rfl⟩ := List.mem_map.mp he
    rfl)]
  split <;> rfl

/-- On a new pool every proxy may be picked. -/
theorem candidates_init (strategy : ProxyStrategy) :
    (init proxies strategy).candidates 0 = proxies.texts := by
  have halive : (init proxies strategy).alive 0 = proxies.texts :=
    List.filter_eq_self.mpr fun p _ => decide_eq_true (le_refl 0)
  unfold candidates
  rw [halive]
  split
  · rfl
  · rfl

/-- A new pool picks the first proxy. -/
theorem select_init (h : proxies.texts = p :: rest) :
    (init proxies .leastUsed).select 0 0 = some p := by
  have hzero : (init proxies .leastUsed).usesOf = fun _ => 0 := funext (usesOf_init .leastUsed)
  show List.argmin _ ((init proxies .leastUsed).candidates 0) = some p
  rw [candidates_init, hzero, h, List.argmin_cons]
  cases List.argmin (fun _ => 0) rest <;> rfl

theorem current_of_select {pool : ProxyPool} {now : ℚ} {draw : ℕ} (hne : pool.proxies.texts ≠ [])
    (h : pool.select now draw = some p) :
    pool.current now draw = (some p, pool.withUses (pool.uses.set p (pool.usesOf p + 1))) := by
  unfold current
  rw [if_neg hne, h]
  rfl

/-- `status` on a new pool counts a use of the first proxy. -/
theorem status_init (h : proxies.texts = p :: rest) :
    ((init proxies .leastUsed).call ⟨.status, 0, 0, 0⟩).2 =
      (init proxies .leastUsed).withUses ((init proxies .leastUsed).uses.set p 1) := by
  have hne : (init proxies .leastUsed).proxies.texts ≠ [] := by
    show proxies.texts ≠ []
    rw [h]
    exact List.cons_ne_nil p rest
  have henabled : (init proxies .leastUsed).enabled = true := by
    show (!proxies.texts.isEmpty) = true
    rw [h]
    rfl
  have hcurrent := current_of_select hne (select_init h)
  rw [usesOf_init] at hcurrent
  simp only [call, status, henabled, if_true, hcurrent, Prod.map, id]

/-- After a use of the first proxy, the pick is another one, if there is one. -/
theorem select_used (hq : q ∈ proxies.texts) (hne : q ≠ p) :
    ((init proxies .leastUsed).withUses
      ((init proxies .leastUsed).uses.set p 1)).select 0 0 ≠ some p := by
  intro hr
  let pool := (init proxies .leastUsed).withUses ((init proxies .leastUsed).uses.set p 1)
  have hp1 : pool.usesOf p = 1 := by
    show ((Dict.set _ p 1).get? p).getD 0 = 1
    rw [Dict.get?_set_self]
    rfl
  have hq0 : pool.usesOf q = 0 := by
    show ((Dict.set _ p 1).get? q).getD 0 = 0
    rw [Dict.get?_set_of_ne _ _ hne]
    exact usesOf_init .leastUsed q
  have hmin : List.argmin pool.usesOf proxies.texts = some p := by
    rw [← candidates_init .leastUsed]
    exact hr
  have hle := List.le_of_mem_argmin hq hmin
  rw [hp1, hq0] at hle
  omega

/-- **`status` before the first `current`** moves the pick of the least-used strategy on. -/
theorem status_moves (h : proxies.texts = p :: rest) (hq : q ∈ proxies.texts) (hne : q ≠ p) :
    (init proxies .leastUsed).answers [⟨.status, 0, 0, 0⟩, ⟨.current, 0, 0, 0⟩] ≠
      (init proxies .leastUsed).answers [⟨.current, 0, 0, 0⟩] := by
  have hnil : proxies.texts ≠ [] := List.ne_nil_of_mem hq
  intro heq
  rw [answers_status rfl, answers_cons (by decide), answers_cons (by decide), status_init h] at heq
  have hcall : ∀ pool : ProxyPool, (pool.call ⟨.current, 0, 0, 0⟩).1 = .proxy (pool.current 0 0).1 :=
    fun _ => rfl
  have hfst := (List.cons.inj heq).1
  rw [hcall, hcall, current_fst, current_fst, select_init h, if_neg, if_neg] at hfst
  · exact select_used hq hne (PoolAnswer.proxy.inj hfst)
  · exact hnil
  · exact hnil

end LeastUsed

end ProxyPool

/-! ## 3. When looking changes nothing -/

/-- **`status` is a pure observation exactly where the counts are not read or there is no choice**: for
    every list of proxies and strategy, the other calls of every sequence return the same with and
    without the calls of `status` between them iff the strategy is not the least-used one or all
    proxies are equal. -/
theorem status_pure_iff (proxies : ProxyList) (strategy : ProxyStrategy) :
    (∀ cs : List PoolCall,
      (ProxyPool.init proxies strategy).answers (cs.filter fun c => c.method ≠ .status) =
        (ProxyPool.init proxies strategy).answers cs) ↔
    strategy ≠ .leastUsed ∨ ∀ p ∈ proxies.texts, ∀ q ∈ proxies.texts, p = q := by
  constructor
  · intro h
    by_contra hread
    rw [not_or, not_not] at hread
    obtain ⟨rfl, hchoice⟩ := hread
    push Not at hchoice
    obtain ⟨p, hp, q, hq, hpq⟩ := hchoice
    obtain ⟨first, rest, htexts⟩ := List.exists_cons_of_ne_nil (List.ne_nil_of_mem hp)
    have heq := h [⟨.status, 0, 0, 0⟩, ⟨.current, 0, 0, 0⟩]
    by_cases hfirst : p = first
    · exact ProxyPool.status_moves htexts hq (fun e => hpq (hfirst.trans e.symm)) heq.symm
    · exact ProxyPool.status_moves htexts hp hfirst heq.symm
  · intro h cs
    have hindifferent : ProxyPool.Indifferent (ProxyPool.init proxies strategy).strategy
        (ProxyPool.init proxies strategy).proxies := h
    exact ProxyPool.answers_filter hindifferent _ cs

/-- With two proxies, least used first: a look at the status moves the next request to the other
    proxy. -/
theorem status_not_pure : ¬∀ cs : List PoolCall,
    (ProxyPool.init twoProxies .leastUsed).answers (cs.filter fun c => c.method ≠ .status) =
      (ProxyPool.init twoProxies .leastUsed).answers cs := by
  intro h
  exact absurd (h [⟨.status, 0, 0, 0⟩, ⟨.current, 0, 0, 0⟩]) (by decide)

end BharatTicker
