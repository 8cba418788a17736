/-
  File:      BharatTicker/SbQuotes/SessionOpen.lean
  Subject:   WHOSE SESSION'S OPEN A BULK QUOTE CARRIES.

  Before 09:15 the feed still quotes the previous session's open. `_fill_open` remembers what it
  fetched under the date alone, so an open fetched before 09:15 is the open of that date for the
  rest of the day. As long as every open of a trading day is taken from a tick quoted from 09:15 on,
  and no warm quote of an earlier day is taken, each open that is served is the day's own.

  * `UpstreamOpens` -- the feed's opens;
  * `quotedAt`, `FillsInSession`, `meets` -- the condition;
  * `OpenInv`, `step_openInv` -- the invariant;
  * `session_open_current` -- all sequences; `previous_open_served` -- without the condition.
-/
import BharatTicker.SbQuotes

namespace BharatTicker

open Basis

-- the concrete runs below compute with rationals
unseal Rat.add Rat.mul Rat.sub Rat.inv

namespace QuotesState

/-! ## 1. The feed -/

section Opens

variable (holiday : ℤ → Bool) (opens : String → ℤ → ℚ)

/-- The open that is quoted at a time: from 09:15 of a trading day on that of its session, before
    that, and on other days, that of the session before. `opens s day` is the open of the session of
    `day` of the symbol `s`. -/
def UpstreamOpens (a : QuotesAction × ℚ) : Prop :=
  ∀ e symbol tick, a.1.upstream.live e symbol = some tick →
    (tradingDay holiday (istDay a.2) = true → sessionStart (istDay a.2) ≤ a.2 →
      tick.opening = opens (upper symbol) (istDay a.2)) ∧
    ∀ day < istDay a.2, tradingDay holiday day = true →
      (∀ d, day < d → d < istDay a.2 → tradingDay holiday d = false) →
      (tradingDay holiday (istDay a.2) = true → a.2 < sessionStart (istDay a.2)) →
      tick.opening = opens (upper symbol) day

end Opens

/-! ## 2. The condition -/

section Condition

variable (cfg : QuoteSettings) (holiday : ℤ → Bool)

/-- When the tick that `_live_quote` would return was quoted. -/
def quotedAt (e : Exchange) (now : ℚ) (st : QuotesState) (symbol : String) : ℚ :=
  match st.liveHit cfg e now symbol with
  | some hit => hit.1
  | none => now

/-- Every open that a fill would fetch, for the symbols that the batch feed answers and that have no
    open of the day in the memo, would be one quoted from 09:15 of the day on. -/
def FillsInSession (up : Upstream) (e : Exchange) (now : ℚ) (symbols : List String)
    (st : QuotesState) : Prop :=
  ∀ symbol ∈ symbols, (fastRow up e false symbol).isSome = true →
    (∀ o, st.sessionOpen symbol ≠ some (istDay now, o)) →
    sessionStart (istDay now) ≤ st.quotedAt cfg e now symbol

/-- **The condition.** On a trading day, a request or a warm refresh that fills in opens fetches none
    that was quoted before 09:15, and from 09:15 on a request takes no warm quote that was given its
    open on an earlier day. -/
def meets (st : QuotesState) (a : QuotesAction × ℚ) : Prop :=
  tradingDay holiday (istDay a.2) = true →
  match a.1 with
  | .quotes call =>
    (call.rich = false → call.fast = false → FillsInSession cfg call.upstream call.exchange a.2
      (call.syms.filter fun s => (st.warmTaken cfg call a.2 s).isNone) st) ∧
    (sessionStart (istDay a.2) ≤ a.2 → ∀ symbol q, st.warmTaken cfg call a.2 symbol = some q →
      ∀ t, q.filledAt = some t → istDay t = istDay a.2)
  | .warmRefresh up symbols =>
    cfg.warmFast = false → FillsInSession cfg up .NSE a.2 symbols st
  | .live .. => True

end Condition

/-! ## 3. The invariant -/

section Invariant

variable (holiday : ℤ → Bool) (opens : String → ℤ → ℚ)

/-- An open that was filled in on a trading day is that of the day. -/
def RightOpen (symbol : String) (q : SbQuote) : Prop :=
  ∀ t, q.filledAt = some t → tradingDay holiday (istDay t) = true →
    q.opening = some (opens (upper symbol) (istDay t))

/-- A quote served from 09:15 of a trading day on, if its open was filled in, has the open of the
    day. -/
def ServedRight (x : ℚ × String × SbQuote) : Prop :=
  x.2.2.filledAt ≠ none → tradingDay holiday (istDay x.1) = true →
    sessionStart (istDay x.1) ≤ x.1 → x.2.2.opening = some (opens (upper x.2.1) (istDay x.1))

structure OpenInv (now : ℚ) (st : QuotesState) : Prop where
  live : ∀ e symbol hit, st.liveCache e symbol = some hit → hit.1 ≤ now ∧
    (tradingDay holiday (istDay hit.1) = true → sessionStart (istDay hit.1) ≤ hit.1 →
      hit.2.opening = opens symbol (istDay hit.1))
  memo : ∀ symbol day o, st.sessionOpen symbol = some (day, o) → tradingDay holiday day = true →
    o = opens (upper symbol) day
  warm : ∀ symbol hit, st.warm symbol = some hit → RightOpen holiday opens symbol hit.2
  served : ∀ x ∈ st.served, ServedRight holiday opens x

/-- What the feed answers from 09:15 on. -/
def Honest (up : Upstream) (now : ℚ) : Prop :=
  ∀ e symbol tick, up.live e symbol = some tick → tradingDay holiday (istDay now) = true →
    sessionStart (istDay now) ≤ now → tick.opening = opens (upper symbol) (istDay now)

def RightMap (quotes : QuoteMap) : Prop :=
  ∀ symbol q, quotes symbol = some q → RightOpen holiday opens symbol q

end Invariant

section Functions

variable {holiday : ℤ → Bool} {opens : String → ℤ → ℚ} {cfg : QuoteSettings} {up : Upstream}
  {e : Exchange} {now : ℚ} {st : QuotesState}

theorem openInv_init (t₀ : ℚ) : OpenInv holiday opens t₀ { now := t₀ } :=
  ⟨fun _ _ _ h => (by cases h), fun _ _ _ h => (by cases h), fun _ _ h => (by cases h),
    fun _ h => (by cases h)⟩

theorem OpenInv.later (h : OpenInv holiday opens now st) {now' : ℚ} (hle : now ≤ now') :
    OpenInv holiday opens now' st :=
  ⟨fun e symbol hit hhit => ⟨(h.live e symbol hit hhit).1.trans hle, (h.live e symbol hit hhit).2⟩,
    h.memo, h.warm, h.served⟩

/-- A quote that was not filled in has nothing to be checked. -/
theorem rightOpen_of_unfilled {symbol : String} {q : SbQuote} (h : q.filledAt = none) :
    RightOpen holiday opens symbol q := by
  intro t ht
  rw [h] at ht
  cases ht

theorem RightMap.set {quotes : QuoteMap} (h : RightMap holiday opens quotes) {symbol : String}
    {q : SbQuote} (hq : RightOpen holiday opens symbol q) :
    RightMap holiday opens (Function.update quotes symbol (some q)) := by
  intro s q' hs
  rcases update_eq_some hs with ⟨rfl, rfl⟩ | ⟨-, hs⟩
  · exact hq
  · exact h s q' hs

/-! ### The live quote -/

/-- What a live quote leaves alone. -/
structure KeepsMemo (cfg : QuoteSettings) (e : Exchange) (now : ℚ) (st st' : QuotesState) :
    Prop where
  memo : st'.sessionOpen = st.sessionOpen
  quoted : ∀ symbol, st'.quotedAt cfg e now symbol = st.quotedAt cfg e now symbol

theorem KeepsMemo.refl : KeepsMemo cfg e now st st := ⟨rfl, fun _ => rfl⟩

theorem KeepsMemo.trans {st' st'' : QuotesState} (h : KeepsMemo cfg e now st st')
    (h' : KeepsMemo cfg e now st' st'') : KeepsMemo cfg e now st st'' :=
  ⟨h'.memo.trans h.memo, fun symbol => (h'.quoted symbol).trans (h.quoted symbol)⟩

/-- A tick that is cached now is one quoted now. -/
theorem liveQuote_keepsMemo (cfg : QuoteSettings) (up : Upstream) (e : Exchange) (now : ℚ)
    (st : QuotesState) (symbol : String) :
    KeepsMemo cfg e now st (st.liveQuote cfg up e now symbol).2 := by
  unfold liveQuote
  cases hhit : st.liveHit cfg e now symbol with
  | some hit => exact KeepsMemo.refl
  | none =>
    cases up.live e symbol with
    | none => exact KeepsMemo.refl
    | some tick =>
      refine ⟨rfl, fun s => ?_⟩
      unfold quotedAt
      by_cases hs : upper s = upper symbol
      · have hsame : st.liveHit cfg e now s = none := by
          unfold liveHit at hhit ⊢
          rw [hs]
          exact hhit
        rw [hsame]
        unfold liveHit
        dsimp only
        rw [Function.update_self, hs, Function.update_self, Option.filter_some]
        by_cases hfresh : decide (now - (now, tick).1 < cfg.liveTtl) = true
        · rw [if_pos hfresh]
        · rw [if_neg hfresh]
      · have hother : ∀ hit, Function.update (st.liveCache e) (upper symbol) hit (upper s) =
            st.liveCache e (upper s) := fun hit => Function.update_of_ne hs ..
        unfold liveHit
        dsimp only
        rw [Function.update_self, hother]

theorem liveQuote_inv (cfg : QuoteSettings) (e : Exchange) (h : OpenInv holiday opens now st)
    (hup : Honest holiday opens up now) (symbol : String) :
    OpenInv holiday opens now (st.liveQuote cfg up e now symbol).2 := by
  unfold liveQuote
  cases st.liveHit cfg e now symbol with
  | some hit => exact h
  | none =>
    cases hlive : up.live e symbol with
    | none => exact h
    | some tick =>
      refine ⟨fun e' s hit hhit => ?_, h.memo, h.warm, h.served⟩
      dsimp only at hhit
      by_cases he : e' = e
      · subst he
        rw [Function.update_self] at hhit
        by_cases hs : s = upper symbol
        · subst hs
          rw [Function.update_self] at hhit
          cases hhit
          exact ⟨le_refl _, hup e' symbol tick hlive⟩
        · rw [Function.update_of_ne hs] at hhit
          exact h.live e' s hit hhit
      · rw [Function.update_of_ne he] at hhit
        exact h.live e' s hit hhit

/-- **A tick quoted from 09:15 of a trading day on has the open of the day.** -/
theorem liveQuote_opening (h : OpenInv holiday opens now st) (hup : Honest holiday opens up now)
    {symbol : String} {tick : LiveTick} (ht : (st.liveQuote cfg up e now symbol).1 = some tick)
    (hday : tradingDay holiday (istDay now) = true)
    (hquoted : sessionStart (istDay now) ≤ st.quotedAt cfg e now symbol) :
    tick.opening = opens (upper symbol) (istDay now) := by
  unfold liveQuote at ht
  unfold quotedAt at hquoted
  cases hhit : st.liveHit cfg e now symbol with
  | some hit =>
    rw [hhit] at ht hquoted
    cases ht
    obtain ⟨hle, hopen⟩ := h.live e (upper symbol) hit (Option.filter_eq_some_iff.mp hhit).1
    have hsame : istDay hit.1 = istDay now := istDay_of_session hquoted hle
    rw [← hsame] at hday hquoted ⊢
    exact hopen hday hquoted
  | none =>
    rw [hhit] at ht hquoted
    cases hlive : up.live e symbol with
    | none =>
      rw [hlive] at ht
      cases ht
    | some tick' =>
      rw [hlive] at ht
      cases ht
      exact hup e symbol tick hlive hday hquoted

/-! ### The batch -/

theorem batchOne_right (cfg : QuoteSettings) (e : Exchange) (rich : Bool) (symbol : String)
    {acc : QuoteMap × QuotesState} (h : OpenInv holiday opens now acc.2)
    (hmap : RightMap holiday opens acc.1)
    (hup : Honest holiday opens up now) :
    OpenInv holiday opens now (batchOne cfg up e now rich acc symbol).2 ∧
      RightMap holiday opens (batchOne cfg up e now rich acc symbol).1 ∧
      KeepsMemo cfg e now acc.2 (batchOne cfg up e now rich acc symbol).2 := by
  have hinv := liveQuote_inv cfg e h hup symbol
  have hkeep := liveQuote_keepsMemo cfg up e now acc.2 symbol
  rcases batchOne_cases cfg up e now rich acc symbol with ⟨row, -, hone⟩ | ⟨-, tick, -, hone⟩ |
    ⟨-, -, hone⟩
  · rw [hone]
    exact ⟨h, hmap.set (rightOpen_of_unfilled rfl), KeepsMemo.refl⟩
  · rw [hone]
    exact ⟨hinv, hmap.set (rightOpen_of_unfilled rfl), hkeep⟩
  · rw [hone]
    exact ⟨hinv, hmap, hkeep⟩

theorem batchQuotes_right (cfg : QuoteSettings) (e : Exchange) (rich : Bool)
    (symbols : List String) {acc : QuoteMap × QuotesState} (h : OpenInv holiday opens now acc.2)
    (hmap : RightMap holiday opens acc.1)
    (hup : Honest holiday opens up now) :
    OpenInv holiday opens now (batchQuotes cfg up e now rich symbols acc).2 ∧
      RightMap holiday opens (batchQuotes cfg up e now rich symbols acc).1 ∧
      KeepsMemo cfg e now acc.2 (batchQuotes cfg up e now rich symbols acc).2 := by
  induction symbols generalizing acc with
  | nil => exact ⟨h, hmap, KeepsMemo.refl⟩
  | cons symbol symbols ih =>
    obtain ⟨hinv, hmap', hkeep⟩ := batchOne_right cfg e rich symbol h hmap hup
    obtain ⟨hinv', hmap'', hkeep'⟩ := ih hinv hmap'
    exact ⟨hinv', hmap'', hkeep.trans hkeep'⟩

theorem batchOne_map {acc : QuoteMap × QuotesState} {rich : Bool} (symbol : String) :
    ∀ s q, (batchOne cfg up e now rich acc symbol).1 s = some q → acc.1 s = some q ∨
      s = symbol ∧ q.filledAt = none ∧ (q.opening = none → (fastRow up e rich s).isSome = true) := by
  intro s q hq
  rcases batchOne_cases cfg up e now rich acc symbol with ⟨row, hrow, hone⟩ | ⟨-, tick, -, hone⟩ |
    ⟨-, -, hone⟩
  · rw [hone] at hq
    rcases update_eq_some hq with ⟨rfl, rfl⟩ | ⟨-, hq⟩
    · exact .inr ⟨rfl, rfl, fun _ => by rw [hrow]; rfl⟩
    · exact .inl hq
  · rw [hone] at hq
    rcases update_eq_some hq with ⟨rfl, rfl⟩ | ⟨-, hq⟩
    · exact .inr ⟨rfl, rfl, fun ho => by cases ho⟩
    · exact .inl hq
  · rw [hone] at hq
    exact .inl hq

/-- **The quotes of a batch are those that there were, and new ones, not filled in**; a new one has
    no open only where the batch feed answered. -/
theorem batchQuotes_map {acc : QuoteMap × QuotesState} {rich : Bool} {symbols : List String} :
    ∀ s q, (batchQuotes cfg up e now rich symbols acc).1 s = some q → acc.1 s = some q ∨
      s ∈ symbols ∧ q.filledAt = none ∧
        (q.opening = none → (fastRow up e rich s).isSome = true) := by
  induction symbols generalizing acc with
  | nil => exact fun s q hq => .inl hq
  | cons symbol symbols ih =>
    intro s q hq
    rcases ih s q hq with hq | ⟨hmem, hfilled, hrow⟩
    · rcases batchOne_map symbol s q hq with hq | ⟨rfl, hfilled, hrow⟩
      · exact .inl hq
      · exact .inr ⟨List.mem_cons_self, hfilled, hrow⟩
    · exact .inr ⟨List.mem_cons_of_mem _ hmem, hfilled, hrow⟩

/-! ### The fill -/

/-- What a fill needs: an open that it would fetch is quoted from 09:15 on. -/
def Fillable (cfg : QuoteSettings) (holiday : ℤ → Bool) (e : Exchange) (now : ℚ)
    (acc : QuoteMap × QuotesState) : Prop :=
  tradingDay holiday (istDay now) = true → ∀ symbol q, acc.1 symbol = some q → q.opening = none →
    (∀ o, acc.2.sessionOpen symbol ≠ some (istDay now, o)) →
    sessionStart (istDay now) ≤ acc.2.quotedAt cfg e now symbol

/-- What a fill keeps. -/
structure FillInv (cfg : QuoteSettings) (holiday : ℤ → Bool) (opens : String → ℤ → ℚ)
    (e : Exchange) (now : ℚ) (acc : QuoteMap × QuotesState) : Prop where
  inv : OpenInv holiday opens now acc.2
  right : RightMap holiday opens acc.1
  fillable : Fillable cfg holiday e now acc

theorem RightMap.fill {quotes : QuoteMap} (h : RightMap holiday opens quotes) {symbol : String}
    {q : SbQuote} (hfilled : q.filledAt = some now)
    (hopen : tradingDay holiday (istDay now) = true →
      q.opening = some (opens (upper symbol) (istDay now))) :
    RightMap holiday opens (Function.update quotes symbol (some q)) := by
  refine h.set fun t ht hday => ?_
  rw [hfilled] at ht
  cases ht
  exact hopen hday

/-- A quote that has its open is not fetched for. -/
theorem Fillable.set {acc : QuoteMap × QuotesState} (h : Fillable cfg holiday e now acc)
    {symbol : String} {q : SbQuote} (hq : q.opening ≠ none) {st' : QuotesState}
    (hmemo : ∀ s, s ≠ symbol → st'.sessionOpen s = acc.2.sessionOpen s)
    (hquoted : ∀ s, st'.quotedAt cfg e now s = acc.2.quotedAt cfg e now s) :
    Fillable cfg holiday e now (Function.update acc.1 symbol (some q), st') := by
  intro hday s q' hs hnone hno
  dsimp only at hs hno ⊢
  rcases update_eq_some hs with ⟨rfl, rfl⟩ | ⟨he, hs⟩
  · exact absurd hnone hq
  · rw [hmemo s he] at hno
    rw [hquoted]
    exact h hday s q' hs hnone hno

/-- **Filling one quote in keeps the invariant**, from the memo or by a fetch. -/
theorem fillQuote_inv {acc : QuoteMap × QuotesState} {symbol : String} {q : SbQuote}
    (h : FillInv cfg holiday opens e now acc) (hup : Honest holiday opens up now)
    (hq : acc.1 symbol = some q) (hnone : q.opening = none) :
    FillInv cfg holiday opens e now (fillQuote cfg up e now acc symbol q) := by
  have hinv := liveQuote_inv cfg e h.inv hup symbol
  have hkeep := liveQuote_keepsMemo cfg up e now acc.2 symbol
  rcases fillQuote_cases cfg up e now acc symbol q with ⟨o, hmemo, hfill⟩ |
    ⟨hno, ⟨tick, htick, hfill⟩ | ⟨-, hfill⟩⟩
  · rw [hfill]
    exact ⟨h.inv, h.right.fill rfl fun htrading => congrArg some (h.inv.memo symbol _ o hmemo htrading),
      h.fillable.set (by simp) (fun _ _ => rfl) fun _ => rfl⟩
  · have hopen : tradingDay holiday (istDay now) = true →
        tick.opening = opens (upper symbol) (istDay now) := fun hday =>
      liveQuote_opening h.inv hup htick hday (h.fillable hday symbol q hq hnone hno)
    have hset : ∀ s, s ≠ symbol → Function.update
        (acc.2.liveQuote cfg up e now symbol).2.sessionOpen symbol
          (some (istDay now, tick.opening)) s = acc.2.sessionOpen s := by
      intro s hs
      rw [Function.update_of_ne hs, hkeep.memo]
    rw [hfill]
    refine ⟨⟨hinv.live, fun s day o ho hday => ?_, hinv.warm, hinv.served⟩,
      h.right.fill rfl fun hday => congrArg some (hopen hday),
      h.fillable.set (by simp [SbQuote.fill]) hset hkeep.quoted⟩
    dsimp only at ho
    by_cases hs : s = symbol
    · subst hs
      rw [Function.update_self] at ho
      cases ho
      exact hopen hday
    · rw [Function.update_of_ne hs] at ho
      exact hinv.memo s day o ho hday
  · rw [hfill]
    refine ⟨hinv, h.right, fun hday s q' hs hnone' hno' => ?_⟩
    dsimp only at hno' ⊢
    rw [hkeep.memo] at hno'
    rw [hkeep.quoted]
    exact h.fillable hday s q' hs hnone' hno'

theorem fillOpen_inv (symbols : List String) {acc : QuoteMap × QuotesState}
    (h : FillInv cfg holiday opens e now acc) (hup : Honest holiday opens up now) :
    FillInv cfg holiday opens e now (fillOpen cfg up e now symbols acc) := by
  induction symbols generalizing acc with
  | nil => exact h
  | cons symbol symbols ih =>
    refine @ih (fillOne cfg up e now acc symbol) ?_
    rcases fillOne_cases cfg up e now acc symbol with hone | ⟨q, hq, hopen, hone⟩
    · rwa [hone]
    · rw [hone]
      exact fillQuote_inv h hup hq hopen

theorem fillOne_map {acc : QuoteMap × QuotesState} {symbol s : String} {q : SbQuote}
    (hq : (fillOne cfg up e now acc symbol).1 s = some q) :
    acc.1 s = some q ∨ q.filledAt = some now := by
  rcases fillOne_cases cfg up e now acc symbol with hone | ⟨q₀, -, -, hone⟩
  · rw [hone] at hq
    exact .inl hq
  · rw [hone] at hq
    rcases fillQuote_cases cfg up e now acc symbol q₀ with ⟨o, -, hfill⟩ |
      ⟨-, ⟨tick, -, hfill⟩ | ⟨-, hfill⟩⟩
    · rw [hfill] at hq
      rcases update_eq_some hq with ⟨rfl, rfl⟩ | ⟨-, hq⟩
      · exact .inr rfl
      · exact .inl hq
    · rw [hfill] at hq
      rcases update_eq_some hq with ⟨rfl, rfl⟩ | ⟨-, hq⟩
      · exact .inr rfl
      · exact .inl hq
    · rw [hfill] at hq
      exact .inl hq

/-- The quotes after a fill are those before it, and ones that it has filled in. -/
theorem fillOpen_map {acc : QuoteMap × QuotesState} {symbols : List String} :
    ∀ s q, (fillOpen cfg up e now symbols acc).1 s = some q →
      acc.1 s = some q ∨ q.filledAt = some now := by
  induction symbols generalizing acc with
  | nil => exact fun s q hq => .inl hq
  | cons symbol symbols ih =>
    intro s q hq
    rcases ih s q hq with hq | hq
    · exact fillOne_map hq
    · exact .inr hq

/-- An enrichment leaves the opens, the memo and what else is remembered. -/
theorem enrichQuotes_right (symbols : List String) {acc : QuoteMap × QuotesState}
    (hinv : OpenInv holiday opens now acc.2) :
    OpenInv holiday opens now (enrichQuotes up e symbols acc).2 ∧
      ∀ s q, (enrichQuotes up e symbols acc).1 s = some q →
        ∃ q₀, acc.1 s = some q₀ ∧ q.opening = q₀.opening ∧ q.filledAt = q₀.filledAt := by
  induction symbols generalizing acc with
  | nil => exact ⟨hinv, fun s q hq => ⟨q, hq, rfl, rfl⟩⟩
  | cons symbol symbols ih =>
    have hone : OpenInv holiday opens now (enrichOne up e acc symbol).2 ∧
        ∀ s q, (enrichOne up e acc symbol).1 s = some q →
          ∃ q₀, acc.1 s = some q₀ ∧ q.opening = q₀.opening ∧ q.filledAt = q₀.filledAt := by
      unfold enrichOne
      cases hq₀ : acc.1 symbol with
      | none => exact ⟨hinv, fun s q hq => ⟨q, hq, rfl, rfl⟩⟩
      | some q₀ =>
        dsimp only
        refine ⟨?_, fun s q hq => ?_⟩
        · rw [enrichMeta_eq]
          exact ⟨hinv.live, hinv.memo, hinv.warm, hinv.served⟩
        · by_cases hs : s = symbol
          · subst hs
            rw [Function.update_self] at hq
            cases hq
            exact ⟨q₀, hq₀, rfl, rfl⟩
          · rw [Function.update_of_ne hs] at hq
            exact ⟨q, hq, rfl, rfl⟩
    obtain ⟨hinv', hmap⟩ := ih hone.1
    refine ⟨hinv', fun s q hq => ?_⟩
    obtain ⟨q₁, hq₁, hopen₁, hfilled₁⟩ := hmap s q hq
    obtain ⟨q₀, hq₀, hopen₀, hfilled₀⟩ := hone.2 s q₁ hq₁
    exact ⟨q₀, hq₀, hopen₁.trans hopen₀, hfilled₁.trans hfilled₀⟩

/-! ## 4. One action -/

theorem warmTaken_cases {call : QuotesCall} {symbol : String} {q : SbQuote}
    (h : st.warmTaken cfg call now symbol = some q) :
    (∃ t, st.warm symbol = some (t, q)) ∧ (call.fast = false → q.opening ≠ none) := by
  obtain ⟨-, h⟩ := Option.ite_none_right_eq_some.mp h
  unfold warmGet at h
  cases hwarm : st.warm symbol with
  | none =>
    rw [hwarm] at h
    cases h
  | some hit =>
    rw [hwarm] at h
    dsimp only at h
    obtain ⟨-, h⟩ := Option.ite_none_left_eq_some.mp h
    obtain ⟨-, h⟩ := Option.ite_none_left_eq_some.mp h
    obtain ⟨hopen, h⟩ := Option.ite_none_left_eq_some.mp h
    cases h
    exact ⟨⟨hit.1, rfl⟩, fun hfast hnone => hopen ⟨hfast, hnone⟩⟩

/-- Enriched or not, the quotes keep their opens. -/
theorem enriched_right {call : QuotesCall} {acc : QuoteMap × QuotesState}
    (hinv : OpenInv holiday opens now acc.2) :
    OpenInv holiday opens now (enriched call acc).2 ∧
      ∀ s q, (enriched call acc).1 s = some q →
        ∃ q₀, acc.1 s = some q₀ ∧ q.opening = q₀.opening ∧ q.filledAt = q₀.filledAt := by
  unfold enriched
  split
  · exact enrichQuotes_right call.syms.dedup hinv
  · exact ⟨hinv, fun s q hq => ⟨q, hq, rfl, rfl⟩⟩

/-- A right quote, if it was filled in on the day it is served. -/
theorem servedRight_of_right {symbol : String} {q : SbQuote} (hright : RightOpen holiday opens symbol q)
    (hday : ∀ t, q.filledAt = some t → tradingDay holiday (istDay now) = true →
      sessionStart (istDay now) ≤ now → istDay t = istDay now) :
    ServedRight holiday opens (now, symbol, q) := by
  intro hfilled htrading hstart
  obtain ⟨t, ht⟩ := Option.ne_none_iff_exists'.mp hfilled
  have hopen := hright t ht
  rw [hday t ht htrading hstart] at hopen
  exact hopen htrading

/-- **A response of right quotes**: enriched or not, what is served is right. -/
theorem openInv_respond {call : QuotesCall} {acc : QuoteMap × QuotesState}
    (hacc : OpenInv holiday opens now acc.2)
    (hright : ∀ s q, acc.1 s = some q → ServedRight holiday opens (now, s, q)) :
    OpenInv holiday opens now { (enriched call acc).2 with
      served := (enriched call acc).2.served ++
        call.syms.filterMap fun s => ((enriched call acc).1 s).map fun q => (now, s, q)
      responses := (enriched call acc).2.responses ++
        [(call.exchange, call.response (enriched call acc).1)] } := by
  obtain ⟨hinv, hmap⟩ : OpenInv holiday opens now (enriched call acc).2 ∧
      ∀ s q, (enriched call acc).1 s = some q →
        ∃ q₀, acc.1 s = some q₀ ∧ q.opening = q₀.opening ∧ q.filledAt = q₀.filledAt :=
    enriched_right hacc
  refine ⟨hinv.live, hinv.memo, hinv.warm, fun x hx => ?_⟩
  rcases List.mem_append.mp hx with hx | hx
  · exact hinv.served x hx
  · obtain ⟨s, -, hx⟩ := List.mem_filterMap.mp hx
    obtain ⟨q', hq', rfl⟩ := Option.map_eq_some_iff.mp hx
    obtain ⟨q, hq, hopening, hfilledAt⟩ := hmap s q' hq'
    intro hfilled hday hstart
    have hfilled : q.filledAt ≠ none := hfilledAt ▸ hfilled
    exact hopening.trans (hright s q hq hfilled hday hstart)

/-- **A request whose fills are in session serves right opens.** -/
theorem sbQuotes_inv {call : QuotesCall} (h : OpenInv holiday opens now st)
    (hup : Honest holiday opens call.upstream now) (hmeet : meets cfg holiday st (.quotes call, now)) :
    OpenInv holiday opens now (st.sbQuotes cfg call now) := by
  have hwarm : RightMap holiday opens (st.warmTaken cfg call now) := by
    intro symbol q hq
    obtain ⟨⟨t, ht⟩, -⟩ := warmTaken_cases hq
    exact h.warm symbol (t, q) ht
  obtain ⟨hinv, hmap, hkeep⟩ : OpenInv holiday opens now (st.gather cfg call now).2 ∧
      RightMap holiday opens (st.gather cfg call now).1 ∧
      KeepsMemo cfg call.exchange now st (st.gather cfg call now).2 :=
    batchQuotes_right cfg call.exchange call.rich _ h hwarm hup
  have hold : ∀ s q, (st.gather cfg call now).1 s = some q → ∀ t, q.filledAt = some t →
      st.warmTaken cfg call now s = some q := by
    intro s q hq t ht
    rcases batchQuotes_map s q hq with hq | ⟨-, hfilled, -⟩
    · exact hq
    · rw [ht] at hfilled
      cases hfilled
  -- what was filled in, in the request or before
  have hserved : ∀ quotes : QuoteMap, RightMap holiday opens quotes →
      (∀ s q, quotes s = some q → (st.gather cfg call now).1 s = some q ∨ q.filledAt = some now) →
      ∀ s q, quotes s = some q → ServedRight holiday opens (now, s, q) := by
    intro quotes hright hfrom s q hq
    refine servedRight_of_right (hright s q hq) fun t ht hday hstart => ?_
    rcases hfrom s q hq with hq | hnow
    · exact (hmeet hday).2 hstart s q (hold s q hq t ht) t ht
    · rw [ht] at hnow
      cases hnow
      rfl
  unfold sbQuotes filled
  dsimp only
  split
  · rename_i hfill
    have hlack : Fillable cfg holiday call.exchange now (st.gather cfg call now) := by
      intro hday symbol q hq hnone hno
      rw [hkeep.memo] at hno
      rw [hkeep.quoted]
      rcases batchQuotes_map symbol q hq with hq | ⟨hmem, -, hrow⟩
      · exact absurd hnone ((warmTaken_cases hq).2 hfill.2)
      · rw [hfill.1] at hrow
        exact (hmeet hday).1 hfill.1 hfill.2 symbol hmem (hrow hnone) hno
    have hfilled := fillOpen_inv call.syms.dedup ⟨hinv, hmap, hlack⟩ hup
    exact openInv_respond hfilled.inv (hserved _ hfilled.right fillOpen_map)
  · exact openInv_respond hinv (hserved _ hmap fun s q hq => .inl hq)

/-- A warm cache of right quotes and of what was there before. -/
theorem openInv_warm {acc : QuoteMap × QuotesState} {warm : String → Option (ℚ × SbQuote)}
    (hacc : OpenInv holiday opens now acc.2) (hright : RightMap holiday opens acc.1)
    (hwarm : ∀ s hit, warm s = some hit →
      acc.1 s = some hit.2 ∨ acc.2.warm s = some hit) :
    OpenInv holiday opens now { acc.2 with warm := warm } := by
  refine ⟨hacc.live, hacc.memo, fun s hit hhit => ?_, hacc.served⟩
  rcases hwarm s hit hhit with hq | hold
  · exact hright s hit.2 hq
  · exact hacc.warm s hit hold

theorem warmRefreshOnce_inv {symbols : List String} (h : OpenInv holiday opens now st)
    (hup : Honest holiday opens up now) (hmeet : meets cfg holiday st (.warmRefresh up symbols, now)) :
    OpenInv holiday opens now (st.warmRefreshOnce cfg up symbols now) := by
  let batch := batchQuotes cfg up .NSE now false symbols (fun _ => none, st)
  obtain ⟨hinv, hmap, hkeep⟩ : OpenInv holiday opens now batch.2 ∧
      RightMap holiday opens batch.1 ∧ KeepsMemo cfg .NSE now st batch.2 :=
    batchQuotes_right cfg .NSE false symbols h (fun s q hq => by cases hq) hup
  let acc := if cfg.warmFast then batch else fillOpen cfg up .NSE now symbols.dedup batch
  have hacc : OpenInv holiday opens now acc.2 ∧ RightMap holiday opens acc.1 := by
    show OpenInv holiday opens now (ite _ _ _ : QuoteMap × QuotesState).2 ∧
      RightMap holiday opens (ite _ _ _ : QuoteMap × QuotesState).1
    split
    · exact ⟨hinv, hmap⟩
    · rename_i hfast
      have hlack : Fillable cfg holiday .NSE now batch := by
        intro hday symbol q hq hnone hno
        rw [hkeep.memo] at hno
        rw [hkeep.quoted]
        rcases batchQuotes_map symbol q hq with hq | ⟨hmem, -, hrow⟩
        · cases hq
        · exact hmeet hday (Bool.eq_false_iff.mpr hfast) symbol hmem (hrow hnone) hno
      have hfilled := fillOpen_inv symbols.dedup ⟨hinv, hmap, hlack⟩ hup
      exact ⟨hfilled.inv, hfilled.right⟩
  refine openInv_warm hacc.1 hacc.2 fun s hit hhit => ?_
  split at hhit
  · rename_i q hq
    cases hhit
    exact .inl hq
  · exact .inr hhit

/-- **One action that meets the condition keeps the invariant.** -/
theorem step_openInv {st' : QuotesState} {a : QuotesAction × ℚ}
    (h : OpenInv holiday opens st.now st) (hup : Honest holiday opens a.1.upstream a.2)
    (hmeet : meets cfg holiday st a) (hs : step cfg st a = some st') :
    OpenInv holiday opens st'.now st' := by
  obtain ⟨hle, e⟩ := Option.ite_none_right_eq_some.mp hs
  cases e
  have hlater := h.later hle
  obtain ⟨action, now⟩ := a
  have hperform : OpenInv holiday opens now (perform cfg now st action) := by
    cases action with
    | quotes call => exact sbQuotes_inv hlater hup hmeet
    | warmRefresh up symbols => exact warmRefreshOnce_inv hlater hup hmeet
    | live up exchange symbol => exact liveQuote_inv cfg exchange hlater hup symbol
  exact ⟨hperform.live, hperform.memo, hperform.warm, hperform.served⟩

end Functions

/-! ## 5. All sequences -/

/-- **Session opens are the current session's, if they are quoted in session.** In every sequence of
    requests, warm refreshes and live quotes at non-decreasing times whose steps meet the condition,
    every open that was filled into a quote served from 09:15 of a trading day on is that of the
    day's session. -/
theorem session_open_current (cfg : QuoteSettings) (holiday : ℤ → Bool) (opens : String → ℤ → ℚ)
    (t₀ : ℚ) (actions : List (QuotesAction × ℚ)) (st : QuotesState)
    (hup : ∀ a ∈ actions, UpstreamOpens holiday opens a)
    (hmeet : StepsMeet (step cfg) (meets cfg holiday) { now := t₀ } actions)
    (hr : run (step cfg) { now := t₀ } actions = some st) :
    ∀ x ∈ st.served, ServedRight holiday opens x := by
  have hinv : OpenInv holiday opens st.now st := by
    refine run_invariant_meet (I := fun st : QuotesState => OpenInv holiday opens st.now st)
      (fun st a st' h hC hs => step_openInv h ?_ hC.1 hs) (openInv_init t₀)
      (hmeet.and (stepsMeet_of_forall hup _)) hr
    exact fun e symbol tick ht hday hstart => (hC.2 e symbol tick ht).1 hday hstart
  exact hinv.served

/-! ### Tuesday 2026-01-06 -/

def tuesday : ℤ := 20459

/-- A time of that day. -/
def tuesdayAt (hour minute : ℚ) : ℚ := dayStart tuesday + hour * 3600 + minute * 60

/-- Tuesday's session opened at 2930, the one before at 2901. -/
def relianceOpens (_ : String) (day : ℤ) : ℚ := if day = tuesday then 2930 else 2901

/-- A request for RELIANCE; the batch feed has a row for it, and the live feed quotes this open. -/
def relianceCall (opening : ℚ) : QuotesAction :=
  .quotes
    { symbols := ["RELIANCE"]
      exchange := .NSE
      upstream :=
        { rows := fun _ => some { price := some 2945 }
          live := fun _ _ => some
            { symbol := "RELIANCE", ltp := 2945, opening := opening, high := 2950, low := 2895
              source := "groww" } } }

theorem upstreamOpens_before {hour minute : ℚ}
    (hday : istDay (tuesdayAt hour minute) = tuesday) (h : tuesdayAt hour minute < sessionStart tuesday) :
    UpstreamOpens (fun _ => false) relianceOpens (relianceCall 2901, tuesdayAt hour minute) := by
  intro e symbol tick ht
  cases ht
  rw [hday]
  exact ⟨fun _ hstart => absurd h (not_lt.mpr hstart), fun day hlt _ _ _ => (if_neg hlt.ne).symm⟩

theorem upstreamOpens_after {hour minute : ℚ} (hday : istDay (tuesdayAt hour minute) = tuesday)
    (h : sessionStart tuesday ≤ tuesdayAt hour minute) :
    UpstreamOpens (fun _ => false) relianceOpens (relianceCall 2930, tuesdayAt hour minute) := by
  intro e symbol tick ht
  cases ht
  rw [hday]
  exact ⟨fun _ _ => (if_pos rfl).symm,
    fun _ _ _ _ hbefore => absurd (hbefore (by decide)) (not_lt.mpr h)⟩

theorem meets_reliance {opening now : ℚ} {st : QuotesState} (hwarm : st.warm "RELIANCE" = none)
    (hquoted : sessionStart (istDay now) ≤ quotedAt {} .NSE now st "RELIANCE") :
    meets {} (fun _ => false) st (relianceCall opening, now) := by
  have hsyms : ∀ call, relianceCall opening = .quotes call → call.syms = ["RELIANCE"] := by
    intro call hcall
    cases hcall
    unfold QuotesCall.syms
    dsimp only
    decide
  intro _
  refine ⟨fun _ _ symbol hmem _ _ => ?_, fun _ symbol q hq => ?_⟩
  · have hsymbol := (List.mem_filter.mp hmem).1
    rw [hsyms _ rfl, List.mem_singleton] at hsymbol
    rw [hsymbol]
    exact hquoted
  · obtain ⟨⟨hmem, -⟩, -⟩ := Option.ite_none_right_eq_some.mp hq
    obtain ⟨⟨t, ht⟩, -⟩ := warmTaken_cases hq
    rw [hsyms _ rfl, List.mem_singleton] at hmem
    rw [hmem, hwarm] at ht
    cases ht

/-- Requests at 10:00 and 10:05: the open is fetched, then remembered. -/
theorem session_open_tuesday :
    ∃ st, run (step {}) {} [(relianceCall 2930, tuesdayAt 10 0), (relianceCall 2930, tuesdayAt 10 5)] = some st ∧
      st.served.length = 2 ∧ ∀ x ∈ st.served, ServedRight (fun _ => false) relianceOpens x := by
  have hrun : (run (step {}) {} [(relianceCall 2930, tuesdayAt 10 0), (relianceCall 2930, tuesdayAt 10 5)]).map
      (fun st => st.served.length) = some 2 := by
    decide
  obtain ⟨st, hst, hlen⟩ := Option.map_eq_some_iff.mp hrun
  refine ⟨st, hst, hlen, session_open_current {} (fun _ => false) relianceOpens 0 _ st ?_ ?_ hst⟩
  · intro a ha
    fin_cases ha
    · exact upstreamOpens_after (by decide) (by decide)
    · exact upstreamOpens_after (by decide) (by decide)
  · refine ⟨meets_reliance rfl (by decide), fun st₁ h₁ => ⟨?_, fun _ _ => trivial⟩⟩
    have hfirst : (step {} {} (relianceCall 2930, tuesdayAt 10 0)).map (fun st =>
        ((st.warm "RELIANCE").isNone,
          decide (sessionStart (istDay (tuesdayAt 10 5)) ≤ quotedAt {} .NSE (tuesdayAt 10 5) st "RELIANCE"))) =
        some (true, true) := by
      decide
    rw [h₁, Option.map_some, Option.some.injEq, Prod.mk.injEq, Option.isNone_iff_eq_none,
      decide_eq_true_eq] at hfirst
    exact meets_reliance hfirst.1 hfirst.2

/-- Requests at 09:05 and 10:00: the open of Monday is remembered as Tuesday's, and served. -/
theorem previous_open_served :
    ∃ st, run (step {}) {} [(relianceCall 2901, tuesdayAt 9 5), (relianceCall 2930, tuesdayAt 10 0)] = some st ∧
      (∀ a ∈ [(relianceCall 2901, tuesdayAt 9 5), (relianceCall 2930, tuesdayAt 10 0)],
        UpstreamOpens (fun _ => false) relianceOpens a) ∧
      ∃ x ∈ st.served, ¬ ServedRight (fun _ => false) relianceOpens x := by
  have hrun : (run (step {}) {} [(relianceCall 2901, tuesdayAt 9 5), (relianceCall 2930, tuesdayAt 10 0)]).map
      (fun st => st.served.map fun x => (x.1, x.2.1, x.2.2.opening, x.2.2.filledAt)) =
      some [(tuesdayAt 9 5, "RELIANCE", some 2901, some (tuesdayAt 9 5)),
        (tuesdayAt 10 0, "RELIANCE", some 2901, some (tuesdayAt 10 0))] := by
    decide
  obtain ⟨st, hst, hserved⟩ := Option.map_eq_some_iff.mp hrun
  refine ⟨st, hst, fun a ha => ?_, ?_⟩
  · fin_cases ha
    · exact upstreamOpens_before (by decide) (by decide)
    · exact upstreamOpens_after (by decide) (by decide)
  · have hmem : (tuesdayAt 10 0, "RELIANCE", some (2901 : ℚ), some (tuesdayAt 10 0)) ∈
        st.served.map fun x => (x.1, x.2.1, x.2.2.opening, x.2.2.filledAt) := by
      rw [hserved]
      simp
    obtain ⟨x, hx, e⟩ := List.mem_map.mp hmem
    simp only [Prod.mk.injEq] at e
    refine ⟨x, hx, fun h => ?_⟩
    have hopen := h (by rw [e.2.2.2]; exact Option.some_ne_none _)
      (by rw [e.1]; decide) (by rw [e.1]; decide)
    rw [e.2.2.1, e.1, e.2.1] at hopen
    revert hopen
    decide

end QuotesState

end BharatTicker
