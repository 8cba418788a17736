/-
  File:      BharatTicker/SbHistory/ArmedRule.lean
  Subject:   THE ARMED RULE: the current day is served by the exchange feeds only, behind the past
             days of Yahoo. The two parts are put together without a sort; they are in order unless
             the bars of today are of an earlier day. Only the cache of today's bars can hold such,
             since its key has no date.

  * `ArmedRule` -- the rule, of a response;
  * `historyResponse_armed` -- what it asks of the bars that are appended;
  * `Meets`, `step_armed` -- one step; `armed_rule_iff` -- whole runs;
  * `yesterday_appended` -- two requests around midnight.
-/
import BharatTicker.Basis.Run
import BharatTicker.SbHistory

namespace BharatTicker

open Basis HistoryState

-- the concrete runs below compute with rationals
unseal Rat.add Rat.mul Rat.sub Rat.inv

/-! ## 1. The rule -/

/-- No Yahoo bar of today or later, nothing but bars of the exchange feeds for today, and stamps
    that ascend. -/
structure ArmedRule (r : HistoryResponse) : Prop where
  yahoo_past : ∀ b ∈ r.candles, b.origin = .yahoo → istDay b.candle.timestamp < r.today
  today_scraped : ∀ b ∈ r.candles, istDay b.candle.timestamp = r.today → b.origin = .scraper
  ascending : r.candles.Pairwise fun b c => b.candle.timestamp < c.candle.timestamp

/-- No bar of Yahoo's from before today stands at or after one of `tbars`. -/
def Precede (rows : HistoryRows) (today : ℤ) (tbars : List Candle) : Prop :=
  ∀ row ∈ rows.rows, row.close ≠ none → istDay row.bucket < today →
    ∀ c ∈ tbars, row.bucket < c.timestamp

section Response

variable {rows : HistoryRows} {today : ℤ} {tbars : List Candle}

/-- Distinct rows give strictly ascending candles. -/
theorem normCandles_ascending (rows : HistoryRows) :
    (normCandles rows.rows).Pairwise fun c d => c.timestamp < d.timestamp := by
  have hdistinct : (rows.rows.filterMap HistoryRow.candle).Pairwise
      fun c d => c.timestamp ≠ d.timestamp := by
    refine List.Pairwise.filterMap _ ?_ (List.pairwise_map.mp rows.distinct)
    intro row row' hne c hc d hd
    rw [HistoryRow.candle_timestamp hc, HistoryRow.candle_timestamp hd]
    exact hne
  have hperm : (normCandles rows.rows).Perm (rows.rows.filterMap HistoryRow.candle) :=
    List.perm_insertionSort _ _
  have hsort := insertionSort_key (·.timestamp) (rows.rows.filterMap HistoryRow.candle)
  exact (hsort.and (hperm.symm.pairwise hdistinct fun h => h.symm)).imp
    fun h => lt_of_le_of_ne h.1 h.2

theorem mem_pastBars {c : SbCandle} : c ∈ pastBars rows today ↔
    (∃ row ∈ rows.rows, row.candle = some c) ∧ istDay c.timestamp < today := by
  unfold pastBars normCandles
  rw [List.mem_filter, List.mem_insertionSort, List.mem_filterMap, decide_eq_true_eq]

theorem pastBars_ascending (rows : HistoryRows) (today : ℤ) :
    (pastBars rows today).Pairwise fun c d => c.timestamp < d.timestamp :=
  (normCandles_ascending rows).filter _

/-- The stamps of the past bars are those of the rows from before today that have a close. -/
theorem precede_iff : Precede rows today tbars ↔
    ∀ b ∈ pastBars rows today, ∀ c ∈ tbars, b.timestamp < c.timestamp := by
  constructor
  · intro h b hb
    obtain ⟨⟨row, hrow, hcandle⟩, hday⟩ := mem_pastBars.1 hb
    have hclose : row.close ≠ none := HistoryRow.exists_candle.1 ⟨b, hcandle⟩
    rw [HistoryRow.candle_timestamp hcandle] at hday ⊢
    exact h row hrow hclose hday
  · intro h row hrow hclose hday
    obtain ⟨c, hc⟩ := HistoryRow.exists_candle.2 hclose
    rw [← HistoryRow.candle_timestamp hc] at hday ⊢
    exact h c (mem_pastBars.2 ⟨⟨row, hrow, hc⟩, hday⟩)

/-- Bars of today stand behind all of the past. -/
theorem precede_of_today (h : ∀ c ∈ tbars, istDay c.timestamp = today) :
    Precede rows today tbars := by
  intro row _ _ hday c hc
  by_contra hle
  have hmono := istDay_mono (not_lt.mp hle)
  rw [h c hc] at hmono
  omega

/-- **A response keeps the rule exactly when Yahoo's past precedes the bars that are appended.** -/
theorem historyResponse_armed (hasc : tbars.Pairwise fun c d => c.timestamp < d.timestamp) :
    ArmedRule (historyResponse rows today tbars) ↔ Precede rows today tbars := by
  have hsplit : (historyResponse rows today tbars).candles.Pairwise
      (fun b c => b.candle.timestamp < c.candle.timestamp) ↔ Precede rows today tbars := by
    unfold historyResponse
    rw [precede_iff, List.pairwise_append, List.pairwise_map, List.pairwise_map]
    constructor
    · intro h b hb c hc
      exact h.2.2 _ (List.mem_map_of_mem hb) _ (List.mem_map_of_mem hc)
    · intro h
      refine ⟨pastBars_ascending rows today, hasc, ?_⟩
      intro b hb c hc
      obtain ⟨past, hpast, rfl⟩ := List.mem_map.mp hb
      obtain ⟨bar, hbar, rfl⟩ := List.mem_map.mp hc
      exact h past hpast bar hbar
  have horigin : ∀ b ∈ (historyResponse rows today tbars).candles,
      (b.origin = .yahoo ∧ istDay b.candle.timestamp < today) ∨ b.origin = .scraper := by
    intro b hb
    rcases List.mem_append.mp hb with hb | hb
    · obtain ⟨c, hc, rfl⟩ := List.mem_map.mp hb
      exact .inl ⟨rfl, (mem_pastBars.1 hc).2⟩
    · obtain ⟨c, -, rfl⟩ := List.mem_map.mp hb
      exact .inr rfl
  rw [← hsplit]
  refine ⟨fun h => h.ascending, fun h => ⟨?_, ?_, h⟩⟩
  · intro b hb e
    rcases horigin b hb with h' | h'
    · exact h'.2
    · rw [e] at h'
      cases h'
  · intro b hb e
    rcases horigin b hb with h' | h'
    · exact absurd e h'.2.ne
    · exact h'

end Response

/-! ## 2. One step -/

/-- If the request finds bars of today in the cache, they were begun on the current day, or no bar of
    Yahoo's from before today stands at or after one of them. -/
def FoundCurrent (cfg : HistorySettings) (req : HistoryRequest) (rows : HistoryRows) (now : ℚ)
    (s : HistoryState) : Prop :=
  ∀ bucket bars, req.code.bucket = some bucket → req.covers (istDay now) →
    (s.todayCache.get cfg.todayTtl (req.todayKey bucket) now).1 = some bars →
    bars.begun = istDay now ∨ Precede rows (istDay now) bars.candles

/-- The condition of a step. -/
def Meets (cfg : HistorySettings) (s : HistoryState) : HistoryAction → Prop
  | .request _ call now =>
    ∀ req rows, historyRequest call now = .ok req →
      (s.histCache.get cfg.histTtl req.historyKey now).1 = some rows →
      FoundCurrent cfg req rows now s
  | .historyArrives id rows now =>
    ∀ req, s.waiting id = some (.history req) → FoundCurrent cfg req rows now s
  | .curvesArrive .. => True
  | .clear => True

/-- Every response so far keeps the rule. -/
def Armed (s : HistoryState) : Prop := ∀ r ∈ s.served, ArmedRule r

section Step

variable {cfg : HistorySettings} {s s' : HistoryState} {id : ℕ} {req : HistoryRequest}
  {rows : HistoryRows} {now : ℚ}

theorem armed_serve {r : HistoryResponse} : Armed (s.serve r) ↔ Armed s ∧ ArmedRule r := by
  unfold Armed HistoryState.serve
  rw [List.forall_mem_append, List.forall_mem_singleton]

/-- What a request does with its rows keeps the rule exactly when it finds no earlier day's bars in
    the way. -/
theorem withHistory_armed :
    Armed (s.withHistory cfg id req rows now) ↔ Armed s ∧ FoundCurrent cfg req rows now s := by
  unfold withHistory FoundCurrent
  cases hb : req.code.bucket with
  | none => simp
  | some bucket =>
    dsimp only
    by_cases hc : req.covers (istDay now)
    · rw [if_pos hc]
      cases hg : (s.todayCache.get cfg.todayTtl (req.todayKey bucket) now).1 with
      | none =>
        show Armed s ↔ _
        refine (and_iff_left ?_).symm
        intro bucket' bars e _ hhit
        cases e
        rw [hg] at hhit
        cases hhit
      | some bars =>
        dsimp only
        refine Iff.trans armed_serve (and_congr_right fun _ => ?_)
        rw [historyResponse_armed bars.ascending]
        constructor
        · intro h bucket' bars' e _ hhit
          cases e
          rw [hg] at hhit
          cases hhit
          exact .inr h
        · intro h
          rcases h bucket bars rfl hc hg with h | h
          · exact precede_of_today fun c hc => (bars.dated c hc).trans h
          · exact h
    · rw [if_neg hc]
      refine Iff.trans armed_serve (and_congr_right fun _ => iff_of_true ?_ ?_)
      · exact (historyResponse_armed List.Pairwise.nil).mpr fun _ _ _ _ c hc => by cases hc
      · exact fun _ _ _ h => absurd h hc

/-- A request that starts: it waits for its rows, or goes on with those it finds. -/
theorem request_armed {call : HistoryCall} (h : step cfg s (.request id call now) = some s') :
    Armed s' ↔ Armed s ∧ Meets cfg s (.request id call now) := by
  dsimp only [step] at h
  obtain ⟨-, h⟩ := Option.ite_none_left_eq_some.mp h
  dsimp only [Meets]
  cases hreq : historyRequest call now with
  | error e =>
    rw [hreq] at h
    cases h
    exact (and_iff_left fun req rows hok => by cases hok).symm
  | ok req =>
    rw [hreq] at h
    dsimp only at h
    cases hhit : (s.histCache.get cfg.histTtl req.historyKey now).1 with
    | none =>
      rw [hhit] at h
      cases h
      refine (and_iff_left fun req' rows hok hhit' => ?_).symm
      cases hok
      rw [hhit] at hhit'
      cases hhit'
    | some rows =>
      rw [hhit] at h
      cases h
      refine Iff.trans withHistory_armed (and_congr_right fun _ => ?_)
      constructor
      · intro hfound req' rows' hok hhit'
        cases hok
        rw [hhit] at hhit'
        cases hhit'
        exact hfound
      · exact fun hmeets => hmeets req rows rfl hhit

/-- **One step** keeps the rule exactly when it meets its condition. -/
theorem step_armed {a : HistoryAction} (h : step cfg s a = some s') :
    Armed s' ↔ Armed s ∧ Meets cfg s a := by
  cases a with
  | request id call now => exact request_armed h
  | historyArrives id rows now =>
    dsimp only [step] at h
    dsimp only [Meets]
    split at h
    · rename_i req hw
      cases h
      refine Iff.trans withHistory_armed (and_congr_right fun _ => ?_)
      constructor
      · intro hfound req' hw'
        rw [hw] at hw'
        cases hw'
        exact hfound
      · exact fun hmeets => hmeets req hw
    · cases h
  | curvesArrive id tickertape bse now =>
    dsimp only [step] at h
    split at h
    · rename_i req bucket rows today hw
      cases h
      refine Iff.trans armed_serve (and_congr_right fun _ => iff_of_true ?_ trivial)
      -- the bars just fetched are of the day that the response is put together on
      exact (historyResponse_armed (TodayBars.fetch tickertape bse today bucket).ascending).mpr
        (precede_of_today (TodayBars.fetch tickertape bse today bucket).dated)
    · cases h
  | clear =>
    cases h
    exact (and_iff_left trivial).symm

end Step

/-! ## 3. Runs -/

/-- **The rule is kept in exactly those runs** in which no request finds bars of an earlier day in
    the cache of today's bars, with one of Yahoo's from before today at or after them. -/
theorem armed_rule_iff (cfg : HistorySettings) (actions : List HistoryAction) (s : HistoryState)
    (hr : run (step cfg) {} actions = some s) :
    (∀ r ∈ s.served, ArmedRule r) ↔ StepsMeet (step cfg) (Meets cfg) {} actions := by
  have h0 : Armed {} := fun r h => by cases h
  have hmeet := run_iff_meet (I := Armed) (fun s a s' h => step_armed h) hr
  exact hmeet.trans (and_iff_right h0)

/-! ## 4. Around midnight -/

def relianceHistory : HistoryCall where
  symbol := "RELIANCE"
  interval := "5minute"

/-- The last trades of Monday. -/
def mondayCurve : IntradayCurve :=
  fetchIntradayGraph [⟨some (monday 15 28), 2448, 120⟩, ⟨some (monday 15 29), 2450, 80⟩]

/-- Yahoo's last bar of a day. -/
def lastBarOf (daysBefore : ℚ) : HistoryRow where
  bucket := monday 15 25 - daysBefore * 86400
  opening := some 2448
  high := some 2450
  low := some 2448
  close := some 2450
  volume := 190

def lastRowOf (daysBefore : ℚ) : HistoryRows := ⟨[lastBarOf daysBefore], List.nodup_singleton _⟩

/-- Two requests on Monday afternoon, the second answered from both caches. -/
def mondayRequests : List HistoryAction :=
  [.request 0 relianceHistory (monday 15 30), .historyArrives 0 (lastRowOf 3) (monday 15 30 + 1),
    .curvesArrive 0 none (some mondayCurve) (monday 15 30 + 2),
    .request 1 relianceHistory (monday 15 30 + 20)]

/-- Friday's bar and then Monday's, in both responses. -/
theorem armed_rule_iff_monday : StepsMeet (step {}) (Meets {}) {} mondayRequests := by
  have hrun : (run (step {}) {} mondayRequests).map (·.served) =
      some (List.replicate 2
        { today := 20458, todaySource := some "scraper_live"
          candles :=
            [⟨⟨monday 15 25 - 3 * 86400, some 2448, some 2450, some 2448, 2450, 190, 0⟩, .yahoo⟩,
              ⟨⟨monday 15 25, some 2448, some 2450, some 2448, 2450, 200, 0⟩, .scraper⟩] }) := by
    decide
  obtain ⟨s, hs, e⟩ := Option.map_eq_some_iff.mp hrun
  refine (armed_rule_iff {} mondayRequests s hs).mp fun r h => ?_
  rw [e] at h
  rw [List.eq_of_mem_replicate h]
  exact ⟨by decide, by decide, by decide⟩

/-- A request before midnight, and one ten seconds after it that finds its bars. -/
def midnightRequests : List HistoryAction :=
  [.request 0 relianceHistory (monday 23 59 + 50), .historyArrives 0 ⟨[], List.nodup_nil⟩
      (monday 23 59 + 51),
    .curvesArrive 0 none (some mondayCurve) (monday 23 59 + 52),
    .request 1 relianceHistory (monday 24 0 + 10), .historyArrives 1 (lastRowOf 0) (monday 24 0 + 11)]

/-- **Yesterday's bars are appended to yesterday's.** Past midnight Monday is a past day, of which
    Yahoo has a bar, and Monday's bars are still in the cache: one stamp comes twice. -/
theorem yesterday_appended :
    ∃ s, run (step {}) {} midnightRequests = some s ∧ ¬ ∀ r ∈ s.served, ArmedRule r := by
  have hrun : (run (step {}) {} midnightRequests).map (·.served.getLast?) =
      some (some
        { today := 20459, todaySource := some "scraper_live"
          candles :=
            [⟨⟨monday 15 25, some 2448, some 2450, some 2448, 2450, 190, 0⟩, .yahoo⟩,
              ⟨⟨monday 15 25, some 2448, some 2450, some 2448, 2450, 200, 0⟩, .scraper⟩] }) := by
    decide
  obtain ⟨s, hs, e⟩ := Option.map_eq_some_iff.mp hrun
  refine ⟨s, hs, fun h => ?_⟩
  have hasc := (h _ (List.mem_of_getLast? e)).ascending
  revert hasc
  decide

end BharatTicker
