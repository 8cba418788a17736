/-
  File:      BharatTicker/LiveCandles/Finished.lean
  Subject:   FINISHED BARS STAY AS THEY ARE, through appends at the right end of the ring and evictions
             at its left end.

  The samples that a key has ever taken are its log; the ring is the window of the newest of them.

  * `sampleLog`, `recordAll_ring` -- the log, and the ring as its window;
  * `sampleLog_singleSource` -- the samples of a single source, as `record` stores them;
  * `Retained`, `KeptBar` -- what has not been evicted;
  * `bucketSamples_middle` -- a bucket sees its own samples and the one before its first;
  * `finished_referenceBar` -- a bar that is not the newest, on the log;
  * `finished_bars` -- all record calls; `finished_bars_truncated` -- what the limit cuts off.
-/
import BharatTicker.Basis.BoundedLog
import BharatTicker.IntradayBuilder
import BharatTicker.LiveCandles.Reference
import BharatTicker.LiveCandles.SingleSource

namespace BharatTicker

open Basis LiveCandleEngine

/-! ## 1. The log of a key -/

/-- The samples that the calls append under the key. -/
def sampleLog (cfg : LiveSettings) (key : String) : List RecordCall → LiveCandleEngine → List Sample
  | [], _ => []
  | c :: calls, eng =>
    (if c.key = key then (eng.taken cfg c).toList else []) ++
      sampleLog cfg key calls (record cfg c eng)

/-- The sample that `record` stores for the call. -/
def RecordCall.sample (c : RecordCall) : Sample :=
  ⟨c.stamp, c.price.getD 0, c.cumVolume.getD 0, c.source⟩

section Log

variable {cfg : LiveSettings} {key : String} {source : Option String} {eng : LiveCandleEngine}
  {calls : List RecordCall}

theorem sampleLog_append (calls later : List RecordCall) (eng : LiveCandleEngine) :
    sampleLog cfg key (calls ++ later) eng =
      sampleLog cfg key calls eng ++ sampleLog cfg key later (recordAll cfg calls eng) := by
  induction calls generalizing eng with
  | nil => rfl
  | cons c calls ih =>
    rw [List.cons_append, sampleLog, ih, sampleLog, List.append_assoc]
    rfl

/-- **The ring is the window of the log.** -/
theorem recordAll_ring {calls : List RecordCall} {log : List Sample}
    (h : eng.samples key = window cfg.sampleMaxlen log) :
    (recordAll cfg calls eng).samples key =
      window cfg.sampleMaxlen (log ++ sampleLog cfg key calls eng) := by
  induction calls generalizing eng log with
  | nil =>
    rw [sampleLog, List.append_nil]
    exact h
  | cons c calls ih =>
    have hstep : (record cfg c eng).samples key = window cfg.sampleMaxlen
        (log ++ if c.key = key then (eng.taken cfg c).toList else []) := by
      by_cases hc : c.key = key
      · rw [if_pos hc]
        cases htaken : eng.taken cfg c with
        | none => rwa [record_ignored htaken, Option.toList_none, List.append_nil]
        | some x =>
          rw [← hc, record_taken htaken, hc, h, Option.toList_some]
          exact window_append cfg.sampleMaxlen log x
      · rwa [if_neg hc, List.append_nil, (record_other cfg eng (Ne.symm hc)).1]
    have hrest := ih hstep
    rw [List.append_assoc] at hrest
    exact hrest

/-- From the empty engine on. -/
theorem recordAll_empty (calls : List RecordCall) :
    (recordAll cfg calls {}).samples key =
      window cfg.sampleMaxlen (sampleLog cfg key calls {}) := by
  have hnone : ({} : LiveCandleEngine).samples key = window cfg.sampleMaxlen [] :=
    List.drop_nil.symm
  rw [recordAll_ring hnone, List.nil_append]

theorem taken_singleSource {c : RecordCall} {p : ℚ}
    (hprice : c.price = some p) (hpos : 0 < p)
    (hown : eng.primarySrc c.key = none ∨ eng.primarySrc c.key = c.source) :
    eng.taken cfg c = some c.sample := by
  have hfree : eng.heldByOther cfg c.key c.source c.stamp = false := by
    unfold heldByOther
    cases hs : c.source with
    | none => rfl
    | some s =>
      rcases hown with h | h
      · rw [h]
      · rw [h, hs]
        simp
  simp [taken, hprice, not_le.mpr hpos, hfree, RecordCall.sample]

/-- **Every call of a single source is taken**, one without a volume as zero. -/
theorem sampleLog_singleSource
    (h : ∀ c ∈ calls, c.key = key ∧ c.source = source ∧ ∃ p, c.price = some p ∧ 0 < p)
    (hown : eng.primarySrc key = none ∨ eng.primarySrc key = source) :
    sampleLog cfg key calls eng = calls.map RecordCall.sample := by
  induction calls generalizing eng with
  | nil => rfl
  | cons c calls ih =>
    obtain ⟨rfl, rfl, p, hp, hpos⟩ := h c List.mem_cons_self
    have htaken : eng.taken cfg c = some c.sample := taken_singleSource hp hpos hown
    have hown' : (record cfg c eng).primarySrc c.key = none ∨
        (record cfg c eng).primarySrc c.key = c.source := by
      rw [record_eq, htaken]
      cases hs : c.source with
      | none => simpa [append, own, hs] using hown
      | some s => simp [append, own]
    rw [sampleLog, if_pos rfl, htaken, ih (fun d hd => h d (List.mem_cons_of_mem c hd)) hown']
    rfl

end Log

/-! ## 2. What has not been evicted -/

/-- The sample at a place of the log is in the ring. -/
def Retained (cap : ℕ) (log : List Sample) (i : ℕ) : Prop := log.length - cap ≤ i

/-- The place of a sample that the bucket has in the ring of a log. -/
def OwnPlace (cap : ℕ) (seconds : ℚ) (log : List Sample) (idx : ℤ) (i : ℕ) : Prop :=
  Retained cap log i ∧ ∃ x, log[i]? = some x ∧ ⌊x.ts / seconds⌋ = idx

/-- Neither the bucket's own samples nor the one before its first have been evicted from the ring of a
    later log. -/
structure KeptBar (cap : ℕ) (seconds : ℚ) (log log' : List Sample) (idx : ℤ) : Prop where
  own : ∀ i, OwnPlace cap seconds log idx i → Retained cap log' i
  before : ∀ i, OwnPlace cap seconds log idx (i + 1) →
    (∀ j, OwnPlace cap seconds log idx j → i + 1 ≤ j) → Retained cap log' i

section Kept

variable {seconds : ℚ} {idx : ℤ}

/-- **A bucket sees its own samples and the one before its first.** -/
theorem bucketSamples_middle {pre own post : List Sample}
    (hpre : ∀ x ∈ pre, ⌊x.ts / seconds⌋ ≠ idx) (hpost : ∀ x ∈ post, ⌊x.ts / seconds⌋ ≠ idx) :
    bucketSamples seconds (pre ++ own ++ post) idx =
      (withPrevious pre.getLast? own).filter fun x => ⌊x.2.ts / seconds⌋ = idx :=
  filter_withPrevious_middle (fun x hx => decide_eq_false (hpre x hx)) own
    fun x hx => decide_eq_false (hpost x hx)

/-- The first sample of a bucket, and what is before it. -/
theorem exists_first_of_bucket {ring : List Sample} (h : ∃ x ∈ ring, ⌊x.ts / seconds⌋ = idx) :
    ∃ before x after, ring = before ++ x :: after ∧ ⌊x.ts / seconds⌋ = idx ∧
      ∀ y ∈ before, ⌊y.ts / seconds⌋ ≠ idx := by
  cases hfind : ring.find? fun x => ⌊x.ts / seconds⌋ = idx with
  | none =>
    obtain ⟨x, hx, e⟩ := h
    exact absurd (decide_eq_true e) (List.find?_eq_none.mp hfind x hx)
  | some x =>
    obtain ⟨hx, before, after, hring, hbefore⟩ := List.find?_eq_some_iff_append.mp hfind
    exact ⟨before, x, after, hring, by simpa using hx, fun y hy => by simpa using hbefore y hy⟩

/-- How far the left end of the ring may move: not past the sample before the first own one. -/
theorem KeptBar.window_eq {cap : ℕ} {log later before after : List Sample} {x : Sample}
    (h : KeptBar cap seconds log (log ++ later) idx)
    (hring : window cap log = before ++ x :: after) (hx : ⌊x.ts / seconds⌋ = idx)
    (hbefore : ∀ y ∈ before, ⌊y.ts / seconds⌋ ≠ idx) :
    ∃ before', window cap (log ++ later) = before' ++ (x :: after) ++ later ∧
      before'.getLast? = before.getLast? ∧ before' ⊆ before := by
  have hget : ∀ i, log[log.length - cap + i]? = (before ++ x :: after)[i]? := fun i => by
    rw [← hring, window_eq_drop, List.getElem?_drop]
  have hlen : before.length + (after.length + 1) = log.length - (log.length - cap) := by
    rw [← List.length_drop, ← window_eq_drop, hring, List.length_append, List.length_cons]
  -- the place of the first own sample, and that the others come after it
  have hplace : OwnPlace cap seconds log idx (log.length - cap + before.length) := by
    refine ⟨Nat.le_add_right _ _, x, ?_, hx⟩
    rw [hget, List.getElem?_append_right (le_refl _), Nat.sub_self]
    rfl
  have hfirst : ∀ j, OwnPlace cap seconds log idx j → log.length - cap + before.length ≤ j := by
    intro j hj
    obtain ⟨hret, y, hy, hidx⟩ := hj
    obtain ⟨i, rfl⟩ := Nat.exists_eq_add_of_le (show log.length - cap ≤ j from hret)
    by_contra hlt
    rw [hget, List.getElem?_append_left (by omega)] at hy
    exact hbefore y (List.mem_of_getElem? hy) hidx
  -- what is dropped of the later log is before it
  have hown : (log ++ later).length - cap ≤ log.length - cap + before.length := h.own _ hplace
  have hprev : before ≠ [] →
      (log ++ later).length - cap < log.length - cap + before.length := by
    intro hne
    obtain ⟨k, hk⟩ := Nat.exists_eq_add_of_lt (List.length_pos_iff.mpr hne)
    have hsucc : log.length - cap + before.length = log.length - cap + k + 1 := by omega
    rw [hsucc] at hplace hfirst
    have hbef : (log ++ later).length - cap ≤ log.length - cap + k := h.before _ hplace hfirst
    omega
  refine ⟨before.drop ((log ++ later).length - cap - (log.length - cap)), ?_, ?_,
    List.drop_subset _ before⟩
  · rw [window_append_drop (by omega), hring, List.drop_append_of_le_length (by omega)]
  · rw [List.getLast?_drop]
    by_cases hne : before = []
    · simp [hne]
    · have hlt := hprev hne
      have hpos := List.length_pos_iff.mpr hne
      rw [if_neg (by omega)]

/-- **The bar of a bucket that is not the newest.** -/
theorem bucketSamples_kept {cap : ℕ} {log later : List Sample} (hs : 0 < seconds)
    (ho : TimeOrdered (log ++ later)) (hown : ∃ x ∈ window cap log, ⌊x.ts / seconds⌋ = idx)
    (hnewer : ∃ y ∈ window cap log, idx < ⌊y.ts / seconds⌋)
    (h : KeptBar cap seconds log (log ++ later) idx) :
    bucketSamples seconds (window cap (log ++ later)) idx =
        bucketSamples seconds (window cap log) idx ∧
      ∃ x ∈ window cap (log ++ later), ⌊x.ts / seconds⌋ = idx := by
  obtain ⟨before, x, after, hring, hx, hbefore⟩ := exists_first_of_bucket hown
  obtain ⟨before', hring', hlast, hsub⟩ := h.window_eq hring hx hbefore
  -- the later samples are of later buckets
  have hlater : ∀ z ∈ later, ⌊z.ts / seconds⌋ ≠ idx := by
    intro z hz
    obtain ⟨y, hy, hlt⟩ := hnewer
    have hts : y.ts ≤ z.ts :=
      (List.pairwise_append.mp ho).2.2 y (List.mem_of_mem_drop hy) z hz
    have hle : ⌊y.ts / seconds⌋ ≤ ⌊z.ts / seconds⌋ :=
      Int.floor_le_floor (div_le_div_of_nonneg_right hts hs.le)
    omega
  constructor
  · rw [hring', bucketSamples_middle (fun y hy => hbefore y (hsub hy)) hlater, hlast, hring]
    have hnil := @bucketSamples_middle seconds idx before (x :: after) [] hbefore
      (fun z hz => absurd hz List.not_mem_nil)
    rw [List.append_nil] at hnil
    exact hnil.symm
  · refine ⟨x, ?_, hx⟩
    rw [hring']
    simp

end Kept

/-! ## 3. Bars -/

section Bars

variable {seconds : ℚ}

/-- Of entries in the order of their keys, one that is not the last has a later one. -/
theorem exists_later {l : List (ℤ × Cell)} (h : (l.map Prod.fst).Pairwise (· < ·)) {e : ℤ × Cell}
    (he : e ∈ l) (hlast : l.getLast? ≠ some e) : ∃ f ∈ l, e.1 < f.1 := by
  obtain ⟨pre, post, rfl⟩ := List.append_of_mem he
  rcases post with _ | ⟨f, post⟩
  · exact absurd List.getLast?_concat hlast
  · have hpost := (List.pairwise_append.mp (List.pairwise_map.mp h)).2.1
    exact ⟨f, by simp, List.rel_of_pairwise_cons hpost List.mem_cons_self⟩

theorem mem_referenceBars {samples : List Sample} {e : ℤ × Cell} : e ∈ referenceBars seconds samples ↔
    (∃ x ∈ samples, ⌊x.ts / seconds⌋ = e.1) ∧
      e.2 = referenceBar (bucketSamples seconds samples e.1) := by
  unfold referenceBars
  rw [List.mem_map]
  constructor
  · intro h
    obtain ⟨idx, hidx, rfl⟩ := h
    exact ⟨List.mem_map.mp (List.mem_dedup.mp hidx), rfl⟩
  · intro h
    obtain ⟨hown, hbar⟩ := h
    exact ⟨e.1, List.mem_dedup.mpr (List.mem_map.mpr hown), Prod.ext rfl hbar.symm⟩

/-- **A bar that is not the newest stays**, until its samples or the one before them are evicted. -/
theorem finished_referenceBar {cap : ℕ} {log later : List Sample} (hs : 0 < seconds)
    (ho : TimeOrdered (log ++ later)) {e : ℤ × Cell}
    (he : e ∈ referenceBars seconds (window cap log))
    (hlast : (referenceBars seconds (window cap log)).getLast? ≠ some e)
    (h : KeptBar cap seconds log (log ++ later) e.1) :
    e ∈ referenceBars seconds (window cap (log ++ later)) := by
  have hordered : TimeOrdered (window cap log) :=
    ((List.pairwise_append.mp ho).1).sublist (List.drop_sublist _ _)
  have hsorted := bars_sorted hs hordered
  rw [bars_eq_reference hs hordered] at hsorted
  obtain ⟨hown, hbar⟩ := mem_referenceBars.1 he
  obtain ⟨f, hf, hlt⟩ := exists_later hsorted he hlast
  obtain ⟨⟨y, hy, hyf⟩, -⟩ := mem_referenceBars.1 hf
  obtain ⟨hsame, hown'⟩ := bucketSamples_kept hs ho hown ⟨y, hy, hyf ▸ hlt⟩ h
  exact mem_referenceBars.2 ⟨hown', hbar.trans (by rw [hsame])⟩

/-- What a limit leaves of a list: an element with fewer behind it than the limit. -/
theorem mem_lastSlice {α : Type*} {limit : ℤ} {pre post : List α} {a : α}
    (h : post.length < limit.toNat) : a ∈ lastSlice limit (pre ++ a :: post) := by
  have hpos : 0 < limit := by omega
  unfold lastSlice
  rw [if_pos hpos, List.mem_reverse, List.reverse_append, List.reverse_cons, List.append_assoc,
    List.take_append]
  refine List.mem_append_right _ ?_
  obtain ⟨n, hn⟩ : ∃ n, limit.toNat - post.reverse.length = n + 1 :=
    ⟨limit.toNat - post.reverse.length - 1, by rw [List.length_reverse]; omega⟩
  rw [hn]
  exact List.mem_cons_self

/-- Of entries in the order of their keys, those of later keys are the ones behind. -/
theorem filter_later {pre post : List (ℤ × Cell)} {e : ℤ × Cell}
    (h : ((pre ++ e :: post).map Prod.fst).Pairwise (· < ·)) :
    ((pre ++ e :: post).filter fun f => e.1 < f.1) = post := by
  obtain ⟨-, hpost, hpre⟩ := List.pairwise_append.mp (List.pairwise_map.mp h)
  have hnone : (pre.filter fun f => e.1 < f.1) = [] := by
    refine List.filter_eq_nil_iff.mpr fun f hf hlt => ?_
    exact lt_asymm (hpre f hf e List.mem_cons_self) (of_decide_eq_true hlt)
  have hall : (post.filter fun f => e.1 < f.1) = post :=
    List.filter_eq_self.mpr fun f hf => decide_eq_true (List.rel_of_pairwise_cons hpost hf)
  rw [List.filter_append, hnone, List.filter_cons_of_neg (by simp), hall, List.nil_append]

/-- The bars of a ring, and the ones that a limit leaves. -/
theorem mem_build {eng : LiveCandleEngine} {symbol exchange : String} (hs : 0 < seconds)
    (ho : TimeOrdered (eng.samples (engineKey symbol exchange))) {e : ℤ × Cell}
    (he : e ∈ referenceBars seconds (eng.samples (engineKey symbol exchange))) {limit : ℤ}
    (hlimit : ((referenceBars seconds (eng.samples (engineKey symbol exchange))).filter
      fun f => e.1 < f.1).length < limit.toNat) :
    candleOf seconds e ∈ eng.build symbol exchange seconds limit := by
  have hsorted := bars_sorted hs ho
  rw [bars_eq_reference hs ho] at hsorted
  unfold LiveCandleEngine.build
  rw [candles_eq hs ho, bars_eq_reference hs ho]
  obtain ⟨pre, post, hbars⟩ := List.append_of_mem he
  rw [hbars] at hsorted hlimit ⊢
  rw [filter_later hsorted] at hlimit
  rw [List.map_append, List.map_cons]
  exact mem_lastSlice (by rwa [List.length_map])

/-- **Finished bars never change.** Any calls, and later any others, the samples of the key coming in
    the order of their times: what `build` returns after the first are bars of buckets; a bar that is
    not the newest, and of which neither the samples nor the one before them have been evicted in the
    end, is the bar of its bucket in the end as well, and `build` returns it unless there are as many
    newer ones as its limit. -/
theorem finished_bars (cfg : LiveSettings) (symbol exchange : String)
    (calls later : List RecordCall) {seconds : ℚ} (hs : 0 < seconds)
    (ho : TimeOrdered (sampleLog cfg (engineKey symbol exchange) (calls ++ later) {})) :
    let key := engineKey symbol exchange
    let eng := recordAll cfg calls {}
    let eng' := recordAll cfg (calls ++ later) {}
    (∀ limit, ∀ c ∈ eng.build symbol exchange seconds limit,
      ∃ e ∈ referenceBars seconds (eng.samples key), c = candleOf seconds e) ∧
    ∀ e ∈ referenceBars seconds (eng.samples key),
      (referenceBars seconds (eng.samples key)).getLast? ≠ some e →
      KeptBar cfg.sampleMaxlen seconds (sampleLog cfg key calls {})
        (sampleLog cfg key (calls ++ later) {}) e.1 →
      e ∈ referenceBars seconds (eng'.samples key) ∧
        ∀ limit : ℤ, ((referenceBars seconds (eng'.samples key)).filter
            fun f => e.1 < f.1).length < limit.toNat →
          candleOf seconds e ∈ eng'.build symbol exchange seconds limit := by
  intro key eng eng'
  have hring : eng.samples key = window cfg.sampleMaxlen (sampleLog cfg key calls {}) :=
    recordAll_empty calls
  have hring' : eng'.samples key =
      window cfg.sampleMaxlen (sampleLog cfg key (calls ++ later) {}) := recordAll_empty _
  have hlog : sampleLog cfg key (calls ++ later) {} =
      sampleLog cfg key calls {} ++ sampleLog cfg key later eng := sampleLog_append calls later {}
  have ho' : TimeOrdered (eng'.samples key) := by
    rw [hring']
    exact ho.sublist (List.drop_sublist _ _)
  have hsplit : TimeOrdered (sampleLog cfg key calls {} ++ sampleLog cfg key later eng) := hlog ▸ ho
  have hordered : TimeOrdered (eng.samples key) := by
    rw [hring]
    exact ((List.pairwise_append.mp hsplit).1).sublist (List.drop_sublist _ _)
  constructor
  · intro limit c hc
    have hmem := (lastSlice_sublist _ _).subset hc
    rw [candles_eq hs hordered, bars_eq_reference hs hordered] at hmem
    obtain ⟨e, he, rfl⟩ := List.mem_map.mp hmem
    exact ⟨e, he, rfl⟩
  · intro e he hlast hkept
    have he' : e ∈ referenceBars seconds (eng'.samples key) := by
      rw [hring] at he hlast
      rw [hlog] at hkept
      rw [hring', hlog]
      exact finished_referenceBar hs hsplit he hlast hkept
    exact ⟨he', fun limit hlimit => mem_build hs ho' he' hlimit⟩

/-- A sample a second, from an untagged feed. -/
def secondCall (i : ℕ) : RecordCall := ⟨"RELIANCE", "NSE", some (100 + i), some (10 * i), some i, none, 0⟩

def secondSample (i : ℕ) : Sample := ⟨i, 100 + i, 10 * i, none⟩

theorem sampleLog_seconds (cfg : LiveSettings) (l : List ℕ) :
    sampleLog cfg "NSE:RELIANCE" (l.map secondCall) {} = l.map secondSample := by
  have hkey : engineKey "RELIANCE" "NSE" = "NSE:RELIANCE" := by decide +kernel
  have hcalls : ∀ c ∈ l.map secondCall,
      c.key = "NSE:RELIANCE" ∧ c.source = none ∧ ∃ p, c.price = some p ∧ 0 < p := by
    intro c hc
    obtain ⟨i, -, rfl⟩ := List.mem_map.mp hc
    exact ⟨hkey, rfl, 100 + i, rfl, by positivity⟩
  rw [sampleLog_singleSource hcalls (.inl rfl), List.map_map]
  rfl

theorem timeOrdered_seconds {l : List ℕ} (h : l.Pairwise (· < ·)) :
    TimeOrdered (l.map secondSample) := by
  refine List.pairwise_map.mpr (h.imp fun {i j} hij => ?_)
  show (i : ℚ) ≤ j
  exact_mod_cast hij.le

theorem ring_seconds (cfg : LiveSettings) (l : List ℕ) :
    (recordAll cfg (l.map secondCall) {}).samples "NSE:RELIANCE" =
      window cfg.sampleMaxlen (l.map secondSample) := by
  rw [recordAll_empty, sampleLog_seconds]

theorem ownPlace_seconds {cap n i : ℕ} {idx : ℤ}
    (h : OwnPlace cap 1 ((List.range n).map secondSample) idx i) : i = idx := by
  obtain ⟨-, x, hx, hidx⟩ := h
  rw [List.getElem?_map, Option.map_eq_some_iff] at hx
  obtain ⟨j, hj, rfl⟩ := hx
  obtain ⟨hlt, hji⟩ := List.getElem?_eq_some_iff.mp hj
  rw [List.getElem_range] at hji
  rw [hji, ← hidx]
  simp [secondSample]

/-- A ring of four: the bar of the third second outlives the eviction of the first. -/
theorem finished_bars_evicted :
    candleOf 1 (2, ⟨102, 102, 102, 102, 10⟩) ∈
      (recordAll { sampleMaxlen := 4 } ((List.range 4).map secondCall ++ [4].map secondCall)
        {}).build "RELIANCE" "NSE" 1 := by
  have hkey : engineKey "RELIANCE" "NSE" = "NSE:RELIANCE" := by decide +kernel
  have h := finished_bars { sampleMaxlen := 4 } "RELIANCE" "NSE" ((List.range 4).map secondCall)
    ([4].map secondCall) (one_pos : (0 : ℚ) < 1)
  rw [← List.map_append] at h ⊢
  dsimp only at h
  rw [hkey, sampleLog_seconds, sampleLog_seconds, ring_seconds, ring_seconds] at h
  obtain ⟨-, hbars⟩ := h (timeOrdered_seconds (by decide))
  refine (hbars (2, ⟨102, 102, 102, 102, 10⟩) (by decide +kernel) (by decide +kernel) ?_).2 300
    (by decide +kernel)
  refine ⟨fun i hi => ?_, fun i hi _ => ?_⟩
  · have hplace := ownPlace_seconds hi
    show 5 - 4 ≤ i
    omega
  · have hplace := ownPlace_seconds hi
    show 5 - 4 ≤ i
    omega

/-- Five minutes of seconds: nothing has been evicted, but the default limit leaves the first bar out. -/
theorem finished_bars_truncated :
    let calls := (List.range 2).map secondCall
    let later := (List.range' 2 300).map secondCall
    let eng := recordAll {} calls {}
    let eng' := recordAll {} (calls ++ later) {}
    ∃ e ∈ referenceBars 1 (eng.samples "NSE:RELIANCE"),
      candleOf 1 e ∈ eng.build "RELIANCE" "NSE" 1 ∧
      (referenceBars 1 (eng.samples "NSE:RELIANCE")).getLast? ≠ some e ∧
      KeptBar 46000 1 (sampleLog {} "NSE:RELIANCE" calls {})
        (sampleLog {} "NSE:RELIANCE" (calls ++ later) {}) e.1 ∧
      candleOf 1 e ∉ eng'.build "RELIANCE" "NSE" 1 := by
  intro calls later eng eng'
  have hkey : engineKey "RELIANCE" "NSE" = "NSE:RELIANCE" := by decide +kernel
  have hlog' := sampleLog_seconds {} (List.range 2 ++ List.range' 2 300)
  rw [List.map_append] at hlog'
  have hring : eng.samples "NSE:RELIANCE" = (List.range 2).map secondSample := by
    rw [ring_seconds, window_eq_drop]
    simp
  have hring' : eng'.samples "NSE:RELIANCE" =
      (List.range 2 ++ List.range' 2 300).map secondSample := by
    show (recordAll {} ((List.range 2).map secondCall ++ (List.range' 2 300).map secondCall)
      {}).samples _ = _
    rw [← List.map_append, ring_seconds, window_eq_drop]
    simp
  refine ⟨(0, ⟨100, 100, 100, 100, 0⟩), ?_, ?_, ?_, ?_, ?_⟩
  · rw [hring]
    decide +kernel
  · unfold LiveCandleEngine.build
    rw [hkey, hring]
    decide +kernel
  · rw [hring]
    decide +kernel
  · have hall : ∀ i, Retained 46000 (sampleLog {} "NSE:RELIANCE" (calls ++ later) {}) i := by
      intro i
      unfold Retained
      rw [hlog']
      simp
    exact ⟨fun i _ => hall i, fun i _ _ => hall i⟩
  · have hrange : List.range 2 ++ List.range' 2 300 = List.range 302 := by decide +kernel
    unfold LiveCandleEngine.build
    rw [hkey, hring', hrange, candles_eq one_pos (timeOrdered_seconds List.pairwise_lt_range)]
    decide +kernel

end Bars

end BharatTicker
