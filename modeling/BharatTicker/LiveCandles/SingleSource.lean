/-
  File:      BharatTicker/LiveCandles/SingleSource.lean
  Subject:   THE SINGLE-SOURCE RULE OF A TAPE. Two samples of different sources stand more than
             `PRIMARY_SOURCE_TTL_S` apart.

  * `TapeInv` -- the owner and its time describe the newest sample, every sample of another source
    lies more than the TTL before the owner's time, and different sources stand apart;
  * `record_tapeInv` -- one call; `recordAll_tapeInv` -- any number of calls, on any keys;
  * `single_source` -- what this says about the ring, and about the next call.
-/
import BharatTicker.LiveCandles

namespace BharatTicker

open LiveCandleEngine

/-- `record` for each call, in order. -/
def recordAll (cfg : LiveSettings) (calls : List RecordCall) (eng : LiveCandleEngine) :
    LiveCandleEngine :=
  calls.foldl (fun eng c => record cfg c eng) eng

/-! ## 1. The invariant -/

/-- A ring, the owner of its key and the owner's time. -/
structure TapeInv (ttl : ℚ) (ring : List Sample) (owner : Option String) (ownerTs : ℚ) : Prop where
  taken : ring ≠ [] → owner ≠ none
  before : ∀ x ∈ ring, x.ts ≤ ownerTs
  others : ∀ x ∈ ring, x.source ≠ owner → ttl < ownerTs - x.ts
  apart : ring.Pairwise fun x y => x.ts ≤ y.ts ∧ (x.source ≠ y.source → ttl < y.ts - x.ts)

/-- The invariant at one key of an engine. -/
def TapeInvAt (cfg : LiveSettings) (key : String) (eng : LiveCandleEngine) : Prop :=
  TapeInv cfg.primarySourceTtl (eng.samples key) (eng.primarySrc key) (eng.primaryTs key)

/-- The owner's time is not after `t`. -/
def OwnedBy (key : String) (t : ℚ) (eng : LiveCandleEngine) : Prop :=
  eng.primarySrc key ≠ none → eng.primaryTs key ≤ t

variable {cfg : LiveSettings} {key : String} {c : RecordCall} {eng : LiveCandleEngine}

/-- A call that is let through lies more than the TTL after every sample of another source. -/
theorem accepted_apart (h : TapeInvAt cfg key eng) {source : Option String} {ts : ℚ}
    (hown : OwnedBy key ts eng) (hsrc : source ≠ none)
    (hfree : eng.heldByOther cfg key source ts = false) :
    ∀ x ∈ eng.samples key, x.ts ≤ ts ∧ (x.source ≠ source → cfg.primarySourceTtl < ts - x.ts) := by
  intro x hx
  have howner : eng.primarySrc key ≠ none := h.taken (List.ne_nil_of_mem hx)
  have hts : eng.primaryTs key ≤ ts := hown howner
  have hxts : x.ts ≤ eng.primaryTs key := h.before x hx
  refine ⟨hxts.trans hts, fun hne => ?_⟩
  obtain ⟨s, rfl⟩ := Option.ne_none_iff_exists'.mp hsrc
  obtain ⟨o, ho⟩ := Option.ne_none_iff_exists'.mp howner
  by_cases e : o = s
  · -- the owner continues: the other source was already left behind
    subst e
    have hother := h.others x hx (by rw [ho]; exact hne)
    linarith
  · -- a take-over: the owner itself has been silent
    have hstale : ¬ ts - eng.primaryTs key ≤ cfg.primarySourceTtl := by
      simpa [heldByOther, ho, e] using hfree
    linarith [not_le.mp hstale]

theorem mem_ringAppend {n : Nat} {ring : List Sample} {x y : Sample}
    (h : y ∈ ringAppend n ring x) : y ∈ ring ∨ y = x := by
  have hmem : y ∈ ring ++ [x] := List.mem_of_mem_drop h
  simpa using hmem

/-- **One call on the key.** -/
theorem record_tapeInv (hc : c.key = key) (hsrc : c.source ≠ none) (hown : OwnedBy key c.stamp eng)
    (h : TapeInvAt cfg key eng) :
    TapeInvAt cfg key (record cfg c eng) ∧ OwnedBy key c.stamp (record cfg c eng) := by
  subst hc
  rcases record_cases cfg c eng with e | ⟨x, hts, hxs, -, -, hfree, e⟩
  · rw [e]
    exact ⟨h, hown⟩
  · have hold := accepted_apart h hown hsrc hfree
    obtain ⟨s, hs⟩ := Option.ne_none_iff_exists'.mp hsrc
    have hring : (record cfg c eng).samples c.key =
        ringAppend cfg.sampleMaxlen (eng.samples c.key) x := by
      rw [e]
      simp [append, own_samples]
    have howner : (record cfg c eng).primarySrc c.key = c.source ∧
        (record cfg c eng).primaryTs c.key = c.stamp := by
      rw [e, hs]
      simp [append, own]
    refine ⟨?_, fun _ => howner.2.le⟩
    unfold TapeInvAt
    rw [hring, howner.1, howner.2]
    refine ⟨fun _ => hsrc, ?_, ?_, ?_⟩
    · intro y hy
      rcases mem_ringAppend hy with hy | rfl
      · exact (hold y hy).1
      · exact hts.le
    · intro y hy hne
      rcases mem_ringAppend hy with hy | rfl
      · exact (hold y hy).2 hne
      · exact absurd hxs hne
    · refine List.Pairwise.sublist (List.drop_sublist _ _) ?_
      refine List.pairwise_append.mpr ⟨h.apart, List.pairwise_singleton _ _, ?_⟩
      intro y hy z hz
      rw [List.mem_singleton.mp hz, hts, hxs]
      exact hold y hy

/-- **Any number of calls.** -/
theorem recordAll_tapeInv {calls : List RecordCall}
    (hsrc : ∀ c ∈ calls, c.key = key → c.source ≠ none)
    (hmono : (calls.filter fun c => c.key = key).Pairwise fun c d => c.stamp ≤ d.stamp)
    (hown : ∀ c ∈ calls, c.key = key → OwnedBy key c.stamp eng) (h : TapeInvAt cfg key eng) :
    TapeInvAt cfg key (recordAll cfg calls eng) ∧
      ∀ t, (∀ c ∈ calls, c.key = key → c.stamp ≤ t) → OwnedBy key t eng →
        OwnedBy key t (recordAll cfg calls eng) := by
  induction calls generalizing eng with
  | nil => exact ⟨h, fun t _ ht => ht⟩
  | cons c calls ih =>
    have hsrc' : ∀ d ∈ calls, d.key = key → d.source ≠ none := fun d hd =>
      hsrc d (List.mem_cons_of_mem c hd)
    by_cases hc : c.key = key
    · rw [List.filter_cons_of_pos (by simpa using hc)] at hmono
      obtain ⟨hle, hmono⟩ := List.pairwise_cons.mp hmono
      obtain ⟨h1, h2⟩ := record_tapeInv hc (hsrc c List.mem_cons_self hc)
        (hown c List.mem_cons_self hc) h
      have hown' : ∀ d ∈ calls, d.key = key → OwnedBy key d.stamp (record cfg c eng) :=
        fun d hd hk ho => (h2 ho).trans (hle d (List.mem_filter.mpr ⟨hd, by simpa using hk⟩))
      obtain ⟨h3, h4⟩ := ih hsrc' hmono hown' h1
      refine ⟨h3, fun t ht _ => ?_⟩
      exact h4 t (fun d hd => ht d (List.mem_cons_of_mem c hd)) fun ho =>
        (h2 ho).trans (ht c List.mem_cons_self hc)
    · rw [List.filter_cons_of_neg (by simpa using hc)] at hmono
      obtain ⟨e1, e2, e3⟩ := record_other cfg eng (Ne.symm hc)
      have hinv : TapeInvAt cfg key (record cfg c eng) := by
        unfold TapeInvAt
        rw [e1, e2, e3]
        exact h
      have hsame : ∀ t, OwnedBy key t eng → OwnedBy key t (record cfg c eng) := by
        intro t ht
        unfold OwnedBy
        rw [e2, e3]
        exact ht
      obtain ⟨h3, h4⟩ := ih hsrc' hmono
        (fun d hd hk => hsame _ (hown d (List.mem_cons_of_mem c hd) hk)) hinv
      exact ⟨h3, fun t ht h0 => h4 t (fun d hd => ht d (List.mem_cons_of_mem c hd)) (hsame t h0)⟩

theorem tapeInv_init (cfg : LiveSettings) (key : String) : TapeInvAt cfg key {} :=
  ⟨fun h => absurd rfl h, fun _ hx => absurd hx List.not_mem_nil,
    fun _ hx => absurd hx List.not_mem_nil, List.Pairwise.nil⟩

/-! ## 2. The rule -/

/-- Samples of different sources lie more than the TTL apart. -/
def Apart (ttl : ℚ) (x y : Sample) : Prop := x.source ≠ y.source → ttl < |x.ts - y.ts|

/-- **The single-source rule.** Whatever tagged samples are recorded, in the order of their times:
    samples of different sources in the ring of a key lie more than the TTL apart, and a later call
    leaves the ring as it is while a sample of another source in it is within the TTL. -/
theorem single_source (cfg : LiveSettings) (key : String) (calls : List RecordCall)
    (hsrc : ∀ c ∈ calls, c.key = key → c.source ≠ none)
    (hmono : (calls.filter fun c => c.key = key).Pairwise fun c d => c.stamp ≤ d.stamp) :
    let eng := recordAll cfg calls {}
    (∀ x ∈ eng.samples key, ∀ y ∈ eng.samples key, Apart cfg.primarySourceTtl x y) ∧
    (∀ c : RecordCall, c.key = key → c.source ≠ none →
      (∀ d ∈ calls, d.key = key → d.stamp ≤ c.stamp) →
      ∀ x ∈ eng.samples key, x.source ≠ c.source → c.stamp - x.ts ≤ cfg.primarySourceTtl →
        (record cfg c eng).samples key = eng.samples key) := by
  intro eng
  have hfree : ∀ c ∈ calls, c.key = key → OwnedBy key c.stamp {} := fun c _ _ ho => absurd rfl ho
  obtain ⟨hinv, hown⟩ := recordAll_tapeInv hsrc hmono hfree (tapeInv_init cfg key)
  refine ⟨?_, ?_⟩
  · have hsymm : Std.Symm (Apart cfg.primarySourceTtl) :=
      ⟨fun x y h hne => abs_sub_comm x.ts y.ts ▸ h hne.symm⟩
    have hap : (eng.samples key).Pairwise (Apart cfg.primarySourceTtl) := by
      refine hinv.apart.imp ?_
      intro x y h hne
      rw [abs_sub_comm]
      exact lt_of_lt_of_le (h.2 hne) (le_abs_self _)
    exact fun x hx y hy => hap.forall_of_forall (fun _ _ hne => absurd rfl hne) hx hy
  · intro c hc hs hlast x hx hne hfresh
    subst hc
    rcases record_cases cfg c eng with e | ⟨z, -, -, -, -, hfree, -⟩
    · rw [e]
    · have h := accepted_apart hinv (hown c.stamp hlast fun ho => absurd rfl ho) hs hfree x hx
      exact absurd (h.2 hne) (not_lt.mpr hfresh)

/-- Two recorders on one key: the second one is dropped once, then takes over. -/
def takeoverCalls : List RecordCall :=
  [⟨"reliance", "nse", some 100, some 1000, some 100, some "groww", 0⟩,
    ⟨"RELIANCE", "NSE", some 101, some 900, some 102, some "tickertape", 0⟩,
    ⟨"RELIANCE", "NSE", some 102, some 950, some 106, some "tickertape", 0⟩]

theorem single_source_takeover :
    let eng := recordAll {} takeoverCalls {}
    (eng.samples "NSE:RELIANCE").map (·.source) = [some "groww", some "tickertape"] ∧
      ∀ x ∈ eng.samples "NSE:RELIANCE", ∀ y ∈ eng.samples "NSE:RELIANCE", Apart 5 x y :=
  ⟨by decide +kernel,
    (single_source {} "NSE:RELIANCE" takeoverCalls (by decide +kernel) (by decide +kernel)).1⟩

end BharatTicker
