/-
  File:      BharatTicker/MemoryStore/Streams.lean
  Subject:   WHAT A CONSUMER GROUP IS DELIVERED (`xadd`, `xreadgroup`).

  A group's place in a stream is an index into the stream's bounded deque, and the deque drops from
  the left. The store is run beside the full log of every stream and what every group was given:

  * `StreamLog`, `step` -- the store with these ghosts;
  * `LogInv` -- the deque is the window of the log, a group's index is the number of entries it got,
    and no entry is logged twice; `step_logInv` -- one step;
  * `delivers_iff` -- whole runs.
-/
import BharatTicker.Basis.BoundedLog
import BharatTicker.Basis.Run
import BharatTicker.MemoryStore

namespace BharatTicker

-- the concrete runs below compute with rationals
unseal Rat.add Rat.mul Rat.sub Rat.inv

namespace MemoryStore

open Basis

/-! ## 1. Entry numbers -/

/-- The number of an entry can be read off its id. -/
theorem msgId_seq {now now' : ℚ} {k k' : Nat} (h : msgId now k = msgId now' k') : k = k' := by
  have htail : ∀ (now : ℚ) (k : Nat),
      ((msgId now k).toList.reverse.takeWhile (· ≠ '-')).reverse = k.repr.toList := by
    intro now k
    have hdigits : ∀ c ∈ k.repr.toList.reverse, decide (c ≠ '-') = true := by
      intro c hc
      rw [List.mem_reverse, Nat.toList_repr] at hc
      have hd := Nat.isDigit_of_mem_toDigits (by decide) (by decide) hc
      refine decide_eq_true fun e => ?_
      subst e
      cases hd
    have hid : (msgId now k).toList.reverse =
        k.repr.toList.reverse ++ '-' :: (toString ⌊now * 1000⌋).toList.reverse := by
      simp [msgId]
    rw [hid, List.takeWhile_append_of_pos hdigits]
    simp
  exact Nat.repr_injective (String.toList_injective (by rw [← htail now k, h, htail now' k']))

/-! ## 2. Reading several streams -/

section Reading

variable {group stream : String} {count : Nat} {s : MemoryStore}

/-- The new entries of one stream in what `xreadgroup` returns. -/
def entriesOf (stream : String) (out : List (String × List StreamEntry)) : List StreamEntry :=
  (out.filter fun e => e.1 = stream).flatMap Prod.snd

@[simp] theorem setPosition_groups_self (s : MemoryStore) (stream group : String) (n : Nat) :
    (s.setPosition stream group n).groups stream group = some n := by
  simp [setPosition]

theorem setPosition_groups_of_ne {stream' group' : String} {n : Nat}
    (h : ¬ (stream' = stream ∧ group' = group)) :
    (s.setPosition stream group n).groups stream' group' = s.groups stream' group' := by
  unfold setPosition
  by_cases e : stream' = stream
  · subst e
    have hne : group' ≠ group := fun e => h ⟨rfl, e⟩
    simp [Function.update_of_ne hne]
  · simp [Function.update_of_ne e]

/-- What the store does not change when it reads. -/
theorem readStream_streams : (s.readStream group stream count).streams = s.streams ∧
    (s.readStream group stream count).streamSeq = s.streamSeq := by
  unfold readStream
  dsimp only
  split
  · exact ⟨rfl, rfl⟩
  · exact ⟨rfl, rfl⟩

theorem readStream_groups_of_ne {stream' group' : String}
    (h : ¬ (stream' = stream ∧ group' = group)) :
    (s.readStream group stream count).groups stream' group' = s.groups stream' group' := by
  unfold readStream
  dsimp only
  split
  · rfl
  · exact setPosition_groups_of_ne h

theorem readStream_position : ((s.readStream group stream count).groups stream group).getD 0 =
    (s.groups stream group).getD 0 + (s.unread group stream count).length := by
  unfold readStream
  dsimp only
  split
  · rename_i h
    rw [h, List.length_nil, Nat.add_zero]
  · rw [setPosition_groups_self]
    rfl

/-- What a group has not read of a stream does not depend on the other streams. -/
theorem unread_readStream_of_ne {stream' : String} (h : stream' ≠ stream) :
    (s.readStream group stream count).unread group stream' count =
      s.unread group stream' count := by
  unfold unread
  rw [readStream_streams.1, readStream_groups_of_ne fun e => h e.1]

/-- What is returned of a stream: that of the first one asked for, and of the rest. -/
theorem entriesOf_xreadgroup_cons (head stream : String) (streams : List String) :
    entriesOf stream (s.xreadgroup group (head :: streams) count).1 =
      (if head = stream then s.unread group head count else []) ++
        entriesOf stream ((s.readStream group head count).xreadgroup group streams count).1 := by
  unfold entriesOf
  rw [xreadgroup]
  dsimp only
  by_cases hnil : s.unread group head count = []
  · simp [hnil]
  · by_cases e : head = stream
    · subst e
      simp [hnil]
    · simp [hnil, e]

/-- **What `xreadgroup` returns and does**, one stream at a time: of a stream that is asked for, the
    unread entries, and the group's index moves on by their number. -/
theorem xreadgroup_spec {streams : List String} (hnodup : streams.Nodup) :
    (s.xreadgroup group streams count).2.streams = s.streams ∧
    (s.xreadgroup group streams count).2.streamSeq = s.streamSeq ∧
    ∀ stream, entriesOf stream (s.xreadgroup group streams count).1 =
        (if stream ∈ streams then s.unread group stream count else []) ∧
      (∀ g, g ≠ group → (s.xreadgroup group streams count).2.groups stream g =
        s.groups stream g) ∧
      ((s.xreadgroup group streams count).2.groups stream group).getD 0 =
        (s.groups stream group).getD 0 +
          (entriesOf stream (s.xreadgroup group streams count).1).length := by
  induction streams generalizing s with
  | nil => exact ⟨rfl, rfl, fun stream => ⟨rfl, fun _ _ => rfl, rfl⟩⟩
  | cons head streams ih =>
    obtain ⟨hnot, hrest⟩ := List.nodup_cons.mp hnodup
    obtain ⟨hstreams, hseq, hper⟩ := ih (s := s.readStream group head count) hrest
    refine ⟨hstreams.trans readStream_streams.1, hseq.trans readStream_streams.2, fun stream => ?_⟩
    obtain ⟨hentries, hothers, hposition⟩ := hper stream
    by_cases e : stream = head
    · subst e
      have hall : entriesOf stream (s.xreadgroup group (stream :: streams) count).1 =
          s.unread group stream count := by
        rw [entriesOf_xreadgroup_cons, hentries, if_pos rfl, if_neg hnot, List.append_nil]
      refine ⟨?_, fun g hg => (hothers g hg).trans (readStream_groups_of_ne fun e => hg e.2), ?_⟩
      · rw [hall, if_pos List.mem_cons_self]
      · rw [hall]
        rw [hentries, if_neg hnot, List.length_nil, Nat.add_zero, readStream_position] at hposition
        exact hposition
    · have hall : entriesOf stream (s.xreadgroup group (head :: streams) count).1 =
          entriesOf stream
            ((s.readStream group head count).xreadgroup group streams count).1 := by
        rw [entriesOf_xreadgroup_cons, if_neg (Ne.symm e), List.nil_append]
      refine ⟨?_, fun g hg => (hothers g hg).trans (readStream_groups_of_ne fun h => e h.1), ?_⟩
      · rw [hall, hentries, unread_readStream_of_ne e]
        simp [e]
      · rw [hall]
        rw [readStream_groups_of_ne fun h => e h.1] at hposition
        exact hposition

end Reading

/-! ## 3. The store beside its logs -/

/-- The store, all that was added to each stream, and all that each group was given of it. -/
structure StreamLog where
  store : MemoryStore := {}
  added : String → List StreamEntry := fun _ => []
  delivered : String → String → List StreamEntry := fun _ _ => []

inductive StreamAction where
  | xadd (stream : String) (fields : Hash) (now : ℚ)
  | xreadgroup (group : String) (streams : List String) (count : Nat)

namespace StreamLog

/-- The streams to read are the keys of a dictionary; at least one entry is asked for. -/
def step (capacity : Nat) (s : StreamLog) : StreamAction → Option StreamLog
  | .xadd stream fields now =>
    let (id, store) := s.store.xadd capacity stream fields now
    some { s with
      store := store
      added := Function.update s.added stream (s.added stream ++ [⟨id, fields⟩]) }
  | .xreadgroup group streams count =>
    if streams.Nodup ∧ 0 < count then
      let (out, store) := s.store.xreadgroup group streams count
      some { s with
        store := store
        delivered := fun stream g =>
          if g = group then s.delivered stream g ++ entriesOf stream out
          else s.delivered stream g }
    else none

/-- The deque is the window of the log; a group's index is the number of entries it got; entries are
    numbered in the order in which they were added. -/
structure LogInv (capacity : Nat) (s : StreamLog) : Prop where
  buffer : ∀ stream, s.store.streams stream = window capacity (s.added stream)
  position : ∀ stream group,
    (s.store.groups stream group).getD 0 = (s.delivered stream group).length
  seq : ∀ stream, s.store.streamSeq stream = (s.added stream).length
  numbered : ∀ stream, ∀ e ∈ s.added stream,
    ∃ now k, e.id = msgId now k ∧ k ≤ (s.added stream).length
  nodup : ∀ stream, (s.added stream).Nodup

section Invariant

variable {capacity : Nat} {s s' : StreamLog}

theorem logInv_init (capacity : Nat) : LogInv capacity {} := by
  refine ⟨fun _ => ?_, fun _ _ => rfl, fun _ => rfl, ?_, fun _ => List.nodup_nil⟩
  · simp [window]
  · intro _ e he
    cases he

/-- What a group is given of a stream. -/
theorem unread_eq_batch (h : LogInv capacity s) (group stream : String) (count : Nat) :
    s.store.unread group stream count =
      batch capacity (s.delivered stream group).length count (s.added stream) := by
  unfold unread batch
  rw [h.buffer, h.position]

theorem xadd_logInv {stream : String} {fields : Hash} {now : ℚ} (h : LogInv capacity s)
    (hs : step capacity s (.xadd stream fields now) = some s') : LogInv capacity s' := by
  cases hs
  have hnew : ∀ e ∈ s.added stream, e.id ≠ msgId now (s.store.streamSeq stream + 1) := by
    intro e he hid
    obtain ⟨now', k, hk, hle⟩ := h.numbered stream e he
    have hseq := msgId_seq (hk.symm.trans hid)
    have hlen := h.seq stream
    omega
  refine ⟨fun st => ?_, h.position, fun st => ?_, fun st => ?_, fun st => ?_⟩
  · rcases eq_or_ne st stream with rfl | e
    · simp only [Function.update_self, dequeAppend]
      rw [h.buffer]
      exact window_append ..
    · simp only [Function.update_of_ne e]
      exact h.buffer st
  · rcases eq_or_ne st stream with rfl | e
    · simp only [Function.update_self]
      rw [h.seq, List.length_append]
      rfl
    · simp only [Function.update_of_ne e]
      exact h.seq st
  · rcases eq_or_ne st stream with rfl | e
    · simp only [Function.update_self]
      intro e he
      rw [List.length_append, List.length_singleton]
      rcases List.mem_append.mp he with he | he
      · obtain ⟨now', k, hk, hle⟩ := h.numbered st e he
        exact ⟨now', k, hk, Nat.le_succ_of_le hle⟩
      · rw [List.mem_singleton.mp he]
        exact ⟨now, _, rfl, by rw [h.seq]⟩
    · simp only [Function.update_of_ne e]
      exact h.numbered st
  · rcases eq_or_ne st stream with rfl | e
    · simp only [Function.update_self]
      refine List.Nodup.append (h.nodup st) (List.nodup_singleton _) fun e he he' => ?_
      rw [List.mem_singleton.mp he'] at he
      exact hnew _ he rfl
    · simp only [Function.update_of_ne e]
      exact h.nodup st

theorem xreadgroup_logInv {group : String} {streams : List String} {count : Nat}
    (h : LogInv capacity s) (hs : step capacity s (.xreadgroup group streams count) = some s') :
    LogInv capacity s' := by
  obtain ⟨hcond, e⟩ := Option.ite_none_right_eq_some.mp hs
  cases e
  obtain ⟨hstreams, hseq, hper⟩ := @xreadgroup_spec group count s.store streams hcond.1
  refine ⟨fun st => ?_, fun st g => ?_, fun st => ?_, h.numbered, h.nodup⟩
  · exact (congrFun hstreams st).trans (h.buffer st)
  · obtain ⟨-, hothers, hposition⟩ := hper st
    by_cases e : g = group
    · subst e
      simp only [if_true]
      rw [List.length_append, hposition, h.position]
    · simp only [if_neg e]
      rw [hothers g e, h.position]
  · exact (congrFun hseq st).trans (h.seq st)

/-- **One step keeps the invariant.** -/
theorem step_logInv {a : StreamAction} (h : LogInv capacity s) (hs : step capacity s a = some s') :
    LogInv capacity s' := by
  cases a with
  | xadd stream fields now => exact xadd_logInv h hs
  | xreadgroup group streams count => exact xreadgroup_logInv h hs

end Invariant

/-! ## 4. Exactly once, in order -/

/-- An entry of the stream has not been given to the group. -/
def Waits (stream group : String) (s : StreamLog) : Prop :=
  ∃ e ∈ s.added stream, e ∉ s.delivered stream group

/-- Every entry that the deque has dropped had been given to the group. -/
def NoneLost (capacity : Nat) (stream group : String) (s : StreamLog) : Prop :=
  ∀ e ∈ (s.added stream).take ((s.added stream).length - capacity), e ∈ s.delivered stream group

/-- A read of the stream gives the group something if there is something that it was not given. -/
def Serves (stream group : String) (s : StreamLog) : StreamAction → Prop
  | .xadd .. => True
  | .xreadgroup g streams count => g = group → stream ∈ streams → Waits stream group s →
      entriesOf stream (s.store.xreadgroup g streams count).1 ≠ []

/-- A read of the stream that finds something unread finds nothing dropped. -/
def Undropped (capacity : Nat) (stream group : String) (s : StreamLog) : StreamAction → Prop
  | .xadd .. => True
  | .xreadgroup g streams _ => g = group → stream ∈ streams → Waits stream group s →
      (s.added stream).length ≤ capacity

instance (stream group : String) (s : StreamLog) : Decidable (Waits stream group s) :=
  inferInstanceAs (Decidable (∃ e ∈ s.added stream, e ∉ s.delivered stream group))

instance (capacity : Nat) (stream group : String) (s : StreamLog) :
    Decidable (NoneLost capacity stream group s) :=
  inferInstanceAs (Decidable (∀ e ∈ (s.added stream).take ((s.added stream).length - capacity),
    e ∈ s.delivered stream group))

instance (capacity : Nat) (stream group : String) (s : StreamLog) (a : StreamAction) :
    Decidable (Undropped capacity stream group s a) :=
  match a with
  | .xadd .. => .isTrue trivial
  | .xreadgroup g streams _ => inferInstanceAs (Decidable (g = group → stream ∈ streams →
      Waits stream group s → (s.added stream).length ≤ capacity))

section Delivery

variable {capacity : Nat} {stream group : String} {s s' : StreamLog}

/-- A group that was given an initial part of the log waits when that is not all of it. -/
theorem waits_iff (hnodup : (s.added stream).Nodup)
    (hpre : s.delivered stream group <+: s.added stream) :
    Waits stream group s ↔ (s.delivered stream group).length < (s.added stream).length := by
  constructor
  · intro h
    obtain ⟨e, he, hnot⟩ := h
    by_contra hge
    have heq := hpre.eq_of_length_le (Nat.not_lt.mp hge)
    rw [heq] at hnot
    exact hnot he
  · intro hlt
    obtain ⟨rest, hrest⟩ := hpre
    cases rest with
    | nil =>
      rw [← hrest, List.append_nil] at hlt
      omega
    | cons e rest =>
      rw [← hrest, List.nodup_append] at hnodup
      refine ⟨e, by rw [← hrest]; simp, fun hmem => ?_⟩
      exact hnodup.2.2 e hmem e List.mem_cons_self rfl

/-- **One step delivers in order, and something if there is something, exactly when it finds nothing
    dropped.** -/
theorem step_delivers {a : StreamAction} (h : LogInv capacity s)
    (hpre : s.delivered stream group <+: s.added stream) (hs : step capacity s a = some s') :
    (s'.delivered stream group <+: s'.added stream ∧ Serves stream group s a) ↔
      Undropped capacity stream group s a := by
  cases a with
  | xadd st fields now =>
    cases hs
    refine iff_of_true ⟨?_, trivial⟩ trivial
    rcases eq_or_ne stream st with rfl | e
    · simp only [Function.update_self]
      exact hpre.trans (List.prefix_append ..)
    · simp only [Function.update_of_ne e]
      exact hpre
  | xreadgroup g streams count =>
    obtain ⟨hcond, e⟩ := Option.ite_none_right_eq_some.mp hs
    cases e
    obtain ⟨-, -, hper⟩ := @xreadgroup_spec g count s.store streams hcond.1
    have hentries := (hper stream).1
    unfold Serves Undropped
    by_cases hasked : g = group ∧ stream ∈ streams
    · obtain ⟨rfl, hmem⟩ := hasked
      rw [if_pos hmem, unread_eq_batch h] at hentries
      simp only [if_true, hentries, waits_iff (h.nodup stream) hpre]
      simpa [hmem] using batch_continues_iff (h.nodup stream) hpre hcond.2
    · refine iff_of_true ⟨?_, fun hg hmem => absurd ⟨hg, hmem⟩ hasked⟩
        fun hg hmem => absurd ⟨hg, hmem⟩ hasked
      show (if group = g then s.delivered stream group ++ entriesOf stream _
        else s.delivered stream group) <+: s.added stream
      split
      · rename_i hg
        have hmem : stream ∉ streams := fun hmem => hasked ⟨hg.symm, hmem⟩
        rw [hentries, if_neg hmem, List.append_nil]
        exact hpre
      · exact hpre

/-- **A consumer group is delivered each entry once, in order and without a gap, and a read gives it
    something whenever something is unread, exactly in the runs in which it reads what is unread
    before the stream has outgrown its deque.** -/
theorem delivers_iff (capacity : Nat) (actions : List StreamAction) (s : StreamLog)
    (hr : run (step capacity) {} actions = some s) (stream group : String) :
    ((∀ pre, pre <+: actions → ∀ s', run (step capacity) {} pre = some s' →
        s'.delivered stream group <+: s'.added stream) ∧
      StepsMeet (step capacity) (Serves stream group) {} actions) ↔
    StepsMeet (step capacity) (Undropped capacity stream group) {} actions := by
  have h := always_meet_iff (I := fun s => s.delivered stream group <+: s.added stream)
    (fun s a s' hJ hs => step_logInv hJ hs) (fun s a s' hJ hI hs => step_delivers hJ hI hs)
    (logInv_init capacity) hr
  rw [and_iff_right (List.nil_prefix), always_iff] at h
  exact h

/-- Two groups read a stream that never holds more than its deque does. -/
def twoGroupsRun : List StreamAction :=
  [.xadd "stream:NSE" [("symbol", "TCS"), ("ltp", "4100")] 1,
    .xadd "stream:NSE" [("symbol", "INFY"), ("ltp", "1500")] 2,
    .xreadgroup "candles" ["stream:NSE", "stream:BSE"] 1,
    .xreadgroup "alerts" ["stream:NSE"] 10,
    .xreadgroup "candles" ["stream:NSE"] 1]

theorem delivers_twoGroups : ∃ s, run (step 2) {} twoGroupsRun = some s ∧
    (s.delivered "stream:NSE" "candles").map (·.id) = ["1000-1", "2000-2"] ∧
    (s.delivered "stream:NSE" "alerts").map (·.id) = ["1000-1", "2000-2"] ∧
    StepsMeet (step 2) (Serves "stream:NSE" "candles") {} twoGroupsRun := by
  have hrun : (run (step 2) {} twoGroupsRun).map (fun s =>
      ((s.delivered "stream:NSE" "candles").map (·.id),
        (s.delivered "stream:NSE" "alerts").map (·.id))) =
        some (["1000-1", "2000-2"], ["1000-1", "2000-2"]) := by
    decide
  obtain ⟨s, hs, e⟩ := Option.map_eq_some_iff.mp hrun
  have hmeet : StepsMeet (step 2) (Undropped 2 "stream:NSE" "candles") {} twoGroupsRun := by
    decide
  exact ⟨s, hs, congrArg Prod.fst e, congrArg Prod.snd e,
    ((delivers_iff 2 twoGroupsRun s hs "stream:NSE" "candles").mpr hmeet).2⟩

/-- A group reads two entries before a third one drops the first from a deque of two. -/
def outgrownRun : List StreamAction :=
  [.xadd "stream:NSE" [("ltp", "1")] 1, .xadd "stream:NSE" [("ltp", "2")] 2,
    .xreadgroup "candles" ["stream:NSE"] 10, .xadd "stream:NSE" [("ltp", "3")] 3]

/-- No entry is dropped before the group has read it, the third is unread, and a read gets
    nothing. -/
theorem outgrown_not_served : ∃ s, run (step 2) {} outgrownRun = some s ∧
    (∀ pre ∈ outgrownRun.inits, ∀ s', run (step 2) {} pre = some s' →
      NoneLost 2 "stream:NSE" "candles" s') ∧
    Waits "stream:NSE" "candles" s ∧
    (s.store.xreadgroup "candles" ["stream:NSE"] 10).1 = [] := by
  have hrun : (run (step 2) {} outgrownRun).map (fun s =>
      (decide (Waits "stream:NSE" "candles" s),
        (s.store.xreadgroup "candles" ["stream:NSE"] 10).1)) = some (true, []) := by
    decide
  have hlost : ∀ pre ∈ outgrownRun.inits, (run (step 2) {} pre).map (fun s =>
      decide (NoneLost 2 "stream:NSE" "candles" s)) = some true := by
    decide
  obtain ⟨s, hs, e⟩ := Option.map_eq_some_iff.mp hrun
  refine ⟨s, hs, fun pre hpre s' hs' => ?_, of_decide_eq_true (congrArg Prod.fst e),
    congrArg Prod.snd e⟩
  have h := hlost pre hpre
  rw [hs'] at h
  exact of_decide_eq_true (Option.some.inj h)

end Delivery

end StreamLog

end MemoryStore

end BharatTicker
