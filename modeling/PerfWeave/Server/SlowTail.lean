/-
This file settles what the slow tail keeps of a stream whose samples are at least 950 ms apart. On
such a stream the decimation rule is a threshold: it takes exactly the samples that are 950 ms
later than the last one taken before the stream. A fresh series starts with the threshold of a
sample at time zero, so it loses a first sample earlier than 950 ms; and a series whose past has
left a late timestamp behind takes nothing until the stream has caught up with it.
-/

import PerfWeave.Server.FastRingLog

namespace PerfWeave

variable {Value : Type}

/-! ### The slow tail of a snapshot -/

/-- The slow tail that readers see of a series; a series that is not there has none. -/
def FastRingSnapshot.slowTail (snapshot : FastRingSnapshot Value) (key : SeriesKey) :
    List (Sample Value) :=
  (snapshot.series key).elim [] SeriesSnapshot.slow

theorem FastRing.slowTail_publish [Zero Value] (ring : FastRing Value) (now : UInt64)
    (key : SeriesKey) :
    (ring.publish now).snapshot.slowTail key = (ring.seriesRing key).slow.read := by
  unfold FastRingSnapshot.slowTail seriesRing publish
  dsimp only
  cases ring.writer key with
  | none =>
    rw [Option.map_none, Option.elim_none, Option.getD_none, SeriesRing.new, RingBuffer.read_empty]
  | some series => rw [Option.map_some, Option.elim_some, Option.getD_some, SeriesRing.snapshot]

theorem pushedTo_append (key : SeriesKey) (first second : List (FastRingOp Value)) :
    pushedTo key (first ++ second) = pushedTo key first ++ pushedTo key second :=
  List.filterMap_append

/-! ### Spaced streams -/

theorem acceptedAfter_append (last : Nat) (first second : List (Sample Value)) :
    acceptedAfter last (first ++ second) =
      acceptedAfter last first ++ acceptedAfter (lastAcceptedAfter last first) second := by
  induction first generalizing last with
  | nil => rfl
  | cons s rest inductionHypothesis =>
    simp only [List.cons_append, acceptedAfter, lastAcceptedAfter]
    split
    · rw [inductionHypothesis, List.cons_append]
    · exact inductionHypothesis last

theorem SlowSpaced.trans {first second third : Sample Value} (early : SlowSpaced first second)
    (late : SlowSpaced second third) : SlowSpaced first third := by
  unfold SlowSpaced at early late ⊢
  omega

instance : @Trans (Sample Value) (Sample Value) (Sample Value) SlowSpaced SlowSpaced SlowSpaced :=
  ⟨SlowSpaced.trans⟩

instance (first second : Sample Value) : Decidable (SlowSpaced first second) :=
  inferInstanceAs (Decidable (_ ≤ _))

/-- At least 950 ms later than a time. -/
def Sample.isDue (last : Nat) (s : Sample Value) : Bool := last + 950000000 ≤ s.tsNs.toNat

theorem Sample.isDue_iff (last : Nat) (s : Sample Value) :
    s.isDue last = true ↔ last + 950000000 ≤ s.tsNs.toNat :=
  decide_eq_true_iff

/-- What follows a sample on a spaced stream is due after any time up to that sample's. -/
theorem Sample.isDue_of_spaced {first second : Sample Value} (spaced : SlowSpaced first second)
    {last : Nat} (early : last ≤ first.tsNs.toNat) : second.isDue last := by
  rw [isDue_iff]
  exact (Nat.add_le_add_right early _).trans spaced

/-- On a spaced stream the decimation rule is a threshold. -/
theorem acceptedAfter_of_spaced {stream : List (Sample Value)} (spaced : stream.Pairwise SlowSpaced)
    (last : Nat) : acceptedAfter last stream = stream.filter (Sample.isDue last) := by
  induction stream generalizing last with
  | nil => rfl
  | cons s rest inductionHypothesis =>
    obtain ⟨later, spacedRest⟩ := List.pairwise_cons.mp spaced
    have allDue : ∀ time ≤ s.tsNs.toNat, rest.filter (Sample.isDue time) = rest :=
      fun time early => List.filter_eq_self.mpr fun other member =>
        Sample.isDue_of_spaced (later other member) early
    rw [acceptedAfter, inductionHypothesis spacedRest, inductionHypothesis spacedRest,
      List.filter_cons]
    by_cases due : s.isDue last
    · have late := (Sample.isDue_iff last s).mp due
      rw [if_pos late, if_pos due, allDue _ le_rfl, allDue _ ((Nat.le_add_right _ _).trans late)]
    · rw [if_neg (mt (Sample.isDue_iff last s).mpr due), if_neg due]

/-- A spaced stream is what is not due yet, and then what is. -/
theorem filter_not_due_append {stream : List (Sample Value)} (spaced : stream.Pairwise SlowSpaced)
    (last : Nat) :
    (stream.filter fun s => !s.isDue last) ++ stream.filter (Sample.isDue last) = stream := by
  induction stream with
  | nil => rfl
  | cons s rest inductionHypothesis =>
    obtain ⟨later, spacedRest⟩ := List.pairwise_cons.mp spaced
    cases due : s.isDue last with
    | false =>
      rw [List.filter_cons_of_pos (by rw [due]; rfl),
        List.filter_cons_of_neg (Bool.eq_false_iff.mp due), List.cons_append,
        inductionHypothesis spacedRest]
    | true =>
      have early := (Nat.le_add_right _ _).trans ((Sample.isDue_iff last s).mp due)
      have allDue : ∀ other ∈ rest, other.isDue last := fun other member =>
        Sample.isDue_of_spaced (later other member) early
      rw [List.filter_cons_of_neg (by rw [due]; exact Bool.false_ne_true),
        List.filter_cons_of_pos due, List.filter_eq_self.mpr allDue,
        List.filter_eq_nil_iff.mpr fun other member => by rw [allDue other member]; decide,
        List.nil_append]

/-- The threshold of the decimation rule is the last sample it accepted. -/
theorem lastAcceptedAfter_eq (last : Nat) (log : List (Sample Value)) :
    lastAcceptedAfter last log =
      ((acceptedAfter last log).getLast?.map fun s => s.tsNs.toNat).getD last := by
  induction log using List.reverseRecOn with
  | nil => rfl
  | append_singleton log s inductionHypothesis =>
    rw [acceptedAfter_concat, lastAcceptedAfter_concat]
    split
    · rw [List.getLast?_concat, Option.map_some, Option.getD_some]
    · exact inductionHypothesis

theorem lastAcceptedAfter_le {last bound : Nat} (initial : last ≤ bound)
    {log : List (Sample Value)} (early : ∀ s ∈ log, s.tsNs.toNat ≤ bound) :
    lastAcceptedAfter last log ≤ bound := by
  induction log generalizing last with
  | nil => exact initial
  | cons s rest inductionHypothesis =>
    have earlyRest := fun other member => early other (List.mem_cons_of_mem s member)
    rw [lastAcceptedAfter]
    split
    · exact inductionHypothesis (early s List.mem_cons_self) earlyRest
    · exact inductionHypothesis initial earlyRest

/-- A spaced stream that is due from its beginning is accepted whole. -/
theorem accepted_append_of_due {past stream : List (Sample Value)}
    (spaced : stream.Pairwise SlowSpaced)
    (due : ∀ s ∈ stream, lastAcceptedAfter 0 past + 950000000 ≤ s.tsNs.toNat) :
    accepted (past ++ stream) = accepted past ++ stream := by
  rw [accepted, acceptedAfter_append, acceptedAfter_of_spaced spaced, ← accepted]
  refine congrArg (accepted past ++ ·) (List.filter_eq_self.mpr fun s member => ?_)
  exact (Sample.isDue_iff _ s).mpr (due s member)

/-! ### The slow ring of a series -/

/-- The slow ring after a past and a spaced stream, whose last timestamp may be any. -/
theorem SeriesRing.slow_run [Zero Value] {past stream : List (Sample Value)}
    (bounded : ∀ s ∈ past, s.tsNs.toNat < tsBound) (spaced : stream.Pairwise SlowSpaced) :
    (run push (new : SeriesRing Value) (past ++ stream)).slow.read =
      (accepted (past ++ stream)).rtake slowCapacity := by
  cases stream using List.reverseRecOn with
  | nil =>
    rw [List.append_nil]
    exact (run_records past bounded).slow
  | append_singleton stream last =>
    have early : ∀ s ∈ stream, s.tsNs.toNat < tsBound := by
      intro s member
      have apart := (List.pairwise_append.mp spaced).2.2 s member last (List.mem_singleton_self _)
      have below := last.tsNs.toNat_lt
      unfold SlowSpaced at apart
      unfold tsBound
      omega
    rw [← List.append_assoc, run_concat]
    refine (run_records (past ++ stream) fun s member => ?_).slow_push last
    exact (List.mem_append.mp member).elim (bounded s) (early s)

/-- What readers see of a series is the slow ring after what was pushed to it. -/
theorem FastRing.slowTail_run [Zero Value] (ops : List (FastRingOp Value)) (now : UInt64)
    (key : SeriesKey) :
    (run FastRing.step FastRing.new (ops ++ [.publish now])).snapshot.slowTail key =
      (run SeriesRing.push SeriesRing.new (pushedTo key ops)).slow.read := by
  rw [run_concat, step, slowTail_publish, seriesRing_run]

/-! ### A fresh series -/

/-- From a fresh start only the first sample of a spaced stream can be lost. -/
theorem accepted_of_spaced {first : Sample Value} {rest : List (Sample Value)}
    (spaced : (first :: rest).Pairwise SlowSpaced) :
    accepted (first :: rest) =
      if 950000000 ≤ first.tsNs.toNat then first :: rest else rest := by
  have later := (List.pairwise_cons.mp spaced).1
  have restDue : rest.filter (Sample.isDue 0) = rest := List.filter_eq_self.mpr fun other member =>
    Sample.isDue_of_spaced (later other member) (Nat.zero_le _)
  have firstDue := Sample.isDue_iff 0 first
  rw [Nat.zero_add] at firstDue
  rw [accepted, acceptedAfter_of_spaced spaced, List.filter_cons, restDue]
  exact if_congr firstDue rfl rfl

/-- The slow tail of a fresh series that took a spaced stream is the tail of the stream exactly
when the stream starts at 950 ms or later, or is longer than the tail. -/
theorem slowTail_fresh_iff [Zero Value] (key : SeriesKey) (ops : List (FastRingOp Value))
    (now : UInt64) (spaced : (pushedTo key ops).IsChain SlowSpaced)
    (bounded : ∀ s ∈ pushedTo key ops, s.tsNs.toNat < tsBound) :
    (run FastRing.step FastRing.new (ops ++ [.publish now])).snapshot.slowTail key =
        (pushedTo key ops).rtake slowCapacity ↔
      (∀ first ∈ (pushedTo key ops).head?, 950000000 ≤ first.tsNs.toNat) ∨
        slowCapacity < (pushedTo key ops).length := by
  rw [FastRing.slowTail_run, (SeriesRing.run_records _ bounded).slow]
  have apart := spaced.pairwise
  cases stream : pushedTo key ops with
  | nil => exact iff_of_true rfl (.inl nofun)
  | cons first rest =>
    rw [stream] at apart
    rw [accepted_of_spaced apart, List.head?_cons, List.length_cons, Nat.lt_succ_iff]
    simp only [Option.mem_def, Option.some.injEq, forall_eq']
    by_cases late : 950000000 ≤ first.tsNs.toNat
    · rw [if_pos late]
      exact iff_of_true rfl (.inl late)
    · rw [if_neg late, or_iff_right late]
      refine ⟨fun same => ?_, fun long => (RingBuffer.rtake_cons_of_le first long).symm⟩
      by_contra short
      have lengths := congrArg List.length same
      rw [RingBuffer.rtake_of_length_le (by omega),
        RingBuffer.rtake_of_length_le (by rw [List.length_cons]; omega),
        List.length_cons] at lengths
      omega

/-- Samples of one series at whole seconds. -/
def everySecond (first count : Nat) : List (FastRingOp Nat) :=
  (List.range count).map fun i => .push ⟨0, 0, 42⟩ ⟨.ofNat ((first + i) * 1000000000), i⟩

/-- A stream that starts after a second is kept whole. -/
theorem slowTail_fresh_late :
    (run FastRing.step FastRing.new (everySecond 1 5 ++ [.publish 5])).snapshot.slowTail
        ⟨0, 0, 42⟩ = (pushedTo ⟨0, 0, 42⟩ (everySecond 1 5)).rtake slowCapacity :=
  (slowTail_fresh_iff ⟨0, 0, 42⟩ (everySecond 1 5) 5 (by decide) (by decide)).mpr (.inl (by decide))

/-- The slow tail of a stream that starts at zero lacks the first sample. -/
theorem exists_first_sample_lost :
    ¬ ∀ (key : SeriesKey) (ops : List (FastRingOp Nat)) (now : UInt64),
      (pushedTo key ops).IsChain SlowSpaced →
      (∀ s ∈ pushedTo key ops, s.tsNs.toNat < tsBound) →
      (run FastRing.step FastRing.new (ops ++ [.publish now])).snapshot.slowTail key =
        (pushedTo key ops).rtake slowCapacity := by
  intro whole
  have five := whole ⟨0, 0, 42⟩ (everySecond 0 5) 5 (by decide) (by decide)
  rw [FastRing.slowTail_run, (SeriesRing.run_records _ (by decide)).slow] at five
  exact absurd five (by decide)

/-! ### After any past -/

/-- The slow tail after any past and a spaced run that fills it is the tail of the run exactly
when the samples of that tail that are less than 950 ms later than the last one the slow ring
took, if any, are the newest ones that it already holds. -/
theorem slowTail_recovers_iff [Zero Value] (key : SeriesKey) (history ops : List (FastRingOp Value))
    (now : UInt64) (bounded : ∀ s ∈ pushedTo key history, s.tsNs.toNat < tsBound)
    (spaced : (pushedTo key ops).IsChain SlowSpaced)
    (long : slowCapacity < (pushedTo key ops).length) :
    let before := (run FastRing.step FastRing.new history).seriesRing key
    (run FastRing.step FastRing.new (history ++ ops ++ [.publish now])).snapshot.slowTail key =
        (pushedTo key ops).rtake slowCapacity ↔
      (((pushedTo key ops).rtake slowCapacity).filter fun s =>
        !s.isDue before.lastSlowNs.toNat) <:+ before.slow.read := by
  have apart := spaced.pairwise
  have records := SeriesRing.run_records (pushedTo key history) bounded
  rw [FastRing.slowTail_run, pushedTo_append, SeriesRing.slow_run bounded apart,
    FastRing.seriesRing_run]
  dsimp only
  rw [records.last, records.slow, accepted, acceptedAfter_append, acceptedAfter_of_spaced apart,
    ← accepted]
  generalize accepted (pushedTo key history) = held
  generalize lastAcceptedAfter 0 (pushedTo key history) = last
  have parts := filter_not_due_append apart last
  have allOld : ∀ s ∈ (pushedTo key ops).filter fun s => !s.isDue last, !s.isDue last :=
    fun s member => (List.mem_filter.mp member).2
  have noneOld : ∀ s ∈ (pushedTo key ops).filter (Sample.isDue last), ¬ !s.isDue last := by
    intro s member
    rw [(List.mem_filter.mp member).2]
    exact Bool.false_ne_true
  have agree := RingBuffer.rtake_append_eq_iff held (fun s => !s.isDue last) allOld noneOld
    (long.le.trans_eq (congrArg List.length parts.symm))
  rwa [parts] at agree

/-- A stream that goes on where the past has stopped fills the slow tail. -/
theorem slowTail_recovers_secondly :
    (run FastRing.step FastRing.new
        (everySecond 1 3 ++ everySecond 4 121 ++ [.publish 5])).snapshot.slowTail ⟨0, 0, 42⟩ =
      (pushedTo ⟨0, 0, 42⟩ (everySecond 4 121)).rtake slowCapacity := by
  refine (slowTail_recovers_iff ⟨0, 0, 42⟩ (everySecond 1 3) (everySecond 4 121) 5 (by decide)
    (by decide +kernel) (by decide +kernel)).mpr ?_
  decide +kernel

/-- After one sample of a far future the slow tail takes nothing of two minutes. -/
theorem exists_wedged_slowTail :
    ¬ ∀ (key : SeriesKey) (history ops : List (FastRingOp Nat)) (now : UInt64),
      (∀ s ∈ pushedTo key history, s.tsNs.toNat < tsBound) →
      (pushedTo key ops).IsChain SlowSpaced →
      slowCapacity < (pushedTo key ops).length →
      (run FastRing.step FastRing.new (history ++ ops ++ [.publish now])).snapshot.slowTail key =
        (pushedTo key ops).rtake slowCapacity := by
  intro recovers
  have wedged := recovers ⟨0, 0, 42⟩ (everySecond 1000000000 1) (everySecond 1 121) 5 (by decide)
    (by decide +kernel) (by decide +kernel)
  rw [FastRing.slowTail_run, (SeriesRing.run_records _ (by decide +kernel)).slow] at wedged
  exact absurd wedged (by decide +kernel)

end PerfWeave
