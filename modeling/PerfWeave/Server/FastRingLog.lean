/-
This file proves that the FastRing is a log per series. The abstract model keeps, for every
series, the samples pushed to it in order; its snapshot is the tail of that log and the tail
of the part of it that the decimation rule accepts. The two circular buffers, their separate
wrap-around and the hidden decimation timestamp are an implementation of it: the invariant
`SeriesRing.Records` relates a ring to the log of its series, every push keeps it, and a
publish reads the log's snapshot out of it.
-/

import PerfWeave.Server.FastRing

namespace PerfWeave

variable {Value : Type}

/-! ### The log of a series -/

/-- The second sample is at least 950 ms later than the first. -/
def SlowSpaced (first second : Sample Value) : Prop :=
  first.tsNs.toNat + 950000000 ≤ second.tsNs.toNat

/-- The decimation rule over exact numbers: a sample is accepted when it is at least 950 ms
later than the last accepted one. -/
def acceptedAfter (last : Nat) : List (Sample Value) → List (Sample Value)
  | [] => []
  | s :: rest =>
    if last + 950000000 ≤ s.tsNs.toNat then s :: acceptedAfter s.tsNs.toNat rest
    else acceptedAfter last rest

/-- The timestamp the rule compares with after a log. -/
def lastAcceptedAfter (last : Nat) : List (Sample Value) → Nat
  | [] => last
  | s :: rest =>
    if last + 950000000 ≤ s.tsNs.toNat then lastAcceptedAfter s.tsNs.toNat rest
    else lastAcceptedAfter last rest

/-- The samples of a log the slow tail draws from. -/
def accepted (log : List (Sample Value)) : List (Sample Value) := acceptedAfter 0 log

/-- The snapshot of a log: none of the empty one, else the two tails. -/
def logSnapshot : List (Sample Value) → Option (SeriesSnapshot Value)
  | [] => none
  | s :: rest => some {
      slow := (accepted (s :: rest)).rtake slowCapacity
      fast := (s :: rest).rtake fastCapacity }

/-- The samples that operations push to one series, in order. -/
def pushedTo (key : SeriesKey) (ops : List (FastRingOp Value)) : List (Sample Value) :=
  ops.filterMap fun
    | .push other s => if other = key then some s else none
    | .publish _ => none

theorem acceptedAfter_concat (last : Nat) (log : List (Sample Value)) (s : Sample Value) :
    acceptedAfter last (log ++ [s]) =
      if lastAcceptedAfter last log + 950000000 ≤ s.tsNs.toNat then acceptedAfter last log ++ [s]
      else acceptedAfter last log := by
  induction log generalizing last with
  | nil => rfl
  | cons first rest inductionHypothesis =>
    simp only [List.cons_append, acceptedAfter, lastAcceptedAfter]
    split
    · rw [inductionHypothesis]
      split <;> rfl
    · rw [inductionHypothesis]

theorem lastAcceptedAfter_concat (last : Nat) (log : List (Sample Value)) (s : Sample Value) :
    lastAcceptedAfter last (log ++ [s]) =
      if lastAcceptedAfter last log + 950000000 ≤ s.tsNs.toNat then s.tsNs.toNat
      else lastAcceptedAfter last log := by
  induction log generalizing last with
  | nil => rfl
  | cons first rest inductionHypothesis =>
    simp only [List.cons_append, lastAcceptedAfter]
    split <;> rw [inductionHypothesis]

/-- Accepted samples follow the last accepted one and each other at 950 ms or more. -/
theorem acceptedAfter_spaced (last : Nat) (log : List (Sample Value)) :
    (∀ s ∈ acceptedAfter last log, last + 950000000 ≤ s.tsNs.toNat) ∧
      (acceptedAfter last log).Pairwise SlowSpaced := by
  induction log generalizing last with
  | nil => exact ⟨fun _ member => absurd member List.not_mem_nil, List.Pairwise.nil⟩
  | cons s rest inductionHypothesis =>
    unfold acceptedAfter
    split
    · rename_i late
      obtain ⟨later, spaced⟩ := inductionHypothesis s.tsNs.toNat
      refine ⟨fun other member => ?_, List.Pairwise.cons later spaced⟩
      rcases List.mem_cons.mp member with rfl | inRest
      · exact late
      · have follows := later other inRest
        omega
    · exact inductionHypothesis last

theorem pushedTo_concat_push (key other : SeriesKey) (ops : List (FastRingOp Value))
    (s : Sample Value) :
    pushedTo key (ops ++ [.push other s]) =
      if other = key then pushedTo key ops ++ [s] else pushedTo key ops := by
  unfold pushedTo
  rw [List.filterMap_append]
  split <;> rename_i same <;> simp [same]

theorem pushedTo_concat_publish (key : SeriesKey) (ops : List (FastRingOp Value)) (now : UInt64) :
    pushedTo key (ops ++ [.publish now]) = pushedTo key ops := by
  unfold pushedTo
  rw [List.filterMap_append]
  exact List.append_nil _

theorem pushedTo_map_push (key : SeriesKey) (log : List (Sample Value)) :
    pushedTo key (log.map (.push key)) = log := by
  unfold pushedTo
  rw [List.filterMap_map]
  exact (List.filterMap_congr fun s _ => if_pos rfl).trans List.filterMap_some

/-! ### A series ring records its log -/

/-- The latest timestamp whose decimation threshold is still a 64-bit word, plus one. -/
def tsBound : Nat := 2 ^ 64 - 950000000

/-- A ring holds the tails of a log and remembers the log's last accepted timestamp. -/
structure SeriesRing.Records (ring : SeriesRing Value) (log : List (Sample Value)) : Prop where
  fast : ring.fast.read = log.rtake fastCapacity
  slow : ring.slow.read = (accepted log).rtake slowCapacity
  last : ring.lastSlowNs.toNat = lastAcceptedAfter 0 log
  lastBound : ring.lastSlowNs.toNat < tsBound

theorem SeriesRing.new_records [Zero Value] : (SeriesRing.new : SeriesRing Value).Records [] where
  fast := RingBuffer.read_empty _ _ _
  slow := RingBuffer.read_empty _ _ _
  last := rfl
  lastBound := show (0 : UInt64).toNat < tsBound by decide

/-- Below the bound the wrapping comparison of the source is the exact one. -/
theorem SeriesRing.accepts_iff {ring : SeriesRing Value}
    (lastBound : ring.lastSlowNs.toNat < tsBound) (s : Sample Value) :
    s.tsNs ≥ ring.lastSlowNs + 950000000 ↔
      ring.lastSlowNs.toNat + 950000000 ≤ s.tsNs.toNat := by
  unfold tsBound at lastBound
  have sum : (ring.lastSlowNs + 950000000).toNat = ring.lastSlowNs.toNat + 950000000 := by
    rw [UInt64.toNat_add]
    exact Nat.mod_eq_of_lt (by simp; omega)
  rw [ge_iff_le, UInt64.le_iff_toNat_le, sum]

/-- A ring that records a log takes a sample as the decimation rule accepts it. -/
theorem SeriesRing.Records.accepts_iff {ring : SeriesRing Value} {log : List (Sample Value)}
    (records : ring.Records log) (s : Sample Value) :
    s.tsNs ≥ ring.lastSlowNs + 950000000 ↔
      lastAcceptedAfter 0 log + 950000000 ≤ s.tsNs.toNat := by
  rw [← records.last]
  exact SeriesRing.accepts_iff records.lastBound s

/-- Every push keeps the slow ring's record, whatever its timestamp. -/
theorem SeriesRing.Records.slow_push {ring : SeriesRing Value} {log : List (Sample Value)}
    (records : ring.Records log) (s : Sample Value) :
    (ring.push s).slow.read = (accepted (log ++ [s])).rtake slowCapacity := by
  have acceptedLog := acceptedAfter_concat 0 log s
  unfold accepted
  rw [push_slow]
  by_cases takes : s.tsNs ≥ ring.lastSlowNs + 950000000
  · rw [if_pos takes, acceptedLog, if_pos ((records.accepts_iff s).mp takes)]
    exact RingBuffer.read_push_of_read records.slow s
  · rw [if_neg takes, acceptedLog, if_neg (mt (records.accepts_iff s).mpr takes)]
    exact records.slow

/-- Every push keeps the record. -/
theorem SeriesRing.Records.push {ring : SeriesRing Value} {log : List (Sample Value)}
    (records : ring.Records log) {s : Sample Value} (bounded : s.tsNs.toNat < tsBound) :
    (ring.push s).Records (log ++ [s]) := by
  refine ⟨?_, records.slow_push s, ?_, ?_⟩
  · rw [push_fast]
    exact RingBuffer.read_push_of_read records.fast s
  · rw [push_lastSlowNs, lastAcceptedAfter_concat, apply_ite UInt64.toNat, records.last]
    exact if_congr (records.accepts_iff s) rfl rfl
  · rw [push_lastSlowNs, apply_ite UInt64.toNat]
    split
    · exact bounded
    · exact records.lastBound

theorem SeriesRing.run_records [Zero Value] (log : List (Sample Value))
    (bounded : ∀ s ∈ log, s.tsNs.toNat < tsBound) :
    (run push (new : SeriesRing Value) log).Records log := by
  refine run_induction (motive := fun log (ring : SeriesRing Value) =>
    (∀ s ∈ log, s.tsNs.toNat < tsBound) → ring.Records log) (fun _ => new_records) ?_ log bounded
  intro log s inductionHypothesis bounded
  have before := inductionHypothesis fun other member =>
    bounded other (List.mem_append_left _ member)
  exact before.push (bounded s (List.mem_append_right _ (List.mem_singleton_self s)))

/-! ### The ring of one series -/

/-- The ring that a push to a series goes to. -/
def FastRing.seriesRing [Zero Value] (ring : FastRing Value) (key : SeriesKey) :
    SeriesRing Value :=
  (ring.writer key).getD SeriesRing.new

/-- The writer has a series from its first push on, and its ring has taken what was pushed. -/
theorem FastRing.writer_run [Zero Value] (ops : List (FastRingOp Value)) (key : SeriesKey) :
    (run FastRing.step FastRing.new ops).writer key =
      if pushedTo key ops = [] then none
      else some (run SeriesRing.push SeriesRing.new (pushedTo key ops)) := by
  refine run_induction (motive := fun ops (ring : FastRing Value) => ring.writer key =
    if pushedTo key ops = [] then none
    else some (run SeriesRing.push SeriesRing.new (pushedTo key ops))) rfl ?_ ops
  intro ops op inductionHypothesis
  cases op with
  | push other s =>
    rw [step, pushedTo_concat_push]
    split
    · rename_i same
      rw [same, push_writer_self, inductionHypothesis, run_concat,
        if_neg (List.append_ne_nil_of_right_ne_nil _ (List.cons_ne_nil s []))]
      split
      · rename_i none
        rw [none, Option.getD_none, run_nil]
      · rw [Option.getD_some]
    · rename_i differs
      rw [push_writer_of_ne _ (Ne.symm differs), inductionHypothesis]
  | publish now =>
    rw [pushedTo_concat_publish]
    exact inductionHypothesis

/-- A publish shows the series that something was pushed to. -/
theorem FastRing.series_publish [Zero Value] (ops : List (FastRingOp Value)) (now : UInt64)
    (k : SeriesKey) :
    (run FastRing.step FastRing.new (ops ++ [.publish now])).snapshot.series k =
      if pushedTo k ops = [] then none
      else some (run SeriesRing.push SeriesRing.new (pushedTo k ops)).snapshot := by
  rw [run_concat, step, publish]
  dsimp only
  rw [writer_run, apply_ite (Option.map SeriesRing.snapshot), Option.map_none, Option.map_some]

theorem FastRing.seriesRing_run [Zero Value] (ops : List (FastRingOp Value)) (key : SeriesKey) :
    (run FastRing.step FastRing.new ops).seriesRing key =
      run SeriesRing.push SeriesRing.new (pushedTo key ops) := by
  rw [seriesRing, writer_run]
  split
  · rename_i none
    rw [none, Option.getD_none, run_nil]
  · rw [Option.getD_some]

/-- The fast ring takes every sample, whatever its timestamp. -/
theorem SeriesRing.fast_run [Zero Value] (log : List (Sample Value)) :
    (run push (new : SeriesRing Value) log).fast.read = log.rtake fastCapacity := by
  refine run_induction (motive := fun log (ring : SeriesRing Value) =>
    ring.fast.read = log.rtake fastCapacity) (RingBuffer.read_empty _ _ _) ?_ log
  intro log s inductionHypothesis
  rw [push_fast]
  exact RingBuffer.read_push_of_read inductionHypothesis s

/-! ### The ring refines the logs -/

/-- The writer holds exactly the pushed series, each recording its log. -/
def FastRing.Refines (ring : FastRing Value) (logs : SeriesKey → List (Sample Value)) : Prop :=
  ∀ key, match ring.writer key with
    | none => logs key = []
    | some series => logs key ≠ [] ∧ series.Records (logs key)

theorem FastRing.Refines.push [Zero Value] {ring : FastRing Value}
    {logs : SeriesKey → List (Sample Value)} (refines : ring.Refines logs) (key : SeriesKey)
    {s : Sample Value} (bounded : s.tsNs.toNat < tsBound) :
    (ring.push key s).Refines fun other =>
      if key = other then logs other ++ [s] else logs other := by
  intro other
  have here := refines other
  by_cases same : key = other
  · subst same
    unfold FastRing.push
    simp only [Function.update_self, if_true]
    refine ⟨List.append_ne_nil_of_right_ne_nil _ (List.cons_ne_nil _ _), ?_⟩
    split at here
    · rename_i absent
      rw [absent, here]
      exact SeriesRing.new_records.push bounded
    · rename_i series present
      rw [present]
      exact here.2.push bounded
  · unfold FastRing.push
    simp only [Function.update_of_ne (Ne.symm same), if_neg same]
    exact here

/-- The rings after any operations refine the logs of what was pushed. -/
theorem FastRing.run_refines [Zero Value] (ops : List (FastRingOp Value))
    (bounded : ∀ key s, .push key s ∈ ops → s.tsNs.toNat < tsBound) :
    (run FastRing.step FastRing.new ops).Refines fun key => pushedTo key ops := by
  refine run_induction (motive := fun ops (ring : FastRing Value) =>
    (∀ key s, .push key s ∈ ops → s.tsNs.toNat < tsBound) →
      ring.Refines fun key => pushedTo key ops) (fun _ _ => rfl) ?_ ops bounded
  intro ops op inductionHypothesis bounded
  have before := inductionHypothesis fun key s member =>
    bounded key s (List.mem_append_left _ member)
  cases op with
  | push key s =>
    simp only [pushedTo_concat_push]
    exact before.push key (bounded key s (List.mem_append_right _ List.mem_cons_self))
  | publish now =>
    simp only [pushedTo_concat_publish]
    exact before

/-- A publish shows readers the snapshot of every log. -/
theorem FastRing.Refines.publish {ring : FastRing Value}
    {logs : SeriesKey → List (Sample Value)} (refines : ring.Refines logs) (now : UInt64) :
    (ring.publish now).snapshot = ⟨fun key => logSnapshot (logs key), now⟩ := by
  unfold FastRing.publish
  simp only [FastRingSnapshot.mk.injEq, and_true]
  funext key
  have here := refines key
  split at here
  · rename_i absent
    rw [absent, here]
    rfl
  · rename_i series present
    rw [present, Option.map_some, SeriesRing.snapshot, here.2.slow, here.2.fast]
    cases nonempty : logs key with
    | nil => exact absurd nonempty here.1
    | cons s rest => rfl

/-- Pushes are invisible to readers. -/
theorem FastRing.run_pushes_snapshot [Zero Value] (ring : FastRing Value)
    (ops : List (FastRingOp Value)) (pushes : ∀ op ∈ ops, ∃ key s, op = .push key s) :
    (run FastRing.step ring ops).snapshot = ring.snapshot := by
  refine run_invariant (motive := fun state : FastRing Value => state.snapshot = ring.snapshot)
    rfl ?_ ops pushes
  rintro state op ⟨key, s, rfl⟩ same
  rw [FastRing.step, FastRing.push_snapshot, same]

/-- The samples of a log snapshot's slow tail are at least 950 ms apart. -/
theorem logSnapshot_slow_spaced {log : List (Sample Value)} {snapshot : SeriesSnapshot Value}
    (isSnapshot : logSnapshot log = some snapshot) :
    snapshot.slow.Pairwise SlowSpaced := by
  cases log with
  | nil => cases isSnapshot
  | cons s rest =>
    rw [logSnapshot, Option.some.injEq] at isSnapshot
    subst isSnapshot
    dsimp only
    exact (acceptedAfter_spaced 0 (s :: rest)).2.sublist (RingBuffer.rtake_sublist _ _)

/-- The FastRing refines a log per series: after any operations that end in a publish and
further pushes, readers see for every series the snapshot of the samples pushed to it before
the publish, with the slow tail at least 950 ms apart. -/
theorem fastRing_refines_log [Zero Value] (before after : List (FastRingOp Value)) (now : UInt64)
    (pushes : ∀ op ∈ after, ∃ key s, op = .push key s)
    (bounded : ∀ key s, .push key s ∈ before → s.tsNs.toNat < tsBound) :
    (run FastRing.step FastRing.new (before ++ .publish now :: after)).snapshot =
        ⟨fun key => logSnapshot (pushedTo key before), now⟩ ∧
      ∀ key tails,
        (run FastRing.step FastRing.new (before ++ .publish now :: after)).snapshot.series key =
          some tails →
        tails.slow.Pairwise SlowSpaced := by
  have published : (run FastRing.step FastRing.new (before ++ .publish now :: after)).snapshot =
      ⟨fun key => logSnapshot (pushedTo key before), now⟩ := by
    rw [run_append, run_cons, FastRing.run_pushes_snapshot _ _ pushes]
    show ((run FastRing.step FastRing.new before).publish now).snapshot = _
    exact (FastRing.run_refines before bounded).publish now
  refine ⟨published, fun key tails isTails => ?_⟩
  rw [published] at isTails
  exact logSnapshot_slow_spaced isTails

/-- Three samples of one series and one of another, published before the last push. -/
theorem fastRing_refines_log_example :
    (run FastRing.step (FastRing.new : FastRing Nat)
      ([.push ⟨0, 0, 42⟩ ⟨1000000000, 7⟩, .push ⟨0, 1, 42⟩ ⟨1000000000, 8⟩,
          .push ⟨0, 0, 42⟩ ⟨1500000000, 9⟩] ++
        .publish 5 :: [.push ⟨0, 0, 42⟩ ⟨3000000000, 10⟩])).snapshot.series ⟨0, 0, 42⟩ =
      some { slow := [⟨1000000000, 7⟩], fast := [⟨1000000000, 7⟩, ⟨1500000000, 9⟩] } := by
  have published := (@fastRing_refines_log Nat _
    [.push ⟨0, 0, 42⟩ ⟨1000000000, 7⟩, .push ⟨0, 1, 42⟩ ⟨1000000000, 8⟩,
      .push ⟨0, 0, 42⟩ ⟨1500000000, 9⟩] [.push ⟨0, 0, 42⟩ ⟨3000000000, 10⟩] 5
    (by
      intro op member
      rw [List.mem_singleton.mp member]
      exact ⟨_, _, rfl⟩)
    (by
      intro key s member
      simp only [List.mem_cons, FastRingOp.push.injEq, List.not_mem_nil, or_false] at member
      rcases member with ⟨_, rfl⟩ | ⟨_, rfl⟩ | ⟨_, rfl⟩ <;> decide)).1
  rw [published]
  decide +kernel

end PerfWeave
