/-
This file settles what the totals of an acknowledgement say about the events of its stream. The
loop counts the events of a batch before it splits them between the two planes, and adds the
whole count to one of its totals by the answer of the sink alone. So an accepted batch hides the
METRIC events without a reading, which go nowhere, and a refused one counts the readings as
dropped that are in the fast ring already.
-/

import PerfWeave.Server.IngestStream
import PerfWeave.Server.MetricPlane

namespace PerfWeave

variable {Value : Type}

/-! ### Where an event goes -/

/-- Whether an event reaches the fast ring: a METRIC event with a reading. -/
def Event.isReading (e : Event Value) : Bool :=
  match e.payload with
  | some (.metric _) => e.category = Category.metric.asI32
  | _ => false

namespace Arrival

/-- Whether an event of the batch reaches the fast ring or the sink. -/
def reaches (arrival : Arrival Value) (e : Event Value) : Bool :=
  e.isReading || (e.isPersisted && arrival.outcome = .accepted)

/-- How many events of the batch reach neither. -/
def lost (arrival : Arrival Value) : Nat :=
  arrival.batch.events.countP fun e => !arrival.reaches e

/-- How many events the batch adds to the total of the accepted ones. -/
def acceptedRows (arrival : Arrival Value) : Nat :=
  if arrival.outcome = .accepted then arrival.batch.events.length else 0

/-- How many events the batch adds to the total of the dropped ones. -/
def droppedRows (arrival : Arrival Value) : Nat :=
  if arrival.outcome = .full then arrival.batch.events.length else 0

/-- A batch the sink takes has a reading in each of its METRIC events, and one it refuses has no
METRIC event with a reading. -/
def Clean (arrival : Arrival Value) : Prop :=
  match arrival.outcome with
  | .accepted => ∀ e ∈ arrival.batch.events, e.isReading || e.isPersisted
  | .full => ∀ e ∈ arrival.batch.events, !e.isReading

/-- The batch adds as many events to the dropped ones as it loses exactly when it is clean. -/
theorem droppedRows_eq_lost_iff (arrival : Arrival Value) :
    arrival.droppedRows = arrival.lost ↔ arrival.Clean := by
  unfold droppedRows lost reaches Clean
  cases arrival.outcome with
  | accepted =>
    rw [if_neg nofun, eq_comm, List.countP_eq_zero]
    simp only [decide_true, Bool.and_true, Bool.not_eq_true', Bool.not_eq_false]
  | full =>
    rw [if_pos rfl, eq_comm, List.countP_eq_length]
    simp only [reduceCtorEq, decide_false, Bool.and_false, Bool.or_false]

theorem fast_step [Zero Value] (arrival : Arrival Value) (state : IngestStream Value) :
    let table := absorbOffsets arrival.clock state.skew arrival.batch.offsets
    (state.step arrival).fast =
      run FastRing.step (arrival.batch.metricFrames.foldl (absorbFrame table) state.fast)
        (arrival.batch.events.filterMap (metricPush table)) := by
  refine Eq.trans ?_ (foldl_splitEvent_fast arrival.clock _ ⟨_, [], []⟩ _)
  unfold IngestStream.step
  cases arrival.outcome <;> rfl

end Arrival

/-! ### The totals over a stream -/

/-- A count over all the batches that arrived. -/
def tally (count : Arrival Value → Nat) (arrivals : List (Arrival Value)) : Nat :=
  (arrivals.map count).sum

theorem tally_concat (count : Arrival Value → Nat) (arrivals : List (Arrival Value))
    (last : Arrival Value) :
    tally count (arrivals ++ [last]) = tally count arrivals + count last := by
  unfold tally
  rw [List.map_append, List.sum_append, List.map_singleton, List.sum_singleton]

theorem tally_le_of_prefix (count : Arrival Value → Nat) {part arrivals : List (Arrival Value)}
    (isPrefix : part <+: arrivals) : tally count part ≤ tally count arrivals := by
  obtain ⟨rest, rfl⟩ := isPrefix
  unfold tally
  rw [List.map_append, List.sum_append]
  exact Nat.le_add_right _ _

/-- A count that does not overflow does not decrease from one batch to the next. -/
theorem pairwise_ofNat_tally (count : Arrival Value → Nat) {arrivals : List (Arrival Value)}
    (bounded : tally count arrivals < 2 ^ 64) :
    (List.range arrivals.length).Pairwise fun first second =>
      UInt64.ofNat (tally count (arrivals.take (first + 1))) ≤
        UInt64.ofNat (tally count (arrivals.take (second + 1))) := by
  refine List.pairwise_lt_range.imp fun {first second} earlier => ?_
  have shorter := tally_le_of_prefix count
    (@List.take_prefix_take_left _ arrivals _ _ (Nat.add_le_add_right earlier.le 1))
  have within := tally_le_of_prefix count (List.take_prefix (second + 1) arrivals)
  rw [UInt64.le_iff_toNat_le, UInt64.toNat_ofNat', UInt64.toNat_ofNat',
    Nat.mod_eq_of_lt (by omega), Nat.mod_eq_of_lt (by omega)]
  exact shorter

/-- Every event that arrives is counted in one of the two totals. -/
theorem tally_acceptedRows_add_droppedRows (arrivals : List (Arrival Value)) :
    tally Arrival.acceptedRows arrivals + tally Arrival.droppedRows arrivals =
      tally (fun arrival => arrival.batch.events.length) arrivals := by
  induction arrivals using List.reverseRecOn with
  | nil => rfl
  | append_singleton arrivals last inductionHypothesis =>
    rw [tally_concat, tally_concat, tally_concat, ← inductionHypothesis]
    unfold Arrival.acceptedRows Arrival.droppedRows
    cases last.outcome <;> simp only [reduceCtorEq, if_true, if_false] <;> omega

/-- The acknowledgement that is due after the given batches. -/
def ackAfter (arrivals : List (Arrival Value)) : Ack where
  accepted := UInt64.ofNat (tally Arrival.acceptedRows arrivals)
  dropped := UInt64.ofNat (tally Arrival.droppedRows arrivals)

namespace IngestStream

/-- The loop over one more batch: its totals are those due, and it acknowledges them. -/
theorem acks_step [Zero Value] {state : IngestStream Value} {before : List (Arrival Value)}
    (totals : (⟨state.accepted, state.dropped⟩ : Ack) = ackAfter before)
    (arrival : Arrival Value) :
    (⟨(state.step arrival).accepted, (state.step arrival).dropped⟩ : Ack) =
        ackAfter (before ++ [arrival]) ∧
      (state.step arrival).acks = state.acks ++ [ackAfter (before ++ [arrival])] := by
  obtain ⟨accepted, dropped⟩ := Ack.mk.inj totals
  unfold ackAfter
  rw [tally_concat, tally_concat, UInt64.ofNat_add, UInt64.ofNat_add, ← accepted, ← dropped]
  unfold step Arrival.acceptedRows Arrival.droppedRows
  cases arrival.outcome with
  | accepted => simp
  | full => simp

/-- The acknowledgements of a run are those due after each of its batches. -/
theorem acks_run [Zero Value] (skew : SkewTable) (fast : FastRing Value)
    (arrivals : List (Arrival Value)) :
    let final := run step (start skew fast) arrivals
    (⟨final.accepted, final.dropped⟩ : Ack) = ackAfter arrivals ∧
      final.acks = (List.range arrivals.length).map fun index =>
        ackAfter (arrivals.take (index + 1)) := by
  induction arrivals using List.reverseRecOn with
  | nil => exact ⟨rfl, rfl⟩
  | append_singleton before last inductionHypothesis =>
    obtain ⟨totals, acks⟩ := inductionHypothesis
    rw [run_concat]
    refine ⟨(acks_step totals last).1, ?_⟩
    rw [(acks_step totals last).2, acks, List.length_append, List.length_singleton,
      List.range_succ, List.map_append, List.map_singleton]
    congr 1
    · refine List.map_congr_left fun index inRange => ?_
      rw [List.take_append_of_le_length (List.mem_range.mp inRange)]
    · rw [List.take_of_length_le (by rw [List.length_append, List.length_singleton])]

end IngestStream

/-! ### When the totals are exact -/

/-- What the acknowledgements of a stream are to say: there is one for each batch, their totals do
not decrease, and after each batch they add up to the events received, the dropped ones being
those that reached neither the fast ring nor the sink. -/
structure AccountsExactly (arrivals : List (Arrival Value)) (acks : List Ack) : Prop where
  length : acks.length = arrivals.length
  accepted_mono : (acks.map Ack.accepted).Pairwise (· ≤ ·)
  dropped_mono : (acks.map Ack.dropped).Pairwise (· ≤ ·)
  received : ∀ index ack, acks[index]? = some ack → ack.accepted.toNat + ack.dropped.toNat =
    tally (fun arrival => arrival.batch.events.length) (arrivals.take (index + 1))
  lost : ∀ index ack, acks[index]? = some ack →
    ack.dropped.toNat = tally Arrival.lost (arrivals.take (index + 1))

/-- The acknowledgement due after the given batches adds up to the events received and counts
those that were lost. -/
def ExactAfter (arrivals : List (Arrival Value)) : Prop :=
  (ackAfter arrivals).accepted.toNat + (ackAfter arrivals).dropped.toNat =
      tally (fun arrival => arrival.batch.events.length) arrivals ∧
    (ackAfter arrivals).dropped.toNat = tally Arrival.lost arrivals

theorem exactAfter_iff (arrivals : List (Arrival Value)) :
    ExactAfter arrivals ↔ tally Arrival.acceptedRows arrivals < 2 ^ 64 ∧
      tally Arrival.droppedRows arrivals < 2 ^ 64 ∧
      tally Arrival.droppedRows arrivals = tally Arrival.lost arrivals := by
  unfold ExactAfter ackAfter
  rw [UInt64.toNat_ofNat', UInt64.toNat_ofNat', ← tally_acceptedRows_add_droppedRows]
  generalize tally Arrival.acceptedRows arrivals = accepted
  generalize tally Arrival.droppedRows arrivals = dropped
  omega

/-- Every acknowledgement of a stream is exact when all its batches are clean and neither total
overflows, and only then. -/
theorem forall_exactAfter_iff (arrivals : List (Arrival Value)) :
    (∀ part, part <+: arrivals → ExactAfter part) ↔
      (∀ arrival ∈ arrivals, arrival.Clean) ∧
        tally Arrival.acceptedRows arrivals < 2 ^ 64 ∧
        tally Arrival.droppedRows arrivals < 2 ^ 64 := by
  induction arrivals using List.reverseRecOn with
  | nil =>
    refine iff_of_true (fun part isPrefix => ?_) ⟨List.forall_mem_nil _, Nat.two_pow_pos 64,
      Nat.two_pow_pos 64⟩
    rw [List.prefix_nil.mp isPrefix, exactAfter_iff]
    exact ⟨Nat.two_pow_pos 64, Nat.two_pow_pos 64, rfl⟩
  | append_singleton before last inductionHypothesis =>
    have parts : (∀ part, part <+: before ++ [last] → ExactAfter part) ↔
        (∀ part, part <+: before → ExactAfter part) ∧ ExactAfter (before ++ [last]) := by
      simp only [List.prefix_concat_iff, or_imp, forall_and, forall_eq]
      exact and_comm
    rw [parts, exactAfter_iff, List.forall_mem_append, List.forall_mem_singleton, tally_concat,
      tally_concat, tally_concat, ← Arrival.droppedRows_eq_lost_iff]
    constructor
    · rintro ⟨exact, accepted, dropped, lost⟩
      have lostBefore := ((exactAfter_iff before).mp (exact before List.prefix_rfl)).2.2
      exact ⟨⟨(inductionHypothesis.mp exact).1, by omega⟩, accepted, dropped⟩
    · rintro ⟨⟨clean, lost⟩, accepted, dropped⟩
      have exact := inductionHypothesis.mpr ⟨clean, by omega, by omega⟩
      have lostBefore := ((exactAfter_iff before).mp (exact before List.prefix_rfl)).2.2
      exact ⟨exact, accepted, dropped, by omega⟩

/-- The acknowledgement of each batch of a stream. -/
theorem getElem?_acks_eq_some_iff [Zero Value] (skew : SkewTable) (fast : FastRing Value)
    (arrivals : List (Arrival Value)) (index : Nat) (ack : Ack) :
    (run IngestStream.step (.start skew fast) arrivals).acks[index]? = some ack ↔
      index < arrivals.length ∧ ackAfter (arrivals.take (index + 1)) = ack := by
  rw [(IngestStream.acks_run skew fast arrivals).2, List.getElem?_map]
  by_cases inRange : index < arrivals.length
  · rw [List.getElem?_range inRange, Option.map_some, Option.some.injEq, and_iff_right inRange]
  · rw [List.getElem?_eq_none (by rw [List.length_range]; exact Nat.le_of_not_lt inRange)]
    exact iff_of_false nofun fun both => inRange both.1

/-- The totals of the acknowledgements of any stream do not decrease, add up to the events
received and count the events that reached neither plane exactly when every batch is clean and
neither total overflows. -/
theorem acks_accountExactly_iff [Zero Value] (skew : SkewTable) (fast : FastRing Value)
    (arrivals : List (Arrival Value)) :
    AccountsExactly arrivals (run IngestStream.step (.start skew fast) arrivals).acks ↔
      (∀ arrival ∈ arrivals, arrival.Clean) ∧
        tally Arrival.acceptedRows arrivals < 2 ^ 64 ∧
        tally Arrival.droppedRows arrivals < 2 ^ 64 := by
  rw [← forall_exactAfter_iff]
  constructor
  · intro exact part isPrefix
    rw [List.prefix_iff_eq_take.mp isPrefix]
    cases counted : part.length with
    | zero =>
      rw [List.take_zero, exactAfter_iff]
      exact ⟨Nat.two_pow_pos 64, Nat.two_pow_pos 64, rfl⟩
    | succ index =>
      have inRange : index < arrivals.length := by
        have bounded := isPrefix.length_le
        omega
      have acknowledged := (getElem?_acks_eq_some_iff skew fast arrivals index _).mpr ⟨inRange, rfl⟩
      exact ⟨exact.received index _ acknowledged, exact.lost index _ acknowledged⟩
  · intro exact
    have bound := (exactAfter_iff arrivals).mp (exact arrivals List.prefix_rfl)
    refine ⟨?_, ?_, ?_, ?_, ?_⟩
    · rw [(IngestStream.acks_run skew fast arrivals).2, List.length_map, List.length_range]
    · rw [(IngestStream.acks_run skew fast arrivals).2, List.map_map, List.pairwise_map]
      exact pairwise_ofNat_tally _ bound.1
    · rw [(IngestStream.acks_run skew fast arrivals).2, List.map_map, List.pairwise_map]
      exact pairwise_ofNat_tally _ bound.2.1
    · intro index ack acknowledged
      obtain ⟨_, rfl⟩ := (getElem?_acks_eq_some_iff skew fast arrivals index ack).mp acknowledged
      exact (exact _ (List.take_prefix _ _)).1
    · intro index ack acknowledged
      obtain ⟨_, rfl⟩ := (getElem?_acks_eq_some_iff skew fast arrivals index ack).mp acknowledged
      exact (exact _ (List.take_prefix _ _)).2

/-- A METRIC event with a reading in a batch that a full sink refuses. -/
def refusedReading : Arrival Nat where
  batch := eventBatch (readingEvent Category.metric.asI32)
  clock := fun _ => 0
  outcome := .full

/-- The reading is counted as dropped, and the fast ring has it. -/
theorem exists_acks_not_accountExactly :
    ¬ ∀ arrivals : List (Arrival Nat), tally (fun a => a.batch.events.length) arrivals < 2 ^ 64 →
      AccountsExactly arrivals (run IngestStream.step (.start .new .new) arrivals).acks := by
  intro accounts
  have exact := accounts [refusedReading] (by decide)
  have lost := exact.lost 0 ⟨0, 1⟩ rfl
  exact absurd lost (by decide)

end PerfWeave
