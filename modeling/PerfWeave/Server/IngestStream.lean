/-
This file models the loop of an ingest stream of `perfweave-server/src/ingest/grpc.rs`: every
batch of a connection is absorbed into the shared state and offered to the sink, which takes it
or, when its queue is full, lets it go as a whole; the acknowledgement after it carries the two
running totals and nothing else. A closed sink and a failed stream end the loop, so such a run
is one over fewer batches.
-/

import PerfWeave.Library.Run
import PerfWeave.Server.Ingest

namespace PerfWeave

variable {Value : Type}

/-- How the sink's queue answers `try_push` while it is open. -/
inductive SinkOutcome where
  | accepted
  | full
  deriving DecidableEq

/-- A batch as it arrives, with the host times its processing reads and the answer of the
sink. -/
structure Arrival (Value : Type) where
  batch : Batch Value
  clock : Nat → UInt64
  outcome : SinkOutcome

/-- The stream: the state it shares with the other tasks, the batches the sink took, the two
totals and the acknowledgements sent. -/
structure IngestStream (Value : Type) where
  skew : SkewTable
  fast : FastRing Value
  live : List LiveKernelEvent
  taken : List (Batch Value)
  accepted : UInt64
  dropped : UInt64
  acks : List Ack

namespace IngestStream

/-- A stream as it opens. -/
def start (skew : SkewTable) (fast : FastRing Value) : IngestStream Value where
  skew := skew
  fast := fast
  live := []
  taken := []
  accepted := 0
  dropped := 0
  acks := []

/-- The loop over one batch. -/
def step [Zero Value] (state : IngestStream Value) (arrival : Arrival Value) :
    IngestStream Value :=
  let rows := UInt64.ofNat arrival.batch.events.length
  let ingested := ingestBatch arrival.clock state.skew state.fast arrival.batch
  let shared : IngestStream Value :=
    { state with
      skew := ingested.skew
      fast := ingested.fast
      live := state.live ++ ingested.live }
  match arrival.outcome with
  | .accepted =>
    { shared with
      taken := state.taken ++ [ingested.toSink]
      accepted := state.accepted + rows
      acks := state.acks ++ [⟨state.accepted + rows, state.dropped⟩] }
  | .full =>
    { shared with
      dropped := state.dropped + rows
      acks := state.acks ++ [⟨state.accepted, state.dropped + rows⟩] }

theorem step_skew [Zero Value] (state : IngestStream Value) (arrival : Arrival Value) :
    (state.step arrival).skew =
      absorbOffsets arrival.clock state.skew arrival.batch.offsets := by
  unfold step
  cases arrival.outcome <;> rfl

/-- A batch the sink takes was taken before or is the one that arrives. -/
theorem mem_taken_step [Zero Value] {state : IngestStream Value} {arrival : Arrival Value}
    {b : Batch Value} (member : b ∈ (state.step arrival).taken) :
    b ∈ state.taken ∨
      b = (ingestBatch arrival.clock state.skew state.fast arrival.batch).toSink := by
  unfold step at member
  cases outcome : arrival.outcome with
  | accepted =>
    simp only [outcome] at member
    exact (List.mem_append.mp member).imp id List.mem_singleton.mp
  | full =>
    simp only [outcome] at member
    exact .inl member

/-- The strings the sink has taken over a run are those of the accepted batches. -/
theorem mem_taken_strings_iff [Zero Value] (state : IngestStream Value)
    (arrivals : List (Arrival Value)) (string : StringIntern) :
    (∃ b ∈ (run step state arrivals).taken, string ∈ b.strings) ↔
      (∃ b ∈ state.taken, string ∈ b.strings) ∨
        ∃ arrival ∈ arrivals, arrival.outcome = .accepted ∧ string ∈ arrival.batch.strings := by
  induction arrivals generalizing state with
  | nil => simp
  | cons arrival rest inductionHypothesis =>
    rw [run_cons, inductionHypothesis, List.exists_mem_cons_iff]
    unfold step
    cases outcome : arrival.outcome with
    | full => simp only [reduceCtorEq, false_and, false_or]
    | accepted =>
      simp only [List.mem_append, List.mem_singleton, or_and_right, exists_or, exists_eq_left,
        or_assoc, true_and]
      rfl

end IngestStream

/-! ### The batches of a session -/

/-- The host times and the answer the collector has for a batch. -/
structure SinkReaction where
  clock : Nat → UInt64
  outcome : SinkOutcome

/-- The batches of a connection as they arrive, in order, up to the last one the collector has
processed. -/
def arrivals (sent : List (Batch Value)) (reactions : List SinkReaction) : List (Arrival Value) :=
  List.zipWith (fun batch reaction => ⟨batch, reaction.clock, reaction.outcome⟩) sent reactions

theorem arrivals_getElem?_eq_some_iff {sent : List (Batch Value)} {reactions : List SinkReaction}
    {index : Nat} {arrival : Arrival Value} :
    (arrivals sent reactions)[index]? = some arrival ↔
      ∃ batch reaction, sent[index]? = some batch ∧ reactions[index]? = some reaction ∧
        ⟨batch, reaction.clock, reaction.outcome⟩ = arrival :=
  List.getElem?_zipWith_eq_some

/-- What arrives was sent. -/
theorem batch_mem_of_mem_arrivals {sent : List (Batch Value)} {reactions : List SinkReaction}
    {arrival : Arrival Value} (member : arrival ∈ arrivals sent reactions) :
    arrival.batch ∈ sent := by
  obtain ⟨index, isArrival⟩ := List.mem_iff_getElem?.mp member
  obtain ⟨batch, reaction, isSent, _, rfl⟩ := arrivals_getElem?_eq_some_iff.mp isArrival
  exact List.mem_of_getElem? isSent

end PerfWeave
