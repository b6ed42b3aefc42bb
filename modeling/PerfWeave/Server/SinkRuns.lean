/-
This file proves what the sink keeps over a whole run: no queued row is lost, and the
dictionary is stored before the events that refer to it.

The results speak about every moment of a run, also those between two inserts of one flush.
A property that messages, inserts and clears keep holds at every moment, and only this rule
looks at how a run is put together.
-/

import PerfWeave.Server.SinkLog

namespace PerfWeave

variable {Value : Type}

/-! ### The moments of a run -/

/-- The moments of a run that ends with the channel closing, each with the inputs received so
far: between two turns of the loop, before the flush of a turn, between two inserts of a flush,
and in and after the last flush. -/
inductive Moment [Zero Value] (cfg : SinkConfig) (inputs : List (SinkInput Value))
    (final : Table → Bool) : List (SinkInput Value) → SinkState Value → Prop where
  | between {before : List (SinkInput Value)} (isPrefix : before <+: inputs) :
      Moment cfg inputs final before (sinkRun cfg before)
  | arrived {before : List (SinkInput Value)} {input : SinkInput Value}
      (isPrefix : before ++ [input] <+: inputs) :
      Moment cfg inputs final (before ++ [input]) ((sinkRun cfg before).arrive input)
  | flushing {before : List (SinkInput Value)} {input : SinkInput Value} {tables : List Table}
      (isPrefix : before ++ [input] <+: inputs)
      (wanted : ((sinkRun cfg before).arrive input).wantsFlush cfg input = true)
      (tablesPrefix : tables <+: insertOrder) :
      Moment cfg inputs final (before ++ [input])
        (((sinkRun cfg before).arrive input).inserting input.succeeds tables)
  | closing {tables : List Table} (tablesPrefix : tables <+: insertOrder) :
      Moment cfg inputs final inputs ((sinkRun cfg inputs).inserting final tables)
  | closed : Moment cfg inputs final inputs (sinkClosed cfg inputs final)

theorem sinkRun_concat [Zero Value] (cfg : SinkConfig) (inputs : List (SinkInput Value))
    (input : SinkInput Value) :
    sinkRun cfg (inputs ++ [input]) = (sinkRun cfg inputs).step cfg input :=
  run_concat _ _ _ _

/-- A turn of the loop takes in its message and then flushes or does not. -/
theorem SinkState.step_cases [Zero Value] (cfg : SinkConfig) (state : SinkState Value)
    (input : SinkInput Value) :
    ((state.arrive input).wantsFlush cfg input = true ∧
        state.step cfg input = (state.arrive input).flush input.succeeds) ∨
      ((state.arrive input).wantsFlush cfg input = false ∧
        state.step cfg input = state.arrive input) := by
  unfold SinkState.step
  cases wanted : (state.arrive input).wantsFlush cfg input with
  | true => exact .inl ⟨rfl, if_pos wanted⟩
  | false => exact .inr ⟨rfl, if_neg (Bool.not_eq_true _ ▸ wanted)⟩

/-- What the messages, the inserts and the clearing flushes keep, every flush keeps. -/
theorem SinkState.flush_of_inserting {motive : SinkState Value → Prop}
    (inserts : ∀ state succeeds tables, tables <+: insertOrder → motive state →
      motive (SinkState.inserting succeeds tables state))
    (clears : ∀ state succeeds, SinkState.completes succeeds state = true → motive state →
      motive (SinkState.flush succeeds state))
    (state : SinkState Value) (succeeds : Table → Bool) (holds : motive state) :
    motive (state.flush succeeds) := by
  by_cases complete : state.completes succeeds = true
  · exact clears state succeeds complete holds
  · have unchanged : state.flush succeeds = state.inserting succeeds insertOrder := by
      rw [flush_eq, if_neg complete]
      rfl
    rw [unchanged]
    exact inserts state succeeds insertOrder List.prefix_rfl holds

/-- The rule of runs: what holds at the start and is kept by every message, every insert and
every clearing flush holds at every moment. -/
theorem Moment.rule [Zero Value] {cfg : SinkConfig} {inputs received : List (SinkInput Value)}
    {final : Table → Bool} {state : SinkState Value}
    {motive : List (SinkInput Value) → SinkState Value → Prop}
    (fresh : motive [] SinkState.fresh)
    (arrives : ∀ before state input, motive before state →
      motive (before ++ [input]) (SinkState.arrive state input))
    (inserts : ∀ before state succeeds tables, tables <+: insertOrder → motive before state →
      motive before (SinkState.inserting succeeds tables state))
    (clears : ∀ before state succeeds, SinkState.completes succeeds state = true →
      motive before state → motive before (SinkState.flush succeeds state))
    (moment : Moment cfg inputs final received state) : motive received state := by
  have flushes : ∀ before state succeeds, motive before state →
      motive before (SinkState.flush succeeds state) := fun before state succeeds holds =>
    SinkState.flush_of_inserting (inserts before) (clears before) state succeeds holds
  have runs : ∀ before, motive before (sinkRun cfg before) := by
    intro before
    refine run_induction fresh (fun earlier input holds => ?_) before
    have arrived := arrives earlier _ input holds
    rcases SinkState.step_cases cfg _ input with ⟨_, next⟩ | ⟨_, next⟩
    · rw [next]
      exact flushes _ _ _ arrived
    · rw [next]
      exact arrived
  cases moment with
  | between => exact runs _
  | arrived => exact arrives _ _ _ (runs _)
  | flushing _ _ tablesPrefix => exact inserts _ _ _ _ tablesPrefix (arrives _ _ _ (runs _))
  | closing tablesPrefix => exact inserts _ _ _ _ tablesPrefix (runs _)
  | closed => exact flushes _ _ _ (runs _)

/-! ### No row is lost -/

/-- The buffers and the database hold the rows queued so far and no others. -/
structure SinkState.Covers [Zero Value] (received : List (SinkInput Value))
    (state : SinkState Value) : Prop where
  counted : state.received = (messages received).length
  covered : ∀ table, ∀ row ∈ queuedRows received table,
    row ∈ storedRows state.log table ∨ row ∈ state.pending table
  queued : ∀ table row, row ∈ storedRows state.log table ∨ row ∈ state.pending table →
    row ∈ queuedRows received table

namespace SinkState

variable [Zero Value]

theorem covers_fresh : (fresh : SinkState Value).Covers [] where
  counted := rfl
  covered := fun _ _ member => absurd member List.not_mem_nil
  queued := fun _ _ member => member.elim (absurd · List.not_mem_nil) (absurd · List.not_mem_nil)

theorem Covers.arrive {received : List (SinkInput Value)} {state : SinkState Value}
    (covers : state.Covers received) (input : SinkInput Value) :
    (state.arrive input).Covers (received ++ [input]) := by
  cases input with
  | recv msg clock succeeds =>
    have buffers : ∀ table, (state.arrive (.recv msg clock succeeds)).pending table =
        state.pending table ++ msg.rows clock state.received table :=
      fun table => receive_eq clock state.received msg state.pending table
    refine ⟨?_, fun table row member => ?_, fun table row member => ?_⟩
    · rw [messages_concat_recv, List.length_append, ← covers.counted]
      rfl
    · rw [queuedRows_concat_recv, ← covers.counted, List.mem_append] at member
      rw [buffers, List.mem_append, ← or_assoc]
      exact member.imp_left (covers.covered table row)
    · rw [buffers, List.mem_append, ← or_assoc] at member
      rw [queuedRows_concat_recv, ← covers.counted, List.mem_append]
      exact member.imp_left (covers.queued table row)
  | tick succeeds =>
    refine ⟨?_, fun table row member => ?_, fun table row member => ?_⟩
    · rw [messages_concat_tick]
      exact covers.counted
    · rw [queuedRows_concat_tick] at member
      exact covers.covered table row member
    · rw [queuedRows_concat_tick]
      exact covers.queued table row member

theorem Covers.inserting {received : List (SinkInput Value)} {state : SinkState Value}
    (covers : state.Covers received) (succeeds : Table → Bool) {tables : List Table}
    (isPrefix : tables <+: insertOrder) :
    (state.inserting succeeds tables).Covers received where
  counted := covers.counted
  covered := fun table row member => by
    rw [storedRows_inserting succeeds isPrefix, List.mem_append]
    exact (covers.covered table row member).imp_left Or.inl
  queued := fun table row member => by
    rw [storedRows_inserting succeeds isPrefix, List.mem_append] at member
    rcases member with (before | now) | pending
    · exact covers.queued table row (.inl before)
    · split at now
      · exact covers.queued table row (.inr now)
      · exact absurd now List.not_mem_nil
    · exact covers.queued table row (.inr pending)

theorem Covers.flush {received : List (SinkInput Value)} {state : SinkState Value}
    (covers : state.Covers received) {succeeds : Table → Bool}
    (complete : state.completes succeeds = true) : (state.flush succeeds).Covers received where
  counted := (flush_received succeeds state).trans covers.counted
  covered := fun table row member => by
    rw [storedRows_flush_of_completes complete, List.mem_append]
    exact .inl (covers.covered table row member)
  queued := fun table row member => by
    rw [storedRows_flush_of_completes complete, List.mem_append, flush_eq, if_pos complete]
      at member
    exact covers.queued table row (member.resolve_right List.not_mem_nil)

end SinkState

/-- The buffers and the database cover the queued rows at every moment. -/
theorem Moment.covers [Zero Value] {cfg : SinkConfig} {inputs received : List (SinkInput Value)}
    {final : Table → Bool} {state : SinkState Value}
    (moment : Moment cfg inputs final received state) : state.Covers received :=
  moment.rule SinkState.covers_fresh (fun _ _ input covers => covers.arrive input)
    (fun _ _ succeeds _ isPrefix covers => covers.inserting succeeds isPrefix)
    (fun _ _ _ complete covers => covers.flush complete)

/-- At every moment each row queued so far is pending or was part of a successful insert, and
a row missing after the channel closed means that an insert of the final flush failed. -/
theorem no_row_lost [Zero Value] (cfg : SinkConfig) (inputs : List (SinkInput Value))
    (final : Table → Bool) :
    (∀ received state, Moment cfg inputs final received state →
      ∀ table, ∀ row ∈ queuedRows received table,
        row ∈ state.pending table ∨ row ∈ storedRows state.log table) ∧
    ∀ table, ∀ row ∈ queuedRows inputs table,
      row ∉ storedRows (sinkClosed cfg inputs final).log table →
        ∃ failed, (sinkRun cfg inputs).pending failed ≠ [] ∧ final failed = false := by
  refine ⟨fun received state moment table row member =>
    (moment.covers.covered table row member).symm, fun table row member missing => ?_⟩
  by_contra none
  have complete : (sinkRun cfg inputs).completes final = true := by
    refine (SinkState.completes_iff final _).mpr fun other => ?_
    by_contra fails
    rw [not_or, Bool.not_eq_true] at fails
    exact none ⟨other, fails⟩
  have before : Moment cfg inputs final inputs (sinkRun cfg inputs) := .between List.prefix_rfl
  refine missing ?_
  rw [sinkClosed, SinkState.storedRows_flush_of_completes complete, List.mem_append]
  exact before.covers.covered table row member

/-! ### The dictionary comes first -/

/-- The database is covered, and with an event it holds every string that arrived with the
event's batch or before it. -/
structure SinkState.DictionaryFirst [Zero Value] (received : List (SinkInput Value))
    (state : SinkState Value) : Prop where
  covers : state.Covers received
  stringsStored : ∀ event ∈ storedRows state.log .events, ∀ text ∈ queuedRows received .strings,
    text.origin.message ≤ event.origin.message → text ∈ storedRows state.log .strings

namespace SinkState

variable [Zero Value]

/-- A new message does not reach back: its strings are later than every stored event. -/
theorem DictionaryFirst.arrive {received : List (SinkInput Value)} {state : SinkState Value}
    (first : state.DictionaryFirst received) (input : SinkInput Value) :
    (state.arrive input).DictionaryFirst (received ++ [input]) := by
  refine ⟨first.covers.arrive input, fun event stored text queued earlier => ?_⟩
  cases input with
  | recv msg clock succeeds =>
    rw [queuedRows_concat_recv, List.mem_append] at queued
    rcases queued with before | now
    · exact first.stringsStored event stored text before earlier
    · have eventBefore := origin_message_lt (first.covers.queued .events event (.inl stored))
      rw [origin_message_of_mem_rows now] at earlier
      exact absurd earlier (Nat.not_le.mpr eventBefore)
  | tick succeeds =>
    rw [queuedRows_concat_tick] at queued
    exact first.stringsStored event stored text queued earlier

/-- No insert runs ahead of the strings: a flush that gets past the events got past the
strings. -/
theorem DictionaryFirst.inserting {received : List (SinkInput Value)} {state : SinkState Value}
    (first : state.DictionaryFirst received) (succeeds : Table → Bool) {tables : List Table}
    (isPrefix : tables <+: insertOrder) :
    (state.inserting succeeds tables).DictionaryFirst received := by
  refine ⟨first.covers.inserting succeeds isPrefix, fun event stored text queued earlier => ?_⟩
  rw [storedRows_inserting succeeds isPrefix, List.mem_append] at stored ⊢
  rcases stored with before | now
  · exact .inl (first.stringsStored event before text queued earlier)
  · by_cases reached : .events ∈ passed succeeds state.pending tables
    · have strings : .strings ∈ passed succeeds state.pending tables :=
        strings_mem_of_isPrefix (passed_isPrefix succeeds state.pending isPrefix) reached
      rw [if_pos strings]
      exact first.covers.covered .strings text queued
    · rw [if_neg reached] at now
      exact absurd now List.not_mem_nil

/-- A flush that gets through stores every string queued so far. -/
theorem DictionaryFirst.flush {received : List (SinkInput Value)} {state : SinkState Value}
    (first : state.DictionaryFirst received) {succeeds : Table → Bool}
    (complete : state.completes succeeds = true) :
    (state.flush succeeds).DictionaryFirst received := by
  refine ⟨first.covers.flush complete, fun event _ text queued _ => ?_⟩
  rw [storedRows_flush_of_completes complete, List.mem_append]
  exact first.covers.covered .strings text queued

end SinkState

/-- At every moment a stored event row comes with the string rows of its batch and of every
batch before it. -/
theorem strings_stored_before_events [Zero Value] (cfg : SinkConfig)
    (inputs : List (SinkInput Value)) (final : Table → Bool)
    (received : List (SinkInput Value)) (state : SinkState Value)
    (moment : Moment cfg inputs final received state) :
    ∀ event ∈ storedRows state.log .events, ∀ text ∈ queuedRows received .strings,
      text.origin.message ≤ event.origin.message → text ∈ storedRows state.log .strings := by
  have first : state.DictionaryFirst received :=
    moment.rule
      ⟨SinkState.covers_fresh, fun _ stored => absurd stored List.not_mem_nil⟩
      (fun _ _ input holds => holds.arrive input)
      (fun _ _ succeeds _ isPrefix holds => holds.inserting succeeds isPrefix)
      (fun _ _ _ complete holds => holds.flush complete)
  exact first.stringsStored

/-! ### A run with a retry -/

/-- A kernel, the string that names it and a clock offset, in one batch. -/
def namedKernelBatch : Batch Nat where
  events := [{
    tsNs := 1000, durationNs := 50, nodeId := 1, gpuId := 0, pid := 7, tid := 7, ctxId := 1
    streamId := 3, category := Category.kernel.asI32, nameId := 11, correlationId := 5
    parentId := 0, payload := none }]
  strings := [⟨11, "gemm"⟩]
  offsets := [⟨1, 0, 0, 1, 1, 0⟩]
  metricFrames := []

/-- The batch arrives, a tick's flush fails at the clock offsets, and the next tick's flush
gets through. -/
def retryInputs : List (SinkInput Nat) :=
  [.recv (.batch namedKernelBatch) (fun _ => 2000) (fun _ => true),
    .tick (fun table => table ≠ .clockOffsets),
    .tick (fun _ => true)]

/-- The row of the kernel. -/
def namedKernelRow : Queued (EventRow Nat) :=
  ⟨⟨0, 0⟩, EventRow.ofEvent (namedKernelBatch.events.head (by decide))⟩

theorem strings_stored_before_events_retry :
    namedKernelRow ∈ storedRows (sinkRun ⟨50000⟩ retryInputs).log .events ∧
      (⟨⟨0, 0⟩, ⟨11, "gemm"⟩⟩ : Queued StringRow) ∈
        storedRows (sinkRun ⟨50000⟩ retryInputs).log .strings := by
  have stored : namedKernelRow ∈ storedRows (sinkRun ⟨50000⟩ retryInputs).log .events :=
    List.mem_cons_self
  exact ⟨stored, strings_stored_before_events ⟨50000⟩ retryInputs (fun _ => true) retryInputs _
    (.between List.prefix_rfl) namedKernelRow stored _ List.mem_cons_self (le_refl 0)⟩

end PerfWeave
