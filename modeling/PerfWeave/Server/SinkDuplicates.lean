/-
This file settles which runs of the sink store a row twice. A flush that fails keeps the
buffers it has already inserted, and the next one inserts them again. A flush is clean when it
gets through, or when it stores nothing but strings before it fails; the rows of a run whose
flushes are all clean are stored once, and a run with one other flush stores some row twice as
soon as its last flush succeeds.

Both directions follow the rows a table holds: those stored so far, then those pending. In a
clean run these are the queued rows themselves; in any run the list only grows.
-/

import PerfWeave.Server.SinkRuns

namespace PerfWeave

variable {Value : Type}

/-! ### Clean flushes -/

/-- A flush is clean when every table passes, or no buffer but the strings is stored before
the first insert that fails. -/
def CleanFlush (succeeds : Table → Bool) (pending : Pending Value) : Prop :=
  (∀ table, passes succeeds pending table = true) ∨
    ∀ table ∈ passed succeeds pending insertOrder, table ≠ .strings → pending table = []

/-- Every flush of the loop is clean at the buffers it starts from. -/
def CleanRun [Zero Value] (cfg : SinkConfig) (inputs : List (SinkInput Value)) : Prop :=
  ∀ before input, before ++ [input] <+: inputs →
    ((sinkRun cfg before).arrive input).wantsFlush cfg input = true →
      CleanFlush input.succeeds ((sinkRun cfg before).arrive input).pending

/-! ### The rows a table holds -/

/-- The rows of a table that are stored, then those that are pending. -/
def SinkState.held (state : SinkState Value) (table : Table) :
    List (Queued (TableRow Value table)) :=
  storedRows state.log table ++ state.pending table

namespace SinkState

/-- A flush that gets through moves the pending rows to the stored ones. -/
theorem held_flush_of_completes {succeeds : Table → Bool} {state : SinkState Value}
    (complete : state.completes succeeds = true) (table : Table) :
    (state.flush succeeds).held table = state.held table := by
  rw [held, storedRows_flush_of_completes complete, flush_eq, if_pos complete]
  exact List.append_nil _

/-- A flush that fails stores the rows of the passed tables and keeps them. -/
theorem held_flush_of_fails {succeeds : Table → Bool} {state : SinkState Value}
    (fails : ¬ state.completes succeeds = true) (table : Table) :
    (state.flush succeeds).held table =
      storedRows state.log table ++
        ((if table ∈ passed succeeds state.pending insertOrder then state.pending table else []) ++
          state.pending table) := by
  rw [held, flush_log, storedRows_inserting succeeds List.prefix_rfl, flush_eq, if_neg fails,
    List.append_assoc]

/-- No flush lets go of a row. -/
theorem held_sublist_flush (succeeds : Table → Bool) (state : SinkState Value) (table : Table) :
    List.Sublist (state.held table) ((state.flush succeeds).held table) := by
  by_cases complete : state.completes succeeds = true
  · rw [held_flush_of_completes complete]
  · rw [held_flush_of_fails complete]
    exact List.Sublist.append_left (List.sublist_append_right _ _) _

/-- A clean flush leaves what the tables other than the strings hold as it is. -/
theorem held_flush_of_clean {succeeds : Table → Bool} {state : SinkState Value}
    (clean : CleanFlush succeeds state.pending) {table : Table} (other : table ≠ .strings) :
    (state.flush succeeds).held table = state.held table := by
  by_cases complete : state.completes succeeds = true
  · exact held_flush_of_completes complete table
  · have storesNothing :
        (if table ∈ passed succeeds state.pending insertOrder then state.pending table else []) =
          [] := by
      rcases clean with all | empty
      · exact absurd ((completes_iff_passes succeeds state).mpr all) complete
      · split
        · rename_i member
          exact empty table member other
        · rfl
    rw [held_flush_of_fails complete, storesNothing]
    rfl

/-- A flush that is not clean leaves a table other than the strings holding a row twice. -/
theorem held_flush_of_not_clean {succeeds : Table → Bool} {state : SinkState Value}
    (unclean : ¬ CleanFlush succeeds state.pending) :
    ∃ table, table ≠ .strings ∧ ¬ ((state.flush succeeds).held table).Nodup := by
  unfold CleanFlush at unclean
  rw [not_or, ← completes_iff_passes] at unclean
  obtain ⟨fails, stores⟩ := unclean
  push Not at stores
  obtain ⟨table, member, other, nonempty⟩ := stores
  refine ⟨table, other, fun nodup => ?_⟩
  rw [held_flush_of_fails fails, if_pos member] at nodup
  obtain ⟨row, pending⟩ := List.exists_mem_of_ne_nil _ nonempty
  have twice := List.nodup_append.mp (List.nodup_append.mp nodup).2.1
  exact twice.2.2 row pending row pending rfl

variable [Zero Value]

/-- A message adds its rows at the end. -/
theorem held_arrive_recv (state : SinkState Value) (msg : SinkMsg Value)
    (clock : Nat → UInt64) (succeeds : Table → Bool) (table : Table) :
    (state.arrive (.recv msg clock succeeds)).held table =
      state.held table ++ msg.rows clock state.received table := by
  have buffers : (state.arrive (.recv msg clock succeeds)).pending table =
      state.pending table ++ msg.rows clock state.received table :=
    receive_eq clock state.received msg state.pending table
  rw [held, buffers, ← List.append_assoc]
  rfl

theorem held_sublist_arrive (state : SinkState Value) (input : SinkInput Value) (table : Table) :
    List.Sublist (state.held table) ((state.arrive input).held table) := by
  cases input with
  | recv msg clock succeeds =>
    rw [held_arrive_recv]
    exact List.sublist_append_left _ _
  | tick succeeds => exact List.Sublist.refl _

/-- One turn of the loop lets go of no row. -/
theorem held_sublist_step (cfg : SinkConfig) (state : SinkState Value)
    (input : SinkInput Value) (table : Table) :
    List.Sublist (state.held table) ((state.step cfg input).held table) := by
  have arrived := held_sublist_arrive state input table
  rcases step_cases cfg state input with ⟨_, next⟩ | ⟨_, next⟩
  · rw [next]
    exact arrived.trans (held_sublist_flush _ _ _)
  · rw [next]
    exact arrived

end SinkState

/-- A run lets go of no row. -/
theorem held_sublist_of_isPrefix [Zero Value] (cfg : SinkConfig)
    {before inputs : List (SinkInput Value)} (isPrefix : before <+: inputs) (table : Table) :
    List.Sublist ((sinkRun cfg before).held table) ((sinkRun cfg inputs).held table) := by
  obtain ⟨rest, rfl⟩ := isPrefix
  rw [sinkRun, sinkRun, run_append]
  refine run_invariant
    (motive := fun state : SinkState Value =>
      List.Sublist ((sinkRun cfg before).held table) (state.held table))
    (List.Sublist.refl _) ?_ rest fun _ _ => trivial
  intro state input _ kept
  exact kept.trans (SinkState.held_sublist_step cfg state input table)

/-! ### Rows stored twice -/

/-- What holds the queued rows still does when a message has arrived. -/
theorem held_arrive_of_held [Zero Value] {cfg : SinkConfig} {before : List (SinkInput Value)}
    {table : Table} (holds : (sinkRun cfg before).held table = queuedRows before table)
    (input : SinkInput Value) :
    ((sinkRun cfg before).arrive input).held table = queuedRows (before ++ [input]) table := by
  have moment : Moment cfg before (fun _ => true) before (sinkRun cfg before) :=
    .between (List.prefix_refl before)
  have counted := moment.covers.counted
  cases input with
  | recv msg clock succeeds =>
    rw [SinkState.held_arrive_recv, queuedRows_concat_recv, holds, counted]
  | tick succeeds =>
    rw [queuedRows_concat_tick]
    exact holds

theorem CleanRun.of_isPrefix [Zero Value] {cfg : SinkConfig}
    {before inputs : List (SinkInput Value)} (clean : CleanRun cfg inputs)
    (isPrefix : before <+: inputs) : CleanRun cfg before :=
  fun earlier input earlierPrefix => clean earlier input (earlierPrefix.trans isPrefix)

/-- In a clean run the tables other than the strings hold the queued rows, in order. -/
theorem held_of_cleanRun [Zero Value] {cfg : SinkConfig} {inputs : List (SinkInput Value)}
    (clean : CleanRun cfg inputs) {table : Table} (other : table ≠ .strings) :
    (sinkRun cfg inputs).held table = queuedRows inputs table := by
  induction inputs using List.reverseRecOn with
  | nil => rfl
  | append_singleton before input inductionHypothesis =>
    have arrived := held_arrive_of_held
      (inductionHypothesis (clean.of_isPrefix (List.prefix_append _ _))) input
    rw [sinkRun_concat]
    rcases SinkState.step_cases cfg (sinkRun cfg before) input with ⟨wanted, next⟩ | ⟨_, next⟩
    · rw [next, SinkState.held_flush_of_clean (clean before input List.prefix_rfl wanted) other,
        arrived]
    · rw [next, arrived]

/-- Between two inserts of a flush the database holds a part of what the table held before. -/
theorem storedRows_inserting_sublist (succeeds : Table → Bool) {tables : List Table}
    (isPrefix : tables <+: insertOrder) (state : SinkState Value) (table : Table) :
    List.Sublist (storedRows (state.inserting succeeds tables).log table) (state.held table) := by
  rw [SinkState.storedRows_inserting succeeds isPrefix]
  refine List.Sublist.append_left ?_ _
  split
  · exact List.Sublist.refl _
  · exact List.nil_sublist _

/-- At every moment of a clean run the rows stored in a table other than the strings are
distinct. -/
theorem storedRows_nodup_of_cleanRun [Zero Value] {cfg : SinkConfig}
    {inputs received : List (SinkInput Value)} {final : Table → Bool} {state : SinkState Value}
    (clean : CleanRun cfg inputs) (moment : Moment cfg inputs final received state)
    {table : Table} (other : table ≠ .strings) : (storedRows state.log table).Nodup := by
  have holds : ∀ before, before <+: inputs →
      (sinkRun cfg before).held table = queuedRows before table :=
    fun _ isPrefix => held_of_cleanRun (clean.of_isPrefix isPrefix) other
  have heldNodup : ∀ before, before <+: inputs → ((sinkRun cfg before).held table).Nodup := by
    intro before isPrefix
    rw [holds before isPrefix]
    exact queuedRows_nodup before table
  have arrivedNodup : ∀ before input, before ++ [input] <+: inputs →
      (((sinkRun cfg before).arrive input).held table).Nodup := by
    intro before input isPrefix
    rw [held_arrive_of_held (holds before ((List.prefix_append _ _).trans isPrefix))]
    exact queuedRows_nodup _ table
  cases moment with
  | between isPrefix => exact (heldNodup _ isPrefix).sublist (List.sublist_append_left _ _)
  | arrived isPrefix =>
    exact (arrivedNodup _ _ isPrefix).sublist (List.sublist_append_left _ _)
  | flushing isPrefix _ tablesPrefix =>
    exact (arrivedNodup _ _ isPrefix).sublist (storedRows_inserting_sublist _ tablesPrefix _ _)
  | closing tablesPrefix =>
    exact (heldNodup _ List.prefix_rfl).sublist (storedRows_inserting_sublist _ tablesPrefix _ _)
  | closed =>
    rw [sinkClosed, SinkState.flush_log]
    exact (heldNodup _ List.prefix_rfl).sublist
      (storedRows_inserting_sublist _ List.prefix_rfl _ _)

/-- A run stores no row of these four tables twice, whatever becomes of its last flush,
exactly when every flush of its loop is clean. -/
theorem no_row_stored_twice_iff [Zero Value] (cfg : SinkConfig)
    (inputs : List (SinkInput Value)) :
    (∀ final received state, Moment cfg inputs final received state →
      ∀ table, table ≠ .strings → (storedRows state.log table).Nodup) ↔ CleanRun cfg inputs := by
  constructor
  · intro nodup before input isPrefix wanted
    by_contra unclean
    obtain ⟨table, other, twice⟩ := SinkState.held_flush_of_not_clean unclean
    have after : sinkRun cfg (before ++ [input]) =
        ((sinkRun cfg before).arrive input).flush input.succeeds := by
      rw [sinkRun_concat]
      rcases SinkState.step_cases cfg (sinkRun cfg before) input with ⟨_, next⟩ | ⟨idle, _⟩
      · exact next
      · rw [wanted] at idle
        exact absurd idle.symm Bool.false_ne_true
    rw [← after] at twice
    have complete : (sinkRun cfg inputs).completes (fun _ => true) = true :=
      (SinkState.completes_iff _ _).mpr fun _ => .inr rfl
    have closed := nodup (fun _ => true) inputs _ .closed table other
    rw [sinkClosed, SinkState.storedRows_flush_of_completes complete] at closed
    exact twice (List.Nodup.sublist (held_sublist_of_isPrefix cfg isPrefix table) closed)
  · exact fun clean _ _ _ moment _ other => storedRows_nodup_of_cleanRun clean moment other

/-- After the retry the kernel is stored twice. -/
theorem retry_stores_row_twice :
    ¬ ∀ final received state, Moment ⟨50000⟩ retryInputs final received state →
      ∀ table, table ≠ .strings → (storedRows state.log table).Nodup := by
  intro nodup
  have stored : storedRows (sinkRun ⟨50000⟩ retryInputs).log .events =
      [namedKernelRow, namedKernelRow] := rfl
  have events := nodup (fun _ => true) retryInputs _ (.between List.prefix_rfl) .events (by decide)
  rw [stored] at events
  exact (List.nodup_cons.mp events).1 List.mem_cons_self

end PerfWeave
