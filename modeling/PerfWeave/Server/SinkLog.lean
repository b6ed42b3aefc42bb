/-
This file reads what a flush does off the sink's code, once: which rows each insert adds to
the database, when the flush gets through, and which rows the messages of a run queue. The
results about runs use these facts and no longer look into a flush.

A table passes a flush when its buffer is empty or its insert succeeds. The flush stores the
buffers of the tables before the first one that does not pass, and nothing else.
-/

import PerfWeave.Server.Sink

namespace PerfWeave

variable {Value : Type}

/-! ### The rows of a log -/

/-- The rows an insert stored in a table. -/
def Insert.rowsInto (insert : Insert Value) (table : Table) :
    List (Queued (TableRow Value table)) :=
  if same : insert.table = table then same ▸ insert.rows else []

/-- The rows a log of inserts stored in a table, in order. -/
def storedRows (log : List (Insert Value)) (table : Table) :
    List (Queued (TableRow Value table)) :=
  log.flatMap fun insert => insert.rowsInto table

theorem rowsInto_self (table : Table) (rows : List (Queued (TableRow Value table))) :
    (⟨table, rows⟩ : Insert Value).rowsInto table = rows := by
  unfold Insert.rowsInto
  rw [dif_pos rfl]

theorem rowsInto_of_ne {table other : Table} (different : table ≠ other)
    (rows : List (Queued (TableRow Value table))) :
    (⟨table, rows⟩ : Insert Value).rowsInto other = [] := by
  unfold Insert.rowsInto
  rw [dif_neg different]

theorem storedRows_append (first second : List (Insert Value)) (table : Table) :
    storedRows (first ++ second) table = storedRows first table ++ storedRows second table :=
  List.flatMap_append

theorem storedRows_concat (log : List (Insert Value)) (insert : Insert Value) (table : Table) :
    storedRows (log ++ [insert]) table = storedRows log table ++ insert.rowsInto table := by
  rw [storedRows_append, storedRows, storedRows, List.flatMap_singleton]

/-! ### What a flush inserts -/

/-- A table passes a flush when it has nothing to insert or its insert succeeds. -/
def passes (succeeds : Table → Bool) (pending : Pending Value) (table : Table) : Bool :=
  (pending table).isEmpty || succeeds table

/-- The tables a flush gets past: those before the first one that does not pass. -/
def passed (succeeds : Table → Bool) (pending : Pending Value) (tables : List Table) :
    List Table :=
  tables.takeWhile (passes succeeds pending)

theorem passed_cons_of_passes {succeeds : Table → Bool} {pending : Pending Value}
    {table : Table} (holds : passes succeeds pending table = true) (rest : List Table) :
    passed succeeds pending (table :: rest) = table :: passed succeeds pending rest :=
  List.takeWhile_cons_of_pos holds

theorem passed_cons_of_not_passes {succeeds : Table → Bool} {pending : Pending Value}
    {table : Table} (fails : ¬ passes succeeds pending table = true) (rest : List Table) :
    passed succeeds pending (table :: rest) = [] :=
  List.takeWhile_cons_of_neg fails

/-- Inserting the tables in order stores the buffers of the passed ones. -/
theorem storedRows_insertAll (succeeds : Table → Bool) (pending : Pending Value)
    (tables : List Table) (nodup : tables.Nodup) (log : List (Insert Value)) (table : Table) :
    storedRows (insertAll succeeds pending tables log).1 table =
      storedRows log table ++
        if table ∈ passed succeeds pending tables then pending table else [] := by
  induction tables generalizing log with
  | nil => exact (List.append_nil _).symm
  | cons first rest inductionHypothesis =>
    obtain ⟨fresh, restNodup⟩ := List.nodup_cons.mp nodup
    have notLater : table = first → table ∉ passed succeeds pending rest := by
      rintro rfl member
      exact fresh ((List.takeWhile_prefix _).sublist.subset member)
    unfold insertAll
    split
    · rename_i empty
      have first_passes : passes succeeds pending first = true := by
        rw [passes, empty, Bool.true_or]
      rw [inductionHypothesis restNodup, passed_cons_of_passes first_passes]
      by_cases same : table = first
      · subst same
        rw [if_neg (notLater rfl), if_pos List.mem_cons_self, List.isEmpty_iff.mp empty]
      · simp only [List.mem_cons, same, false_or]
    · rename_i nonempty
      split
      · rename_i succeeded
        have first_passes : passes succeeds pending first = true := by
          rw [passes, succeeded, Bool.or_true]
        rw [inductionHypothesis restNodup, passed_cons_of_passes first_passes, storedRows_concat]
        by_cases same : table = first
        · subst same
          rw [if_neg (notLater rfl), if_pos List.mem_cons_self, rowsInto_self, List.append_nil]
        · rw [rowsInto_of_ne (Ne.symm same), List.append_nil]
          simp only [List.mem_cons, same, false_or]
      · rename_i failed
        have first_fails : ¬ passes succeeds pending first = true := by
          rw [passes, Bool.or_eq_true, not_or]
          exact ⟨nonempty, failed⟩
        rw [passed_cons_of_not_passes first_fails, if_neg List.not_mem_nil, List.append_nil]

/-- Inserting the tables in order gets through exactly when every table passes. -/
theorem insertAll_snd (succeeds : Table → Bool) (pending : Pending Value) (tables : List Table)
    (log : List (Insert Value)) :
    (insertAll succeeds pending tables log).2 = tables.all (passes succeeds pending) := by
  induction tables generalizing log with
  | nil => rfl
  | cons first rest inductionHypothesis =>
    unfold insertAll
    rw [List.all_cons]
    split
    · rename_i empty
      rw [inductionHypothesis, passes, empty, Bool.true_or, Bool.true_and]
    · rename_i nonempty
      split
      · rename_i succeeded
        rw [inductionHypothesis, passes, succeeded, Bool.or_true, Bool.true_and]
      · rename_i failed
        rw [passes, Bool.eq_false_iff.mpr nonempty, Bool.eq_false_iff.mpr failed]
        rfl

theorem insertOrder_nodup : insertOrder.Nodup := by decide

theorem mem_insertOrder (table : Table) : table ∈ insertOrder := by
  cases table <;> decide

/-- The strings come first: no part of a flush gets past another table without them. -/
theorem strings_mem_of_isPrefix {tables : List Table} (isPrefix : tables <+: insertOrder)
    {table : Table} (member : table ∈ tables) : .strings ∈ tables := by
  cases tables with
  | nil => exact absurd member List.not_mem_nil
  | cons first rest =>
    rw [← (List.cons_prefix_cons.mp isPrefix).1]
    exact List.mem_cons_self

theorem passed_isPrefix (succeeds : Table → Bool) (pending : Pending Value) {tables : List Table}
    (isPrefix : tables <+: insertOrder) : passed succeeds pending tables <+: insertOrder :=
  (List.takeWhile_prefix _).trans isPrefix

namespace SinkState

/-- The database inside a flush. -/
theorem storedRows_inserting (succeeds : Table → Bool) {tables : List Table}
    (isPrefix : tables <+: insertOrder) (state : SinkState Value) (table : Table) :
    storedRows (state.inserting succeeds tables).log table =
      storedRows state.log table ++
        if table ∈ passed succeeds state.pending tables then state.pending table else [] :=
  storedRows_insertAll succeeds state.pending tables
    (insertOrder_nodup.sublist isPrefix.sublist) state.log table

/-- The flush gets through when every table passes. -/
def completes (succeeds : Table → Bool) (state : SinkState Value) : Bool :=
  insertOrder.all (passes succeeds state.pending)

theorem completes_iff_passes (succeeds : Table → Bool) (state : SinkState Value) :
    state.completes succeeds = true ↔ ∀ table, passes succeeds state.pending table = true := by
  unfold completes
  rw [List.all_eq_true]
  exact ⟨fun all table => all table (mem_insertOrder table), fun all table _ => all table⟩

theorem completes_iff (succeeds : Table → Bool) (state : SinkState Value) :
    state.completes succeeds = true ↔
      ∀ table, state.pending table = [] ∨ succeeds table = true := by
  rw [completes_iff_passes]
  refine forall_congr' fun table => ?_
  rw [passes, Bool.or_eq_true, List.isEmpty_iff]

/-- A flush is its inserts, after which the buffers are empty if it got through and unchanged
if it did not. -/
theorem flush_eq (succeeds : Table → Bool) (state : SinkState Value) :
    state.flush succeeds =
      { state.inserting succeeds insertOrder with
        pending := if state.completes succeeds then fun _ => [] else state.pending } := by
  unfold flush completes
  simp only [insertAll_snd]
  split <;> rfl

theorem flush_log (succeeds : Table → Bool) (state : SinkState Value) :
    (state.flush succeeds).log = (state.inserting succeeds insertOrder).log := by
  rw [flush_eq]

theorem flush_received (succeeds : Table → Bool) (state : SinkState Value) :
    (state.flush succeeds).received = state.received := by
  rw [flush_eq]
  rfl

/-- A flush that gets through stores every buffer. -/
theorem storedRows_flush_of_completes {succeeds : Table → Bool} {state : SinkState Value}
    (complete : state.completes succeeds = true) (table : Table) :
    storedRows (state.flush succeeds).log table =
      storedRows state.log table ++ state.pending table := by
  have all : passed succeeds state.pending insertOrder = insertOrder :=
    List.takeWhile_eq_self_iff.mpr (List.all_eq_true.mp complete)
  rw [flush_log, storedRows_inserting succeeds List.prefix_rfl, all,
    if_pos (mem_insertOrder table)]

end SinkState

/-! ### What a run queues -/

/-- The rows a message queues: a batch its non-metric events, its strings and its offsets, in
order; a report or a spike its one row. -/
def SinkMsg.rows [Zero Value] (clock : Nat → UInt64) (message : Nat) :
    SinkMsg Value → Pending Value
  | .batch b, .events =>
    (b.events.zipIdx.filter fun e => e.1.category ≠ Category.metric.asI32).map
      fun e => ⟨⟨message, e.2⟩, EventRow.ofEvent e.1⟩
  | .batch b, .strings =>
    b.strings.zipIdx.map fun s => ⟨⟨message, s.2⟩, (⟨s.1.id, s.1.text⟩ : StringRow)⟩
  | .batch b, .clockOffsets =>
    b.offsets.zipIdx.map fun o => ⟨⟨message, o.2⟩, OffsetRow.ofMessage (clock o.2) o.1⟩
  | .kernelSol nodeId sol, .kernelSol =>
    [⟨⟨message, 0⟩, KernelSolRow.fromProto (clock 0) nodeId sol⟩]
  | .spike row, .spikes => [⟨⟨message, 0⟩, row⟩]
  | _, _ => []

/-- A loop that appends the images of the kept items appends their list. -/
theorem foldl_append_filter {Item Row : Type} (skip : Item → Prop) [DecidablePred skip]
    (image : Item → Row) (items : List Item) (rows : List Row) :
    items.foldl (fun rows item => if skip item then rows else rows ++ [image item]) rows =
      rows ++ (items.filter fun item => ¬ skip item).map image := by
  induction items generalizing rows with
  | nil => exact (List.append_nil rows).symm
  | cons item rest inductionHypothesis =>
    rw [List.foldl_cons, inductionHypothesis]
    by_cases skipped : skip item
    · rw [if_pos skipped, List.filter_cons_of_neg (by simpa using skipped)]
    · rw [if_neg skipped, List.filter_cons_of_pos (by simpa using skipped), List.map_cons,
        List.append_assoc, List.singleton_append]

/-- A loop that appends the image of every item appends their list. -/
theorem foldl_append_map {Item Row : Type} (image : Item → Row) (items : List Item)
    (rows : List Row) :
    items.foldl (fun rows item => rows ++ [image item]) rows = rows ++ items.map image := by
  induction items generalizing rows with
  | nil => exact (List.append_nil rows).symm
  | cons item rest inductionHypothesis =>
    rw [List.foldl_cons, inductionHypothesis, List.map_cons, List.append_assoc,
      List.singleton_append]

/-- A message appends its rows to the buffers and touches nothing else. -/
theorem receive_eq [Zero Value] (clock : Nat → UInt64) (message : Nat) (msg : SinkMsg Value)
    (pending : Pending Value) (table : Table) :
    receive clock message msg pending table = pending table ++ msg.rows clock message table := by
  cases msg with
  | batch b =>
    cases table with
    | strings => exact foldl_append_map _ _ _
    | events => exact foldl_append_filter _ _ _ _
    | clockOffsets => exact foldl_append_map _ _ _
    | kernelSol => exact (List.append_nil _).symm
    | spikes => exact (List.append_nil _).symm
  | kernelSol nodeId sol => cases table <;> simp [receive, SinkMsg.rows]
  | spike row => cases table <;> simp [receive, SinkMsg.rows]

/-- The messages of a run with the host times their rows read. -/
def messages (inputs : List (SinkInput Value)) : List (SinkMsg Value × (Nat → UInt64)) :=
  inputs.filterMap fun
    | .recv msg clock _ => some (msg, clock)
    | .tick _ => none

/-- The rows a run queues for a table, in order. -/
def queuedRows [Zero Value] (inputs : List (SinkInput Value)) (table : Table) :
    List (Queued (TableRow Value table)) :=
  (messages inputs).zipIdx.flatMap fun msg => msg.1.1.rows msg.1.2 msg.2 table

theorem messages_concat_recv (inputs : List (SinkInput Value)) (msg : SinkMsg Value)
    (clock : Nat → UInt64) (succeeds : Table → Bool) :
    messages (inputs ++ [.recv msg clock succeeds]) = messages inputs ++ [(msg, clock)] := by
  unfold messages
  rw [List.filterMap_append]
  rfl

theorem messages_concat_tick (inputs : List (SinkInput Value)) (succeeds : Table → Bool) :
    messages (inputs ++ [.tick succeeds]) = messages inputs := by
  unfold messages
  rw [List.filterMap_append]
  exact List.append_nil _

theorem queuedRows_concat_recv [Zero Value] (inputs : List (SinkInput Value))
    (msg : SinkMsg Value) (clock : Nat → UInt64) (succeeds : Table → Bool) (table : Table) :
    queuedRows (inputs ++ [.recv msg clock succeeds]) table =
      queuedRows inputs table ++ msg.rows clock (messages inputs).length table := by
  unfold queuedRows
  rw [messages_concat_recv, List.zipIdx_append, List.flatMap_append, Nat.zero_add]
  exact congrArg (_ ++ ·) (List.append_nil _)

theorem queuedRows_concat_tick [Zero Value] (inputs : List (SinkInput Value))
    (succeeds : Table → Bool) (table : Table) :
    queuedRows (inputs ++ [.tick succeeds]) table = queuedRows inputs table := by
  unfold queuedRows
  rw [messages_concat_tick]

/-- The rows of a message carry its number. -/
theorem origin_message_of_mem_rows [Zero Value] {clock : Nat → UInt64} {message : Nat}
    {msg : SinkMsg Value} {table : Table} {row : Queued (TableRow Value table)}
    (member : row ∈ msg.rows clock message table) : row.origin.message = message := by
  cases msg <;> cases table <;>
    simp only [SinkMsg.rows, List.mem_map, List.mem_singleton, List.not_mem_nil] at member
  all_goals
    obtain ⟨_, _, rfl⟩ := member
    rfl

/-- No message queues a row twice. -/
theorem rows_nodup [Zero Value] (clock : Nat → UInt64) (message : Nat) (msg : SinkMsg Value)
    (table : Table) : (msg.rows clock message table).Nodup := by
  have items : ∀ {Item Row : Type} (list : List (Item × Nat)) (image : Item × Nat → Queued Row),
      (list.map Prod.snd).Nodup → (∀ item, (image item).origin = ⟨message, item.2⟩) →
        (list.map image).Nodup := by
    intro Item Row list image nodup origins
    refine List.Nodup.of_map (fun row => row.origin.item) ?_
    rw [List.map_map]
    have same : ((fun row => row.origin.item) ∘ image) = Prod.snd :=
      funext fun item => congrArg Origin.item (origins item)
    rwa [same]
  have numbered : ∀ {Item : Type} (list : List Item), (list.zipIdx.map Prod.snd).Nodup := by
    intro Item list
    rw [List.zipIdx_map_snd]
    exact List.nodup_range'
  cases msg with
  | batch b =>
    cases table with
    | strings => exact items _ _ (numbered _) fun _ => rfl
    | events =>
      exact items _ _ ((numbered b.events).sublist (List.filter_sublist.map Prod.snd)) fun _ => rfl
    | clockOffsets => exact items _ _ (numbered _) fun _ => rfl
    | kernelSol => exact List.nodup_nil
    | spikes => exact List.nodup_nil
  | kernelSol nodeId sol => cases table <;> simp [SinkMsg.rows]
  | spike row => cases table <;> simp [SinkMsg.rows]

/-- The rows queued so far come from the messages received so far. -/
theorem origin_message_lt [Zero Value] {inputs : List (SinkInput Value)} {table : Table}
    {row : Queued (TableRow Value table)} (member : row ∈ queuedRows inputs table) :
    row.origin.message < (messages inputs).length := by
  obtain ⟨msg, msgMember, rowMember⟩ := List.mem_flatMap.mp member
  rw [origin_message_of_mem_rows rowMember]
  have bound := List.snd_lt_add_of_mem_zipIdx msgMember
  omega

/-- Every queued row is distinct from every other. -/
theorem queuedRows_nodup [Zero Value] (inputs : List (SinkInput Value)) (table : Table) :
    (queuedRows inputs table).Nodup := by
  induction inputs using List.reverseRecOn with
  | nil => exact List.nodup_nil
  | append_singleton inputs input inductionHypothesis =>
    cases input with
    | recv msg clock succeeds =>
      rw [queuedRows_concat_recv]
      refine List.nodup_append.mpr ⟨inductionHypothesis, rows_nodup _ _ _ _, ?_⟩
      intro first firstMember second secondMember same
      have before := origin_message_lt firstMember
      rw [same, origin_message_of_mem_rows secondMember] at before
      exact lt_irrefl _ before
    | tick succeeds =>
      rw [queuedRows_concat_tick]
      exact inductionHypothesis

end PerfWeave
