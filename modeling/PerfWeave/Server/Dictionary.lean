/-
This file builds the string dictionary as it is read back: the ReplacingMergeTree `strings`,
which keeps for each id the row first seen last, and the GraphQL resolver `strings(ids)` that reads
it with `FINAL`. The answer is that of the rows inserted, whatever was merged before the query.
Behind the sink, which may store a string more than once when it retries, this means that the
resolver knows the name of every stored event as soon as the event can be seen.
-/

import PerfWeave.Library.MergeTree
import PerfWeave.Server.SinkRuns

namespace PerfWeave

variable {Value : Type}

/-! ### The table -/

/-- A row of `strings`; `first_seen_ns` defaults to the time of the insert. -/
structure DictionaryRow where
  id : UInt64
  text : String
  firstSeenNs : UInt64

/-- How `strings` combines its rows: `ReplacingMergeTree(first_seen_ns) ORDER BY id`. -/
def dictionary : Collapsing UInt64 DictionaryRow :=
  .replacing DictionaryRow.id fun row => row.firstSeenNs.toNat

/-- What happens to the table: the sink inserts a block, or two parts merge. -/
inductive DictionaryInput where
  | insert (firstSeenNs : UInt64) (rows : List StringRow)
  | merge (index : Nat)

/-- The rows an input inserts. -/
def DictionaryInput.rows : DictionaryInput → List DictionaryRow
  | .insert firstSeenNs rows => rows.map fun row => ⟨row.id, row.text, firstSeenNs⟩
  | .merge _ => []

/-- The operation on the table that an input is. -/
def DictionaryInput.op : DictionaryInput → Collapsing.Op DictionaryRow
  | .insert firstSeenNs rows => .insert (DictionaryInput.insert firstSeenNs rows).rows
  | .merge index => .merge index

/-- The rows of `strings` after a run. -/
def dictionaryAfter (inputs : List DictionaryInput) : List DictionaryRow :=
  dictionary.contents (inputs.map DictionaryInput.op)

/-! ### The resolver -/

/-- `StringEntry`. -/
structure StringEntry where
  id : UInt64
  text : String

/-- `strings`: nothing is asked for no ids, else
`SELECT id, text FROM strings FINAL WHERE id IN (…)`, up to the order of the rows. -/
def stringsQuery (rows : List DictionaryRow) (ids : List UInt64) : List StringEntry :=
  if ids.isEmpty then []
  else ((dictionary.collapse rows).filter fun row => row.id ∈ ids).map fun row => ⟨row.id, row.text⟩

/-! ### What is answered -/

theorem dictionaryInput_inserted (inputs : List DictionaryInput) :
    (inputs.map DictionaryInput.op).flatMap Collapsing.Op.inserted =
      inputs.flatMap DictionaryInput.rows := by
  rw [List.flatMap_map]
  refine List.flatMap_congr fun input _ => ?_
  cases input <;> rfl

/-- The row kept of an id is the newest of those inserted. -/
theorem reading_dictionaryAfter (inputs : List DictionaryInput) (id : UInt64)
    (row : DictionaryRow) :
    dictionary.reading (dictionaryAfter inputs) id = some row ↔
      Collapsing.IsNewest DictionaryRow.id (fun row => row.firstSeenNs.toNat)
        (inputs.flatMap DictionaryInput.rows) id row := by
  unfold dictionaryAfter
  rw [dictionary.reading_contents, dictionaryInput_inserted]
  exact Collapsing.reading_replacing_iff

theorem stringsQuery_nodup (rows : List DictionaryRow) (ids : List UInt64) :
    ((stringsQuery rows ids).map StringEntry.id).Nodup := by
  unfold stringsQuery
  split
  · exact List.nodup_nil
  · rw [List.map_map]
    refine List.Nodup.sublist (List.Sublist.map _ List.filter_sublist) ?_
    exact dictionary.nodup_collapse rows

theorem mem_stringsQuery_iff (rows : List DictionaryRow) (ids : List UInt64) (id : UInt64)
    (text : String) :
    ⟨id, text⟩ ∈ stringsQuery rows ids ↔
      id ∈ ids ∧ ∃ row, dictionary.reading rows id = some row ∧ row.text = text := by
  unfold stringsQuery
  split
  · rename_i empty
    rw [List.isEmpty_iff.mp empty]
    exact iff_of_false List.not_mem_nil fun asked => absurd asked.1 List.not_mem_nil
  · rw [List.mem_map]
    constructor
    · rintro ⟨row, member, same⟩
      obtain ⟨kept, asked⟩ := List.mem_filter.mp member
      obtain ⟨rfl, rfl⟩ := StringEntry.mk.inj same
      exact ⟨of_decide_eq_true asked, row, (dictionary.mem_collapse_iff rows row).mp kept, rfl⟩
    · rintro ⟨asked, row, found, rfl⟩
      have ofId : row.id = id := dictionary.key_of_reading found
      subst ofId
      exact ⟨row, List.mem_filter.mpr ⟨(dictionary.mem_collapse_iff rows row).mpr found,
        decide_eq_true asked⟩, rfl⟩

/-- After any run of inserts and merges, and in whatever order the rows of the answer come, the
resolver answers the ids it was asked for with the text of their newest row, each once, and nothing
else. -/
theorem answered_text_is_newest (inputs : List DictionaryInput) (ids : List UInt64)
    (entries : List StringEntry)
    (answer : entries.Perm (stringsQuery (dictionaryAfter inputs) ids)) :
    (entries.map StringEntry.id).Nodup ∧ ∀ id text, ⟨id, text⟩ ∈ entries ↔
      id ∈ ids ∧ ∃ row, Collapsing.IsNewest DictionaryRow.id (fun row => row.firstSeenNs.toNat)
        (inputs.flatMap DictionaryInput.rows) id row ∧ row.text = text := by
  refine ⟨(answer.map StringEntry.id).nodup_iff.mpr (stringsQuery_nodup _ ids), fun id text => ?_⟩
  rw [answer.mem_iff, mem_stringsQuery_iff]
  simp only [reading_dictionaryAfter]

/-- One id announced with two texts, the later row merged into the earlier one. -/
def renamedInputs : List DictionaryInput :=
  [.insert 5 [⟨7, "gemm"⟩], .insert 6 [⟨7, "conv"⟩, ⟨8, "relu"⟩], .merge 0]

theorem answered_text_is_newest_renamed :
    (⟨7, "conv"⟩ : StringEntry) ∈ stringsQuery (dictionaryAfter renamedInputs) [7] := by
  refine ((answered_text_is_newest renamedInputs [7] _ (List.Perm.refl _)).2 7 "conv").mpr
    ⟨List.mem_singleton_self 7, ⟨7, "conv", 6⟩,
      ⟨[⟨7, "gemm", 5⟩], [⟨8, "relu", 6⟩], rfl, rfl, ?_, ?_⟩, rfl⟩
  · simp
  · simp

/-! ### Behind the sink -/

/-- The strings a log of inserts stored, in order. -/
def storedNames (log : List (Insert Value)) : List StringRow :=
  (storedRows log .strings).map fun name => (name.row : StringRow)

/-- The table is filled with the strings a log of inserts stored, in their order; when they were
first seen and what was merged is open. -/
def FedBy (log : List (Insert Value)) (inputs : List DictionaryInput) : Prop :=
  (inputs.flatMap DictionaryInput.rows).map (fun row => (⟨row.id, row.text⟩ : StringRow)) =
    storedNames log

theorem FedBy.mem_iff {log : List (Insert Value)} {inputs : List DictionaryInput}
    (fed : FedBy log inputs) (id : UInt64) (text : String) :
    (∃ row ∈ inputs.flatMap DictionaryInput.rows, row.id = id ∧ row.text = text) ↔
      (⟨id, text⟩ : StringRow) ∈ storedNames log := by
  rw [← fed, List.mem_map]
  refine exists_congr fun row => and_congr_right fun _ => ?_
  rw [StringRow.mk.injEq]

theorem Moment.dictionaryFirst [Zero Value] {cfg : SinkConfig}
    {inputs received : List (SinkInput Value)} {final : Table → Bool} {state : SinkState Value}
    (moment : Moment cfg inputs final received state) : state.DictionaryFirst received :=
  moment.rule
    ⟨SinkState.covers_fresh, fun _ stored => absurd stored List.not_mem_nil⟩
    (fun _ _ input holds => holds.arrive input)
    (fun _ _ succeeds _ isPrefix holds => holds.inserting succeeds isPrefix)
    (fun _ _ _ complete holds => holds.flush complete)

/-- Where no id was announced with two texts, a string that arrived with the batch of a stored
event or before it is answered with its text, at every moment of the sink, however often retries
stored it and whatever was merged. -/
theorem stored_event_name_answered [Zero Value] (cfg : SinkConfig)
    (sinkInputs : List (SinkInput Value)) (final : Table → Bool)
    (received : List (SinkInput Value)) (state : SinkState Value)
    (moment : Moment cfg sinkInputs final received state)
    (oneText : ∀ first ∈ queuedRows received .strings, ∀ second ∈ queuedRows received .strings,
      (first.row : StringRow).id = (second.row : StringRow).id →
        (first.row : StringRow).text = (second.row : StringRow).text)
    (inputs : List DictionaryInput) (fed : FedBy state.log inputs) (ids : List UInt64)
    (entries : List StringEntry)
    (answer : entries.Perm (stringsQuery (dictionaryAfter inputs) ids)) :
    ∀ event ∈ storedRows state.log .events, ∀ name ∈ queuedRows received .strings,
      name.origin.message ≤ event.origin.message → (name.row : StringRow).id ∈ ids →
        ⟨(name.row : StringRow).id, (name.row : StringRow).text⟩ ∈ entries := by
  intro event stored name queued earlier asked
  have first := moment.dictionaryFirst
  have nameStored := first.stringsStored event stored name queued earlier
  obtain ⟨row, inserted, ofId, -⟩ := (fed.mem_iff (name.row : StringRow).id
    (name.row : StringRow).text).mpr (List.mem_map.mpr ⟨name, nameStored, rfl⟩)
  have present :
      (dictionary.reading (dictionaryAfter inputs) (name.row : StringRow).id).isSome := by
    unfold dictionaryAfter
    rw [dictionary.reading_contents, dictionaryInput_inserted, dictionary.isSome_reading_iff]
    exact ⟨row, inserted, ofId⟩
  obtain ⟨kept, found⟩ := Option.isSome_iff_exists.mp present
  obtain ⟨before, after, split, keptId, -, -⟩ := (reading_dictionaryAfter inputs _ kept).mp found
  obtain ⟨other, otherStored, same⟩ := List.mem_map.mp ((fed.mem_iff kept.id kept.text).mp
    ⟨kept, split ▸ List.mem_append_right _ List.mem_cons_self, rfl, rfl⟩)
  have otherQueued := first.covers.queued .strings other (.inl otherStored)
  have otherId : (other.row : StringRow).id = kept.id := congrArg StringRow.id same
  have otherText : (other.row : StringRow).text = kept.text := congrArg StringRow.text same
  rw [answer.mem_iff, mem_stringsQuery_iff]
  refine ⟨asked, kept, found, ?_⟩
  rw [← otherText]
  exact oneText other otherQueued name queued (otherId.trans keptId)

/-- The retry of a flush stored the name of the kernel twice. -/
theorem stored_event_name_answered_retry :
    (⟨11, "gemm"⟩ : StringEntry) ∈ stringsQuery (dictionaryAfter
      [.insert 3 [⟨11, "gemm"⟩], .merge 0, .insert 4 [⟨11, "gemm"⟩]]) [11] := by
  have oneName : ∀ name ∈ queuedRows retryInputs .strings, name = ⟨⟨0, 0⟩, ⟨11, "gemm"⟩⟩ :=
    fun name member => List.mem_singleton.mp member
  exact stored_event_name_answered ⟨50000⟩ retryInputs (fun _ => true) retryInputs _
    (.between List.prefix_rfl)
    (fun first isFirst second isSecond _ => by rw [oneName first isFirst, oneName second isSecond])
    [.insert 3 [⟨11, "gemm"⟩], .merge 0, .insert 4 [⟨11, "gemm"⟩]] rfl [11] _ (List.Perm.refl _)
    namedKernelRow List.mem_cons_self ⟨⟨0, 0⟩, ⟨11, "gemm"⟩⟩ List.mem_cons_self (le_refl 0)
    List.mem_cons_self

end PerfWeave
