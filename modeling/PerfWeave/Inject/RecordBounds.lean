/-
This file settles how far the parser of activity records looks and how far it gets. It is read once
more over a memory of which only some bytes may be touched, where a record is copied as a whole, so
that a parse with a result is one that has stayed inside; and with the bytes that remain this parse
has the result of the parser. Every exit of the parser takes at least one byte and at most those
that remain, so a loop over a buffer ends with it, whatever the buffer holds.
-/

import PerfWeave.Inject.Activity

namespace PerfWeave

variable {Value : Type}

/-! ### Checked reads -/

/-- The first bytes of a memory; none when one of them may not be touched. -/
def readFirst (memory : Nat → Option UInt8) (size : Nat) : Option (List UInt8) :=
  (List.range size).mapM memory

/-- The bytes of a record, as a buffer. -/
def ofBytes (bytes : List UInt8) (offset : Nat) : UInt8 := bytes.getD offset 0

/-- A record of the given size, whose bytes are copied when they are all there. -/
def checkedRecordOfSize (memory : Nat → Option UInt8) (size remaining : Nat)
    (toEvent : (Nat → UInt8) → Event Value) : Option (Nat × Option (Event Value)) :=
  if remaining < size then
    some (remaining, none)
  else do
    let bytes ← readFirst memory size
    return (size, some (toEvent (ofBytes bytes)))

variable (hash : String → UInt64) (nameAt : UInt64 → String)

/-- `parse_record` over a memory of which only some bytes may be touched. -/
def checkedParseRecord (memory : Nat → Option UInt8) (remaining : Nat) :
    Option (Nat × Option (Event Value)) :=
  if remaining < headerSize then
    some (remaining, none)
  else do
    let header ← readFirst memory headerSize
    let kind := readU32 (ofBytes header) 0
    if kind = ActivityKind.kernel.asU32 ∨ kind = ActivityKind.concurrentKernel.asU32 then
      checkedRecordOfSize memory kernel7Size remaining fun buf =>
        (ActivityKernel7.read buf).toEvent hash nameAt
    else if kind = ActivityKind.memcpy.asU32 ∨ kind = ActivityKind.memcpy2.asU32 then
      checkedRecordOfSize memory memcpy6Size remaining fun buf =>
        (ActivityMemcpy6.read buf).toEvent hash
    else if kind = ActivityKind.memset.asU32 then
      checkedRecordOfSize memory memset4Size remaining fun buf =>
        (ActivityMemset4.read buf).toEvent hash
    else if kind = ActivityKind.runtime.asU32 ∨ kind = ActivityKind.driver.asU32 then
      checkedRecordOfSize memory apiSize remaining fun buf => (ActivityApi.read buf).toEvent hash
    else
      return (headerSize, none)

/-- The memory of the bytes that remain. -/
def firstBytes (buf : Nat → UInt8) (remaining offset : Nat) : Option UInt8 :=
  if offset < remaining then some (buf offset) else none

theorem mapM_eq_some_map {Item Result : Type} {f : Item → Option Result} {g : Item → Result}
    {items : List Item} (all : ∀ item ∈ items, f item = some (g item)) :
    items.mapM f = some (items.map g) := by
  induction items with
  | nil => rfl
  | cons item rest inductionHypothesis =>
    have later := inductionHypothesis fun other member =>
      all other (List.mem_cons_of_mem item member)
    rw [List.mapM_cons, all item List.mem_cons_self, later]
    rfl

theorem readFirst_firstBytes (buf : Nat → UInt8) {size remaining : Nat} (fits : size ≤ remaining) :
    readFirst (firstBytes buf remaining) size = some ((List.range size).map buf) :=
  mapM_eq_some_map fun _ member => if_pos ((List.mem_range.mp member).trans_le fits)

theorem ofBytes_map_range (buf : Nat → UInt8) {size offset : Nat} (inside : offset < size) :
    ofBytes ((List.range size).map buf) offset = buf offset := by
  rw [ofBytes, List.getD_eq_getElem?_getD, List.getElem?_map, List.getElem?_range inside]
  rfl

/-! ### The kinds of records -/

/-- The size of the records of a kind. -/
def recordSize (kind : UInt32) : Option Nat :=
  if kind = ActivityKind.kernel.asU32 ∨ kind = ActivityKind.concurrentKernel.asU32 then
    some kernel7Size
  else if kind = ActivityKind.memcpy.asU32 ∨ kind = ActivityKind.memcpy2.asU32 then
    some memcpy6Size
  else if kind = ActivityKind.memset.asU32 then
    some memset4Size
  else if kind = ActivityKind.runtime.asU32 ∨ kind = ActivityKind.driver.asU32 then
    some apiSize
  else
    none

/-- The event of a record of a kind that has a size. -/
def recordEvent (kind : UInt32) (buf : Nat → UInt8) : Event Value :=
  if kind = ActivityKind.kernel.asU32 ∨ kind = ActivityKind.concurrentKernel.asU32 then
    (ActivityKernel7.read buf).toEvent hash nameAt
  else if kind = ActivityKind.memcpy.asU32 ∨ kind = ActivityKind.memcpy2.asU32 then
    (ActivityMemcpy6.read buf).toEvent hash
  else if kind = ActivityKind.memset.asU32 then
    (ActivityMemset4.read buf).toEvent hash
  else
    (ActivityApi.read buf).toEvent hash

variable {hash nameAt}

theorem recordSize_pos {kind : UInt32} {size : Nat} (known : recordSize kind = some size) :
    1 ≤ size := by
  unfold recordSize at known
  split_ifs at known <;> obtain rfl := Option.some.inj known <;> decide

/-- The parser, by the size of the record in front. -/
theorem parseRecord_eq (buf : Nat → UInt8) {remaining : Nat} (header : headerSize ≤ remaining) :
    (parseRecord hash nameAt buf remaining : Nat × Option (Event Value)) =
      match recordSize (readU32 buf 0) with
      | some size => recordOfSize size remaining (recordEvent hash nameAt (readU32 buf 0) buf)
      | none => (headerSize, none) := by
  unfold parseRecord recordSize recordEvent
  rw [if_neg (by omega)]
  dsimp only
  split_ifs <;> rfl

/-- A read within the first bytes depends on them. -/
theorem readLE_congr_first {first second : Nat → UInt8} {size : Nat}
    (agree : ∀ offset < size, first offset = second offset) (offset width : Nat)
    (fits : offset + width ≤ size) : readLE first offset width = readLE second offset width :=
  readLE_congr fun index _ below => agree index (by omega)

/-- The event of a record depends on its bytes. -/
theorem recordEvent_congr {kind : UInt32} {size : Nat} (known : recordSize kind = some size)
    {first second : Nat → UInt8} (agree : ∀ offset < size, first offset = second offset) :
    (recordEvent hash nameAt kind first : Event Value) = recordEvent hash nameAt kind second := by
  unfold recordSize at known
  unfold recordEvent
  split_ifs at known ⊢ <;> obtain rfl := Option.some.inj known
  · simp (disch := decide) only [ActivityKernel7.read, readU32, readU64,
      readLE_congr_first agree]
  · simp (disch := decide) only [ActivityMemcpy6.read, readU8, readU32, readU64,
      readLE_congr_first agree, agree]
  · simp (disch := decide) only [ActivityMemset4.read, readU32, readU64,
      readLE_congr_first agree]
  · simp (disch := decide) only [ActivityApi.read, readU32, readU64, readLE_congr_first agree]

/-- A checked record, when its bytes are among those that remain. -/
theorem checkedRecordOfSize_firstBytes (buf : Nat → UInt8) (size remaining : Nat)
    (toEvent : (Nat → UInt8) → Event Value)
    (depends : ∀ first second : Nat → UInt8, (∀ offset < size, first offset = second offset) →
      toEvent first = toEvent second) :
    checkedRecordOfSize (firstBytes buf remaining) size remaining toEvent =
      some (recordOfSize size remaining (toEvent buf)) := by
  unfold checkedRecordOfSize recordOfSize
  split
  · rfl
  · rename_i fits
    have same := depends (ofBytes ((List.range size).map buf)) buf fun offset inside =>
      ofBytes_map_range buf inside
    rw [readFirst_firstBytes buf (not_lt.mp fits), Option.bind_eq_bind, Option.bind_some, same]
    rfl

/-- The checked parser, by the size of the record in front. -/
theorem checkedParseRecord_eq (memory : Nat → Option UInt8) {remaining : Nat}
    (header : headerSize ≤ remaining) :
    (checkedParseRecord hash nameAt memory remaining : Option (Nat × Option (Event Value))) =
      (readFirst memory headerSize).bind fun bytes =>
        match recordSize (readU32 (ofBytes bytes) 0) with
        | some size => checkedRecordOfSize memory size remaining
            (recordEvent hash nameAt (readU32 (ofBytes bytes) 0))
        | none => some (headerSize, none) := by
  unfold checkedParseRecord recordSize
  rw [if_neg (by omega)]
  refine Option.bind_congr fun bytes _ => ?_
  dsimp only
  have sameEvents : ∀ (size : Nat) {first second : (Nat → UInt8) → Event Value},
      (∀ buf, first buf = second buf) →
        checkedRecordOfSize memory size remaining first =
          checkedRecordOfSize memory size remaining second := fun size _ _ same =>
    congrArg (checkedRecordOfSize memory size remaining) (funext same)
  split_ifs with kernel copy fill call
  · exact sameEvents _ fun buf => by rw [recordEvent, if_pos kernel]
  · exact sameEvents _ fun buf => by rw [recordEvent, if_neg kernel, if_pos copy]
  · exact sameEvents _ fun buf => by rw [recordEvent, if_neg kernel, if_neg copy, if_pos fill]
  · exact sameEvents _ fun buf => by rw [recordEvent, if_neg kernel, if_neg copy, if_neg fill]
  · rfl

/-- The parser touches no byte but those that remain. -/
theorem checkedParseRecord_firstBytes (buf : Nat → UInt8) (remaining : Nat) :
    checkedParseRecord hash nameAt (firstBytes buf remaining) remaining =
      some (parseRecord hash nameAt buf remaining : Nat × Option (Event Value)) := by
  rcases Nat.lt_or_ge remaining headerSize with short | header
  · rw [checkedParseRecord, parseRecord, if_pos short, if_pos short]
  · have kind : readU32 (ofBytes ((List.range headerSize).map buf)) 0 = readU32 buf 0 :=
      congrArg UInt32.ofNat
        (readLE_congr_first (fun offset inside => ofBytes_map_range buf inside) 0 4 (by decide))
    rw [checkedParseRecord_eq _ header, parseRecord_eq buf header,
      readFirst_firstBytes buf header, Option.bind_some, kind]
    cases known : recordSize (readU32 buf 0) with
    | none => rfl
    | some size =>
      exact checkedRecordOfSize_firstBytes buf size remaining _ fun first second agree =>
        recordEvent_congr known agree

/-- What the parser can do: take all that remains, skip a header, or take a whole record and make
its event. -/
theorem parseRecord_cases {buf : Nat → UInt8} {remaining : Nat}
    {parsed : Nat × Option (Event Value)}
    (isParsed : parseRecord hash nameAt buf remaining = parsed) :
    parsed = (remaining, none) ∨
      (headerSize ≤ remaining ∧ parsed = (headerSize, none)) ∨
      ∃ size, recordSize (readU32 buf 0) = some size ∧ size ≤ remaining ∧
        parsed = (size, some (recordEvent hash nameAt (readU32 buf 0) buf)) := by
  rcases Nat.lt_or_ge remaining headerSize with short | header
  · rw [parseRecord, if_pos short] at isParsed
    exact .inl isParsed.symm
  · rw [parseRecord_eq buf header] at isParsed
    cases known : recordSize (readU32 buf 0) with
    | none =>
      rw [known] at isParsed
      exact .inr (.inl ⟨header, isParsed.symm⟩)
    | some size =>
      rw [known] at isParsed
      unfold recordOfSize at isParsed
      dsimp only at isParsed
      split at isParsed
      · exact .inl isParsed.symm
      · rename_i fits
        exact .inr (.inr ⟨size, rfl, not_lt.mp fits, isParsed.symm⟩)

/-- A record takes at least one byte and at most those that remain. -/
theorem parseRecord_consumed {buf : Nat → UInt8} {remaining : Nat} (positive : 1 ≤ remaining)
    {parsed : Nat × Option (Event Value)}
    (isParsed : parseRecord hash nameAt buf remaining = parsed) :
    1 ≤ parsed.1 ∧ parsed.1 ≤ remaining := by
  rcases parseRecord_cases isParsed with rfl | ⟨header, rfl⟩ | ⟨size, known, fits, rfl⟩
  · exact ⟨positive, le_rfl⟩
  · exact ⟨(by decide : 1 ≤ headerSize), header⟩
  · exact ⟨recordSize_pos known, fits⟩

/-- An event comes of a whole record, which is what the parser takes. -/
theorem recordSize_of_parseRecord {buf : Nat → UInt8} {remaining : Nat}
    {parsed : Nat × Option (Event Value)}
    (isParsed : parseRecord hash nameAt buf remaining = parsed) (event : parsed.2.isSome) :
    recordSize (readU32 buf 0) = some parsed.1 ∧ parsed.1 ≤ remaining := by
  rcases parseRecord_cases isParsed with rfl | ⟨_, rfl⟩ | ⟨size, known, fits, rfl⟩
  · exact absurd event Bool.false_ne_true
  · exact absurd event Bool.false_ne_true
  · exact ⟨known, fits⟩

/-! ### A loop over a buffer -/

/-- What a loop over a buffer has behind it: the bytes taken, those that remain, the events. -/
structure RecordLoop (Value : Type) where
  offset : Nat
  remaining : Nat
  events : List (Event Value)

variable (hash nameAt)

/-- One turn of the loop: the record in front is taken off. -/
def RecordLoop.turn (buf : Nat → UInt8) (loop : RecordLoop Value) : RecordLoop Value :=
  let parsed := parseRecord hash nameAt (fun index => buf (loop.offset + index)) loop.remaining
  { offset := loop.offset + parsed.1
    remaining := loop.remaining - parsed.1
    events := loop.events ++ parsed.2.toList }

/-- A turn keeps within the buffer, and it gets on while something remains. -/
theorem RecordLoop.turn_advances (buf : Nat → UInt8) (loop : RecordLoop Value) :
    (loop.turn hash nameAt buf).offset + (loop.turn hash nameAt buf).remaining =
        loop.offset + loop.remaining ∧
      (loop.turn hash nameAt buf).remaining ≤ loop.remaining - 1 := by
  unfold turn
  generalize isParsed : parseRecord hash nameAt (fun index => buf (loop.offset + index))
    loop.remaining = parsed
  dsimp only
  rcases Nat.eq_zero_or_pos loop.remaining with done | positive
  · rw [parseRecord, if_pos (by rw [done]; decide)] at isParsed
    rw [← isParsed]
    dsimp only
    omega
  · have consumed := parseRecord_consumed positive isParsed
    omega

/-- The bytes taken and those that remain are those of the buffer, and every turn takes one. -/
theorem RecordLoop.iterate_turn (buf : Nat → UInt8) (loop : RecordLoop Value) (turns : Nat) :
    ((turn hash nameAt buf)^[turns] loop).offset +
          ((turn hash nameAt buf)^[turns] loop).remaining = loop.offset + loop.remaining ∧
      ((turn hash nameAt buf)^[turns] loop).remaining ≤ loop.remaining - turns := by
  induction turns with
  | zero => exact ⟨rfl, le_rfl⟩
  | succ turns inductionHypothesis =>
    rw [Function.iterate_succ_apply']
    have advances := turn_advances hash nameAt buf ((turn hash nameAt buf)^[turns] loop)
    omega

/-- The parser takes at least one byte and at most those that remain; it touches no others and
makes an event of a whole record only; and a loop over the bytes of a buffer is through after so
many turns as there are bytes at the latest. -/
theorem parseRecord_advances (hash : String → UInt64) (nameAt : UInt64 → String)
    (buf : Nat → UInt8) (remaining : Nat) (positive : 1 ≤ remaining)
    (parsed : Nat × Option (Event Value))
    (isParsed : parseRecord hash nameAt buf remaining = parsed) :
    (1 ≤ parsed.1 ∧ parsed.1 ≤ remaining) ∧
      checkedParseRecord hash nameAt (firstBytes buf remaining) remaining = some parsed ∧
      (parsed.2.isSome → ∃ size, recordSize (readU32 buf 0) = some size ∧ size ≤ remaining) ∧
      ((RecordLoop.turn hash nameAt buf)^[remaining]
        (⟨0, remaining, []⟩ : RecordLoop Value)).remaining = 0 := by
  refine ⟨parseRecord_consumed positive isParsed, ?_, fun event => ⟨parsed.1, ?_⟩, ?_⟩
  · rw [checkedParseRecord_firstBytes, isParsed]
  · exact recordSize_of_parseRecord isParsed event
  · have through := (RecordLoop.iterate_turn hash nameAt buf
      (⟨0, remaining, []⟩ : RecordLoop Value) remaining).2
    exact Nat.le_zero.mp (through.trans_eq (Nat.sub_self remaining))

/-- The record of a runtime call, and ten bytes of a kernel record. -/
def cutOffBuffer (offset : Nat) : UInt8 :=
  if offset = 0 then 5 else if offset = 40 then 3 else 0

/-- The call is taken and becomes an event, what is left of the kernel is skipped, and a loop is
through. -/
theorem parseRecord_advances_cutOff :
    checkedParseRecord (fun _ => 0) (fun _ => "") (firstBytes cutOffBuffer 50) 50 =
        some (40, some ((ActivityApi.read cutOffBuffer).toEvent fun _ => 0 : Event Nat)) ∧
      checkedParseRecord (fun _ => 0) (fun _ => "")
        (firstBytes (fun offset => cutOffBuffer (40 + offset)) 10) 10 =
          some (10, (none : Option (Event Nat))) ∧
      ((RecordLoop.turn (fun _ => 0) (fun _ => "") cutOffBuffer)^[50]
        (⟨0, 50, []⟩ : RecordLoop Nat)).remaining = 0 :=
  have call := parseRecord_advances (fun _ => 0) (fun _ => "") cutOffBuffer 50 (by decide)
    (40, some ((ActivityApi.read cutOffBuffer).toEvent fun _ => 0 : Event Nat)) rfl
  have kernel := parseRecord_advances (fun _ => 0) (fun _ => "")
    (fun offset => cutOffBuffer (40 + offset)) 10 (by decide) (10, (none : Option (Event Nat))) rfl
  ⟨call.2.1, kernel.2.1, call.2.2.2⟩

end PerfWeave
