/-
This file models `handle_conn` of `perfweave-agent/src/sampler/cupti.rs`, the loop that reads the
injector's frames from a connection into the event ring, and proves that it decodes a stream of
frames exactly. One payload buffer serves all frames. The invariant of the loop is that what is
left on the connection begins with a frame, whatever the buffers hold; a frame that does not
decode is read to its end like any other.
-/

import PerfWeave.Agent.EventRing
import PerfWeave.Inject.Ship
import PerfWeave.Library.ChunkedStream

namespace PerfWeave

variable {Value : Type} {capacity : Nat}

/-! ### The loop -/

/-- The largest payload that is read. -/
def maxFrameLen : Nat := 64 * 1024 * 1024

/-- `Vec::resize(len, 0)`. -/
def resizeZero (buf : List UInt8) (len : Nat) : List UInt8 :=
  buf.take len ++ List.replicate (len - buf.length) 0

/-- The events of a batch, pushed in order. -/
def pushAll (ring : EventRing Value capacity) (events : List (Event Value)) :
    EventRing Value capacity :=
  events.foldl EventRing.push ring

/-- The loop of `handle_conn`; none when it has not returned after the given number of turns. -/
def handleLoop (decode : List UInt8 → Option (Batch Value)) :
    Nat → List (List UInt8) → List UInt8 → List UInt8 → EventRing Value capacity →
      Option (EventRing Value capacity)
  | 0, _, _, _, _ => none
  | turns + 1, stream, lenBuf, payload, ring =>
    match readExact lenBuf stream with
    | none => some ring
    | some (lenBuf, stream) =>
      let len := fromLeBytes lenBuf
      if len > maxFrameLen then some ring
      else
        match readExact (resizeZero payload len) stream with
        | none => some ring
        | some (payload, stream) =>
          match decode payload with
          | some b => handleLoop decode turns stream lenBuf payload (pushAll ring b.events)
          | none => handleLoop decode turns stream lenBuf payload ring

/-- `handle_conn`. -/
def handleConn (decode : List UInt8 → Option (Batch Value)) (turns : Nat)
    (stream : List (List UInt8)) (ring : EventRing Value capacity) :
    Option (EventRing Value capacity) :=
  handleLoop decode turns stream (List.replicate 4 0) [] ring

theorem length_resizeZero (buf : List UInt8) (len : Nat) : (resizeZero buf len).length = len := by
  rw [resizeZero, List.length_append, List.length_take, List.length_replicate]
  omega

/-! ### What is sent -/

/-- A frame around the given payload. -/
def frameBytes (payload : List UInt8) : List UInt8 := toLeBytes 4 payload.length ++ payload

/-- A frame on the connection: a batch that the injector ships, or other bytes. -/
inductive SentFrame (Value : Type) where
  | batch (b : Batch Value)
  | noise (payload : List UInt8)

namespace SentFrame

/-- The bytes of a frame. -/
def bytes (encoder : BatchEncoder Value) : SentFrame Value → List UInt8
  | .batch b => (shipFrame encoder b).getD []
  | .noise payload => frameBytes payload

/-- The events that a frame brings. -/
def events : SentFrame Value → List (Event Value)
  | .batch b => b.events
  | .noise _ => []

/-- A frame of admissible length: a batch whose encoding has the announced length and decodes to
it, or bytes that do not decode. -/
def Admissible (encoder : BatchEncoder Value) (decode : List UInt8 → Option (Batch Value)) :
    SentFrame Value → Prop
  | .batch b => ∃ payload, encoder.encode b = some payload ∧
      encoder.encodedLen b = payload.length ∧ decode payload = some b ∧
      payload.length ≤ maxFrameLen
  | .noise payload => decode payload = none ∧ payload.length ≤ maxFrameLen

end SentFrame

/-- A frame cut off before its end. -/
def CutOff (tail : List UInt8) : Prop :=
  ∃ payload, payload.length ≤ maxFrameLen ∧ tail <+: frameBytes payload ∧
    tail.length < (frameBytes payload).length

/-- An admissible frame is a frame around some payload that decodes to its events or not at all. -/
theorem SentFrame.Admissible.payload {encoder : BatchEncoder Value}
    {decode : List UInt8 → Option (Batch Value)} {frame : SentFrame Value}
    (admissible : frame.Admissible encoder decode) :
    ∃ payload, frame.bytes encoder = frameBytes payload ∧ payload.length ≤ maxFrameLen ∧
      ((decode payload).map Batch.events).getD [] = frame.events := by
  cases frame with
  | batch b =>
    obtain ⟨payload, encodes, announced, decodes, bounded⟩ := admissible
    refine ⟨payload, ?_, bounded, ?_⟩
    · have word : (UInt32.ofNat payload.length).toNat = payload.length :=
        UInt32.toNat_ofNat_of_lt' (bounded.trans_lt (by decide))
      rw [SentFrame.bytes, shipFrame, encodes, announced, Option.map_some, Option.getD_some, word]
      rfl
    · rw [decodes]
      rfl
  | noise payload =>
    obtain ⟨fails, bounded⟩ := admissible
    refine ⟨payload, rfl, bounded, ?_⟩
    rw [fails]
    rfl

/-! ### The loop reads frame after frame -/

/-- The length that a frame announces. -/
theorem fromLeBytes_length {payload : List UInt8} (bounded : payload.length ≤ maxFrameLen) :
    fromLeBytes (toLeBytes 4 payload.length) = payload.length := by
  rw [fromLeBytes_toLeBytes]
  exact Nat.mod_eq_of_lt (bounded.trans_lt (by decide))

/-- A turn of the loop on a whole frame reads it and pushes the events of its payload. -/
theorem handleLoop_frame (decode : List UInt8 → Option (Batch Value)) (turns : Nat)
    {stream : List (List UInt8)} {payload rest : List UInt8}
    (bounded : payload.length ≤ maxFrameLen)
    (delivers : stream.flatten = frameBytes payload ++ rest)
    {lenBuf : List UInt8} (four : lenBuf.length = 4) (buf : List UInt8)
    (ring : EventRing Value capacity) :
    ∃ left lenBuf', left.flatten = rest ∧ lenBuf'.length = 4 ∧
      handleLoop decode (turns + 1) stream lenBuf buf ring =
        handleLoop decode turns left lenBuf' payload
          (pushAll ring (((decode payload).map Batch.events).getD [])) := by
  unfold frameBytes at delivers
  rw [List.append_assoc] at delivers
  obtain ⟨afterLen, readLen, leftLen⟩ :=
    readExact_of_append ((length_toLeBytes 4 _).trans four.symm) delivers
  obtain ⟨left, readPayload, leftPayload⟩ :=
    readExact_of_append (length_resizeZero buf payload.length).symm leftLen
  refine ⟨left, toLeBytes 4 payload.length, leftPayload, length_toLeBytes 4 _, ?_⟩
  rw [handleLoop, readLen]
  dsimp only
  rw [fromLeBytes_length bounded, if_neg (not_lt.mpr bounded), readPayload]
  dsimp only
  cases decode payload <;> rfl

/-- A turn of the loop on a frame that is cut off ends it. -/
theorem handleLoop_cutOff (decode : List UInt8 → Option (Batch Value)) (turns : Nat)
    {stream : List (List UInt8)} (cutOff : CutOff stream.flatten) {lenBuf : List UInt8}
    (four : lenBuf.length = 4) (buf : List UInt8) (ring : EventRing Value capacity) :
    handleLoop decode (turns + 1) stream lenBuf buf ring = some ring := by
  obtain ⟨payload, bounded, isPrefix, shorter⟩ := cutOff
  rw [handleLoop]
  by_cases header : stream.flatten.length < 4
  · rw [readExact_eq_none (four ▸ header)]
  · unfold frameBytes at isPrefix shorter
    obtain ⟨part, announced⟩ : toLeBytes 4 payload.length <+: stream.flatten :=
      List.prefix_of_prefix_length_le (List.prefix_append _ _) isPrefix
        (by rw [length_toLeBytes]; omega)
    obtain ⟨afterLen, readLen, leftLen⟩ :=
      readExact_of_append ((length_toLeBytes 4 _).trans four.symm) announced.symm
    have short : afterLen.flatten.length < (resizeZero buf payload.length).length := by
      rw [length_resizeZero, leftLen]
      rw [← announced, List.length_append, List.length_append] at shorter
      omega
    rw [readLen]
    dsimp only
    rw [fromLeBytes_length bounded, if_neg (not_lt.mpr bounded), readExact_eq_none short]

/-- The loop on frames and a last one that is cut off pushes the events of the frames. -/
theorem handleLoop_frames {encoder : BatchEncoder Value}
    {decode : List UInt8 → Option (Batch Value)} {frames : List (SentFrame Value)}
    (admissible : ∀ frame ∈ frames, frame.Admissible encoder decode) {tail : List UInt8}
    (cutOff : CutOff tail) {stream : List (List UInt8)}
    (delivers : stream.flatten = frames.flatMap (SentFrame.bytes encoder) ++ tail)
    {lenBuf : List UInt8} (four : lenBuf.length = 4) (buf : List UInt8)
    (ring : EventRing Value capacity) {turns : Nat} (enough : frames.length < turns) :
    handleLoop decode turns stream lenBuf buf ring =
      some (pushAll ring (frames.flatMap SentFrame.events)) := by
  obtain ⟨turns, rfl⟩ := Nat.exists_eq_succ_of_ne_zero (Nat.ne_zero_of_lt enough)
  induction frames generalizing stream lenBuf buf ring turns with
  | nil => exact handleLoop_cutOff decode turns (delivers ▸ cutOff) four buf ring
  | cons frame rest inductionHypothesis =>
    obtain ⟨payload, isFrame, bounded, decoded⟩ := (admissible frame List.mem_cons_self).payload
    rw [List.flatMap_cons, isFrame, List.append_assoc] at delivers
    obtain ⟨left, lenBuf', leaves, four', turned⟩ :=
      handleLoop_frame decode turns bounded delivers four buf ring
    rw [List.length_cons] at enough
    obtain ⟨turns, rfl⟩ := Nat.exists_eq_succ_of_ne_zero (show turns ≠ 0 by omega)
    rw [turned, inductionHypothesis (fun other member => admissible other
      (List.mem_cons_of_mem _ member)) leaves four' payload _ turns (by omega), decoded,
      List.flatMap_cons, pushAll, pushAll, ← List.foldl_append]
    rfl

/-! ### The ring -/

/-- A push to a ring with room queues the event. -/
theorem EventRing.push_of_room {ring : EventRing Value capacity}
    (room : ring.events.items.length < capacity) (e : Event Value) :
    ∃ events, ring.push e = { ring with events } ∧ events.items = ring.events.items ++ [e] := by
  unfold push
  cases sent : ring.events.trySend e with
  | none => exact absurd room (BoundedQueue.trySend_eq_none_iff.mp sent)
  | some events => exact ⟨events, rfl, (BoundedQueue.items_of_trySend sent).2⟩

/-- Events pushed to a ring with room for them are queued in order. -/
theorem pushAll_of_room {ring : EventRing Value capacity} {events : List (Event Value)}
    (room : ring.events.items.length + events.length ≤ capacity) :
    ∃ queued, pushAll ring events = { ring with events := queued } ∧
      queued.items = ring.events.items ++ events := by
  induction events generalizing ring with
  | nil => exact ⟨ring.events, rfl, (List.append_nil _).symm⟩
  | cons e rest inductionHypothesis =>
    rw [List.length_cons] at room
    obtain ⟨queued, pushed, items⟩ := EventRing.push_of_room
      (show ring.events.items.length < capacity by omega) e
    rw [pushAll, List.foldl_cons, pushed]
    obtain ⟨final, pushedRest, itemsRest⟩ := @inductionHypothesis { ring with events := queued }
      (by rw [items, List.length_append, List.length_singleton]; omega)
    refine ⟨final, pushedRest, ?_⟩
    rw [itemsRest, items, List.append_assoc, List.singleton_append]

/-- Any frames of admissible length on a connection, batches and others, and a last one that may be
cut off, their bytes read in any pieces: the connection's loop returns, and it has queued the
events of the batches in order and done nothing else. -/
theorem handleConn_decodes_stream {encoder : BatchEncoder Value}
    {decode : List UInt8 → Option (Batch Value)} {frames : List (SentFrame Value)}
    (admissible : ∀ frame ∈ frames, frame.Admissible encoder decode) {tail : List UInt8}
    (cutOff : CutOff tail) {stream : List (List UInt8)}
    (delivers : stream.flatten = frames.flatMap (SentFrame.bytes encoder) ++ tail)
    {ring : EventRing Value capacity}
    (room : ring.events.items.length + (frames.flatMap SentFrame.events).length ≤ capacity)
    {turns : Nat} (enough : frames.length < turns) :
    ∃ queued, handleConn decode turns stream ring = some { ring with events := queued } ∧
      queued.items = ring.events.items ++ frames.flatMap SentFrame.events := by
  obtain ⟨queued, pushed, items⟩ := pushAll_of_room room
  refine ⟨queued, ?_, items⟩
  rw [handleConn, handleLoop_frames admissible cutOff delivers rfl [] ring enough, pushed]

/-- An event with every field at its default. -/
def defaultEvent : Event Int := ⟨0, 0, 0, 0, 0, 0, 0, 0, 0, 0, 0, 0, none⟩

/-- A batch of one such event: a field tag and the length of nothing. -/
def defaultEventEncoder : BatchEncoder Int := ⟨fun _ => 2, fun _ => some [0x0a, 0x00]⟩

/-- The decoder on that encoding. -/
def defaultEventDecode (bytes : List UInt8) : Option (Batch Int) :=
  if bytes = [0x0a, 0x00] then some ⟨[defaultEvent], [], [], []⟩ else none

/-- A batch behind bytes that do not decode and before a cut-off frame, in three pieces. -/
theorem handleConn_decodes_batch_behind_noise :
    ∃ queued, handleConn defaultEventDecode 3
        [[1, 0, 0], [0, 0xff, 2, 0, 0, 0, 0x0a], [0x00, 9, 0]] (EventRing.new : EventRing Int 8) =
          some { EventRing.new with events := queued } ∧
      queued.items = [] ++ [SentFrame.noise [0xff], .batch ⟨[defaultEvent], [], [], []⟩].flatMap
        SentFrame.events := by
  refine @handleConn_decodes_stream Int 8 defaultEventEncoder defaultEventDecode
    [.noise [0xff], .batch ⟨[defaultEvent], [], [], []⟩] ?_ [9, 0] ?_ _ ?_ EventRing.new ?_ 3 ?_
  · simp only [List.forall_mem_cons]
    refine ⟨⟨rfl, by decide⟩, ⟨_, rfl, rfl, rfl, by decide⟩, fun _ member => ?_⟩
    exact absurd member List.not_mem_nil
  · exact ⟨List.replicate 9 0, by decide, by decide, by decide⟩
  · decide
  · decide
  · decide

end PerfWeave
