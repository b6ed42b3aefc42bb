/-
This file follows the kernels of the live plane: the ingest streams publish them on the broadcast
channel of `perfweave-server/src/live.rs`, the server-sent events of `/api/live/kernels` take them
from there for one browser, and the listener of `web/src/live.ts` files them in a ring that outlives
a connection. The ring shows ingested kernels only, in order and each once; from the moment a
connection opens none is passed over exactly as long as no receive finds the connection more than
the channel behind.
-/

import PerfWeave.Library.Broadcast
import PerfWeave.Library.OrderedImages
import PerfWeave.System.Delivery
import PerfWeave.Web.KernelClick

namespace PerfWeave

variable {Value : Type}

/-! ### The live plane -/

/-- An open connection of a browser: its receiver on the channel, and how many of the events it got
the browser has handled. -/
structure LiveSession where
  reader : Reader LiveKernelEvent
  taken : Nat

/-- What the ingest streams share, the channel of kernels, the connection of a browser and its ring.
The kernels published and those the browser has handled are kept for the record. -/
structure LivePlane (Value : Type) where
  skew : SkewTable
  fast : FastRing Value
  kernels : Broadcast LiveKernelEvent 8192
  session : Option LiveSession
  ring : List LiveKernel
  published : List LiveKernelEvent
  handled : List LiveKernelEvent

/-- What can happen: a batch is ingested; the browser connects; its event stream receives from the
channel; the browser handles an event; the connection ends. -/
inductive LiveInput (Value : Type) where
  | ingest (clock : Nat → UInt64) (batch : Batch Value)
  | connect
  | poll
  | handle
  | disconnect

namespace LivePlane

/-- The live plane before anything has happened. -/
def start : LivePlane Value where
  skew := .new
  fast := .new
  kernels := .new
  session := none
  ring := []
  published := []
  handled := []

variable [Zero Value]

/-- One input. A receiver that has lagged drops the notice and keeps the connection. -/
def step (state : LivePlane Value) : LiveInput Value → LivePlane Value
  | .ingest clock batch =>
    let ingested := ingestBatch clock state.skew state.fast batch
    { state with
      skew := ingested.skew
      fast := ingested.fast
      kernels := ingested.live.foldl .send state.kernels
      published := state.published ++ ingested.live }
  | .connect =>
    match state.session with
    | none => { state with session := some ⟨.subscribe state.kernels, 0⟩ }
    | some _ => state
  | .poll =>
    match state.session with
    | none => state
    | some session =>
      { state with session := some { session with reader := session.reader.poll state.kernels } }
  | .handle =>
    match state.session with
    | none => state
    | some session =>
      match session.reader.got[session.taken]? with
      | none => state
      | some event =>
        { state with
          session := some { session with taken := session.taken + 1 }
          ring := handleKernel state.ring event
          handled := state.handled ++ [event] }
  | .disconnect => { state with session := none }

end LivePlane

/-- The live plane after its inputs. -/
def livePlaneRun [Zero Value] (inputs : List (LiveInput Value)) : LivePlane Value :=
  run LivePlane.step .start inputs

/-- The kernels that the batches of a run bring, in order. -/
def kernelsIngested (inputs : List (LiveInput Value)) : List (Event Value) :=
  inputs.flatMap fun
    | .ingest _ batch => batch.events.filter Event.isKernel
    | _ => []

/-- An event of the live stream is of a kernel, but for a timestamp the clock correction may have
moved. -/
def LiveKernelEvent.Of (k : LiveKernelEvent) (e : Event Value) : Prop :=
  ∃ now tsNs, k = .ofEvent now { e with tsNs := tsNs }

namespace LivePlane

/-! ### A connection -/

/-- A connection that opened when some kernels had been published follows the channel, and the
browser has handled what it had before and what it took from this connection. -/
structure Connected (session : LiveSession) (start : Nat) (earlier : List LiveKernelEvent)
    (state : LivePlane Value) : Prop where
  isOpen : state.session = some session
  follows : session.reader.Follows start state.published
  taken : session.taken ≤ session.reader.got.length
  handled : state.handled = earlier ++ session.reader.got.take session.taken

/-- The channel keeps the end of what was published, and the ring the end of what was handled. -/
structure Kept (state : LivePlane Value) : Prop where
  kernels : state.kernels.Keeps state.published
  ring : state.ring = (state.handled.map LiveKernel.ofEvent).rtake kernelRingSize

variable [Zero Value] {state : LivePlane Value}

/-! ### What an input does -/

theorem step_connect_of_none (closed : state.session = none) : state.step .connect =
    { state with session := some ⟨.subscribe state.kernels, 0⟩ } := by
  unfold step
  simp only [closed]

theorem step_connect_of_some {session : LiveSession} (isOpen : state.session = some session) :
    state.step .connect = state := by
  unfold step
  simp only [isOpen]

theorem step_poll_of_none (closed : state.session = none) : state.step .poll = state := by
  unfold step
  simp only [closed]

theorem step_poll_of_some {session : LiveSession} (isOpen : state.session = some session) :
    state.step .poll = { state with
      session := some { session with reader := session.reader.poll state.kernels } } := by
  unfold step
  simp only [isOpen]

theorem step_handle_of_none (closed : state.session = none) : state.step .handle = state := by
  unfold step
  simp only [closed]

theorem step_handle_of_idle {session : LiveSession} (isOpen : state.session = some session)
    (idle : session.reader.got[session.taken]? = none) : state.step .handle = state := by
  unfold step
  simp only [isOpen, idle]

theorem step_handle_of_some {session : LiveSession} {event : LiveKernelEvent}
    (isOpen : state.session = some session)
    (here : session.reader.got[session.taken]? = some event) :
    state.step .handle = { state with
      session := some { session with taken := session.taken + 1 }
      ring := handleKernel state.ring event
      handled := state.handled ++ [event] } := by
  unfold step
  simp only [isOpen, here]

/-- Without a batch, an input changes the session only, unless the browser handles an event. -/
theorem step_cases (state : LivePlane Value) {input : LiveInput Value}
    (noBatch : ∀ clock batch, input ≠ .ingest clock batch) :
    (∃ session, state.step input = { state with session := session }) ∨
      ∃ session event, state.step input = { state with
        session := session
        ring := handleKernel state.ring event
        handled := state.handled ++ [event] } := by
  cases input with
  | ingest clock batch => exact absurd rfl (noBatch clock batch)
  | disconnect => exact .inl ⟨none, rfl⟩
  | connect =>
    cases isOpen : state.session with
    | none => exact .inl ⟨_, step_connect_of_none isOpen⟩
    | some session => exact .inl ⟨state.session, step_connect_of_some isOpen⟩
  | poll =>
    cases isOpen : state.session with
    | none => exact .inl ⟨state.session, step_poll_of_none isOpen⟩
    | some session => exact .inl ⟨_, step_poll_of_some isOpen⟩
  | handle =>
    cases isOpen : state.session with
    | none => exact .inl ⟨state.session, step_handle_of_none isOpen⟩
    | some session =>
      cases here : session.reader.got[session.taken]? with
      | none => exact .inl ⟨state.session, step_handle_of_idle isOpen here⟩
      | some event => exact .inr ⟨_, event, step_handle_of_some isOpen here⟩

/-- Only a batch publishes. -/
theorem published_of_noBatch {input : LiveInput Value}
    (noBatch : ∀ clock batch, input ≠ .ingest clock batch) :
    (state.step input).published = state.published := by
  rcases step_cases state noBatch with ⟨session, next⟩ | ⟨session, event, next⟩
  · rw [next]
  · rw [next]

/-! ### Connections over a run -/

omit [Zero Value] in
theorem start_kept : (start : LivePlane Value).Kept :=
  ⟨Broadcast.new_keeps, (List.rtake_nil kernelRingSize).symm⟩

omit [Zero Value] in
theorem handleKernel_of_ring (ring : state.ring =
    (state.handled.map LiveKernel.ofEvent).rtake kernelRingSize) (event : LiveKernelEvent) :
    handleKernel state.ring event =
      ((state.handled ++ [event]).map LiveKernel.ofEvent).rtake kernelRingSize := by
  rw [handleKernel, ring, List.map_append, List.map_singleton]
  exact RingBuffer.rtake_rtake_concat _ _ _

theorem Kept.step (kept : state.Kept) (input : LiveInput Value) : (state.step input).Kept := by
  obtain ⟨kernels, ring⟩ := kept
  by_cases noBatch : ∀ clock batch, input ≠ .ingest clock batch
  · rcases step_cases state noBatch with ⟨session, next⟩ | ⟨session, event, next⟩
    · rw [next]
      exact ⟨kernels, ring⟩
    · rw [next]
      refine ⟨kernels, ?_⟩
      dsimp only
      exact handleKernel_of_ring ring event
  · push Not at noBatch
    obtain ⟨clock, batch, rfl⟩ := noBatch
    exact ⟨kernels.send_all _, ring⟩

/-- A connection stays one as long as it neither ends nor opens again. -/
theorem Connected.step {session : LiveSession} {start : Nat} {earlier : List LiveKernelEvent}
    (connected : state.Connected session start earlier) (kept : state.Kept)
    {input : LiveInput Value} (stays : input ≠ .disconnect) :
    ∃ next, (state.step input).Connected next start earlier ∧
      (input ≠ .poll → next.reader = session.reader) ∧
      (input = .poll → next.reader = session.reader.poll state.kernels) := by
  obtain ⟨isSession, follows, taken, handled⟩ := connected
  cases input with
  | ingest clock batch =>
    exact ⟨session, ⟨isSession, follows.sent _, taken, handled⟩, fun _ => rfl,
      fun isPoll => absurd isPoll (by simp)⟩
  | connect =>
    refine ⟨session, ?_, fun _ => rfl, fun isPoll => absurd isPoll (by simp)⟩
    rw [step_connect_of_some isSession]
    exact ⟨isSession, follows, taken, handled⟩
  | disconnect => exact absurd rfl stays
  | poll =>
    have pollTaken : ∃ more, (session.reader.poll state.kernels).got =
        session.reader.got ++ more := by
      rcases Reader.poll_cases kept.kernels session.reader with
        ⟨item, _, _, next⟩ | ⟨_, next⟩ | ⟨_, _, next⟩
      · exact ⟨[item], congrArg Reader.got next⟩
      · exact ⟨[], (congrArg Reader.got next).trans (List.append_nil _).symm⟩
      · exact ⟨[], (congrArg Reader.got next).trans (List.append_nil _).symm⟩
    obtain ⟨more, got⟩ := pollTaken
    rw [step_poll_of_some isSession]
    refine ⟨⟨session.reader.poll state.kernels, session.taken⟩,
      ⟨rfl, follows.poll kept.kernels, ?_, ?_⟩, fun notPoll => absurd rfl notPoll, fun _ => rfl⟩
    · simp only [got, List.length_append]
      omega
    · simp only [got, List.take_append_of_le_length taken]
      exact handled
  | handle =>
    cases here : session.reader.got[session.taken]? with
    | none =>
      rw [step_handle_of_idle isSession here]
      exact ⟨session, ⟨isSession, follows, taken, handled⟩, fun _ => rfl,
        fun isPoll => absurd isPoll (by simp)⟩
    | some event =>
      obtain ⟨bound, isEvent⟩ := List.getElem?_eq_some_iff.mp here
      rw [step_handle_of_some isSession here]
      refine ⟨⟨session.reader, session.taken + 1⟩, ⟨rfl, follows, bound, ?_⟩, fun _ => rfl,
        fun isPoll => absurd isPoll (by simp)⟩
      rw [handled, List.take_succ_eq_append_getElem bound, isEvent, List.append_assoc]

/-! ### What the browser shows -/

/-- What the browser has handled was published before, in order. -/
def Shown (state : LivePlane Value) : Prop :=
  (state.session = none ∧ state.handled.Sublist state.published) ∨
    ∃ session start earlier, state.Connected session start earlier ∧
      earlier.Sublist (state.published.take start)

omit [Zero Value] in
theorem Connected.handled_sublist {session : LiveSession} {start : Nat}
    {earlier : List LiveKernelEvent} (connected : state.Connected session start earlier)
    (before : earlier.Sublist (state.published.take start)) :
    state.handled.Sublist state.published := by
  have here : (session.reader.got.take session.taken).Sublist (state.published.drop start) :=
    (List.take_sublist _ _).trans (connected.follows.got.trans ((List.take_sublist _ _).drop start))
  rw [connected.handled]
  exact (before.append here).trans (by rw [List.take_append_drop])

omit [Zero Value] in
theorem Shown.handled_sublist (shown : state.Shown) : state.handled.Sublist state.published := by
  rcases shown with ⟨_, sublist⟩ | ⟨session, start, earlier, connected, before⟩
  · exact sublist
  · exact connected.handled_sublist before

theorem published_step (input : LiveInput Value) :
    state.published <+: (state.step input).published := by
  by_cases noBatch : ∀ clock batch, input ≠ .ingest clock batch
  · rw [published_of_noBatch noBatch]
  · push Not at noBatch
    obtain ⟨clock, batch, rfl⟩ := noBatch
    exact List.prefix_append _ _

theorem Shown.step (shown : state.Shown) (kept : state.Kept) (input : LiveInput Value) :
    (state.step input).Shown := by
  by_cases ends : input = .disconnect
  · subst ends
    exact .inl ⟨rfl, shown.handled_sublist⟩
  rcases shown with ⟨none, sublist⟩ | ⟨session, start, earlier, connected, before⟩
  · cases input with
    | ingest clock batch =>
      exact .inl ⟨none, sublist.trans (List.sublist_append_left _ _)⟩
    | connect =>
      refine .inr ⟨⟨.subscribe state.kernels, 0⟩, state.published.length, state.handled, ?_, ?_⟩
      · rw [step_connect_of_none none]
        exact ⟨rfl, Reader.subscribe_follows kept.kernels, Nat.zero_le _,
          (List.append_nil _).symm⟩
      · rw [step_connect_of_none none, List.take_length]
        exact sublist
    | poll =>
      rw [step_poll_of_none none]
      exact .inl ⟨none, sublist⟩
    | handle =>
      rw [step_handle_of_none none]
      exact .inl ⟨none, sublist⟩
    | disconnect => exact absurd rfl ends
  · obtain ⟨next, connectedNext, _⟩ := connected.step kept ends
    refine .inr ⟨next, start, earlier, connectedNext, before.trans ?_⟩
    exact ((published_step input).take start).sublist

/-! ### What is published -/

/-- A batch publishes its kernels, in order. -/
theorem live_of_kernels (clock : Nat → UInt64) (skew : SkewTable) (fast : FastRing Value)
    (batch : Batch Value) :
    List.Forall₂ LiveKernelEvent.Of (ingestBatch clock skew fast batch).live
      (batch.events.filter Event.isKernel) := by
  have live : (ingestBatch clock skew fast batch).live =
      ((batch.events.filter Event.isKernel).zipIdx).map fun e => LiveKernelEvent.ofEvent
        (clock e.2) (e.1.skewCorrected (absorbOffsets clock skew batch.offsets)) :=
    foldl_splitEvent_live clock (absorbOffsets clock skew batch.offsets) _ batch.events
  have kernels := List.zipIdx_map_fst 0 (batch.events.filter Event.isKernel)
  rw [live, List.forall₂_map_left_iff, ← kernels, List.forall₂_map_right_iff, kernels,
    List.forall₂_same]
  rintro ⟨e, place⟩ _
  obtain ⟨tsNs, moved, _⟩ := e.skewCorrected_eq (absorbOffsets clock skew batch.offsets)
  exact ⟨clock place, tsNs, congrArg _ moved⟩

theorem step_published (inputs : List (LiveInput Value)) (input : LiveInput Value)
    (published : List.Forall₂ LiveKernelEvent.Of state.published (kernelsIngested inputs)) :
    List.Forall₂ LiveKernelEvent.Of (state.step input).published
      (kernelsIngested (inputs ++ [input])) := by
  unfold kernelsIngested at published ⊢
  rw [List.flatMap_append, List.flatMap_singleton]
  cases input with
  | ingest clock batch => exact List.rel_append published (live_of_kernels _ _ _ _)
  | connect | poll | handle | disconnect =>
    rw [List.append_nil, published_of_noBatch (by simp)]
    exact published

/-- What every run keeps. -/
structure Sound (inputs : List (LiveInput Value)) (state : LivePlane Value) : Prop where
  kept : state.Kept
  shown : state.Shown
  published : List.Forall₂ LiveKernelEvent.Of state.published (kernelsIngested inputs)

theorem run_sound (inputs : List (LiveInput Value)) : (livePlaneRun inputs).Sound inputs := by
  have nothing : (start : LivePlane Value).Sound [] :=
    ⟨start_kept, .inl ⟨rfl, List.Sublist.refl _⟩, .nil⟩
  refine run_induction nothing (fun before input sound => ?_) inputs
  exact ⟨sound.kept.step input, sound.shown.step sound.kept input,
    step_published before input sound.published⟩

end LivePlane

/-- A kernel in the ring of the browser is one of the batches, its timestamp corrected and its
integers rounded to doubles. -/
def LiveKernel.Of (shown : LiveKernel) (e : Event Value) : Prop :=
  ∃ k : LiveKernelEvent, k.Of e ∧ shown = .ofEvent k

/-- Over every run, however often the browser connects and whatever its connections miss, its ring
shows at most the size of the ring, and what it shows are kernels of the ingested batches, in order
and each once. -/
theorem live_ring_follows [Zero Value] (inputs : List (LiveInput Value)) :
    (livePlaneRun inputs).ring.length ≤ kernelRingSize ∧
      List.SublistForall₂ LiveKernel.Of (livePlaneRun inputs).ring (kernelsIngested inputs) := by
  obtain ⟨kept, shown, published⟩ := LivePlane.run_sound inputs
  rw [kept.ring]
  constructor
  · rw [List.rtake, List.length_drop]
    omega
  · have images : List.Forall₂ LiveKernel.Of
        ((livePlaneRun inputs).published.map LiveKernel.ofEvent) (kernelsIngested inputs) := by
      rw [List.forall₂_map_left_iff]
      exact published.imp fun k e isOf => ⟨k, isOf, rfl⟩
    have ring := (RingBuffer.rtake_sublist
      ((livePlaneRun inputs).handled.map LiveKernel.ofEvent) kernelRingSize).trans
        (shown.handled_sublist.map LiveKernel.ofEvent)
    exact sublistForall₂_of_forall₂ ring images

/-! ### A connection that keeps up -/

namespace LivePlane

/-- What the browser has not handled: events its connection got, and every published kernel its
connection has not read. A kernel the channel has overwritten counts until the receive that passes
it over. -/
def onTheWay (state : LivePlane Value) : List LiveKernelEvent :=
  state.session.elim [] fun session =>
    session.reader.got.drop session.taken ++ state.published.drop session.reader.position

/-- Since an earlier state nothing was passed over: what the browser handled since, and what is on
its way, are the kernels published since. -/
def CompleteSince (state earlier : LivePlane Value) : Prop :=
  state.handled ++ state.onTheWay =
    earlier.handled ++ state.published.drop earlier.published.length

/-- A receive of the event stream is at most the capacity of the channel behind. -/
def KeepsUp (state : LivePlane Value) : LiveInput Value → Prop
  | .poll => ∀ session, state.session = some session →
      state.published.length ≤ session.reader.position + 8192
  | _ => True

variable {state earlier : LivePlane Value}

/-- A connection leaves nothing out exactly when its receiver has missed nothing. -/
theorem Connected.completeSince_iff {session : LiveSession}
    (connected : state.Connected session earlier.published.length earlier.handled) :
    state.CompleteSince earlier ↔ session.reader.missed = 0 := by
  obtain ⟨isOpen, follows, taken, handled⟩ := connected
  have reached : (state.published.drop earlier.published.length) =
      (state.published.take session.reader.position).drop earlier.published.length ++
        state.published.drop session.reader.position := by
    conv_lhs => rw [← List.take_append_drop session.reader.position state.published]
    refine List.drop_append_of_le_length ?_
    rw [List.length_take, Nat.min_eq_left follows.reached]
    exact follows.since
  rw [← follows.got_eq_iff, CompleteSince, onTheWay, isOpen, Option.elim_some, handled, reached,
    List.append_assoc, ← List.append_assoc (session.reader.got.take _), List.take_append_drop]
  exact List.append_right_inj _ |>.trans (List.append_left_inj _)

variable [Zero Value]

/-- One input leaves nothing out exactly when the receive it is, if any, keeps up. -/
theorem Connected.completeSince_step_iff {session : LiveSession} {input : LiveInput Value}
    (connected : state.Connected session earlier.published.length earlier.handled)
    (kept : state.Kept) (stays : input ≠ .disconnect) (complete : state.CompleteSince earlier) :
    (state.step input).CompleteSince earlier ↔ state.KeepsUp input := by
  have none := connected.completeSince_iff.mp complete
  obtain ⟨next, connectedNext, still, polled⟩ := connected.step kept stays
  rw [connectedNext.completeSince_iff]
  by_cases isPoll : input = .poll
  · subst isPoll
    have missed := Reader.poll_missed_iff kept.kernels session.reader
    rw [polled rfl]
    rw [none] at missed
    refine missed.trans ⟨fun keepsUp other isOpen => ?_, fun keepsUp => keepsUp _ connected.isOpen⟩
    rwa [← Option.some.inj (connected.isOpen.symm.trans isOpen)]
  · rw [still isPoll]
    refine iff_of_true none ?_
    cases input with
    | poll => exact absurd rfl isPoll
    | ingest _ _ => trivial
    | connect => trivial
    | handle => trivial
    | disconnect => trivial

/-- A connection that has not ended since an earlier state. -/
structure Following (earlier state : LivePlane Value) : Prop where
  kept : state.Kept
  connected : ∃ session,
    state.Connected session earlier.published.length earlier.handled

/-- A connection as it opens. -/
theorem connected_connect (kept : state.Kept) (closed : state.session = none) :
    (state.step .connect).Connected ⟨.subscribe state.kernels, 0⟩ state.published.length
      state.handled := by
  rw [step_connect_of_none closed]
  exact ⟨rfl, Reader.subscribe_follows kept.kernels, Nat.zero_le _, (List.append_nil _).symm⟩

end LivePlane

/-- From the moment a connection opens until it ends, its receives pass no kernel over, so that the
browser has handled, got or yet to read every kernel published since, exactly as long as none of
them finds the event stream more than the 8192 kernels of the channel behind. -/
theorem live_complete_iff [Zero Value] (before : List (LiveInput Value))
    (closed : (livePlaneRun before).session = none) (inputs : List (LiveInput Value))
    (stays : ∀ input ∈ inputs, input ≠ .disconnect) :
    (∀ later, later <+: inputs →
        (run LivePlane.step ((livePlaneRun before).step .connect) later).CompleteSince
          (livePlaneRun before)) ↔
      ∀ later input, later ++ [input] <+: inputs →
        (run LivePlane.step ((livePlaneRun before).step .connect) later).KeepsUp input := by
  have kept := (LivePlane.run_sound before).kept
  have opened := LivePlane.connected_connect kept closed
  have following : LivePlane.Following (livePlaneRun before)
      ((livePlaneRun before).step .connect) := ⟨kept.step _, _, opened⟩
  have complete : ((livePlaneRun before).step .connect).CompleteSince (livePlaneRun before) :=
    opened.completeSince_iff.mpr rfl
  refine @run_always_iff _ _ _ _ _ _ (fun state => state.CompleteSince (livePlaneRun before)) _
    following complete ?_ ?_ inputs stays
  · rintro state input stays ⟨keptHere, session, connected⟩
    obtain ⟨next, connectedNext, _⟩ := connected.step keptHere stays
    exact ⟨keptHere.step input, next, connectedNext⟩
  · rintro state input stays ⟨keptHere, session, connected⟩ completeHere
    exact connected.completeSince_step_iff keptHere stays completeHere

/-- A batch with one kernel. -/
def oneKernelBatch : Batch Nat where
  events := [{
    tsNs := 1000, durationNs := 50, nodeId := 1, gpuId := 0, pid := 7, tid := 7, ctxId := 1
    streamId := 3, category := Category.kernel.asI32, nameId := 11, correlationId := 5
    parentId := 0, payload := none }]
  strings := []
  offsets := []
  metricFrames := []

/-- A kernel published while the browser is connected, on its way. -/
theorem live_complete_iff_oneKernel :
    (∀ later, later <+: [.ingest (fun _ => 0) oneKernelBatch, .connect] →
        (run LivePlane.step ((livePlaneRun [] : LivePlane Nat).step .connect)
          later).CompleteSince (livePlaneRun [])) ↔
      ∀ later input, later ++ [input] <+: [.ingest (fun _ => 0) oneKernelBatch, .connect] →
        (run LivePlane.step ((livePlaneRun [] : LivePlane Nat).step .connect)
          later).KeepsUp input :=
  live_complete_iff [] rfl _ (by simp)

end PerfWeave
