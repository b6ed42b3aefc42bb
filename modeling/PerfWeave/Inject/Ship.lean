/-
This file models how the injector ships its batches: `ship` of `perfweave-cupti-inject/src/lib.rs`
with the reconnecting of `transport.rs`. A batch is written as a frame, its length in four
little-endian bytes before it. The outcome of every attempt to connect and of every write is an
input. A write that fails has not delivered the whole frame, so the connections are modelled by
the frames written to them completely.
-/

import PerfWeave.Library.LittleEndian
import PerfWeave.Library.Run
import PerfWeave.Proto

namespace PerfWeave

variable {Value : Type}

/-! ### Frames -/

/-- What the injector uses of the protobuf encoder. -/
structure BatchEncoder (Value : Type) where
  encodedLen : Batch Value → Nat
  encode : Batch Value → Option (List UInt8)

/-- The buffer that `ship` writes; none when the batch does not encode. -/
def shipFrame (encoder : BatchEncoder Value) (batch : Batch Value) : Option (List UInt8) :=
  let len := UInt32.ofNat (encoder.encodedLen batch)
  (encoder.encode batch).map fun encoded => toLeBytes 4 len.toNat ++ encoded

/-! ### Shipping -/

/-- An attempt to connect: refused, or connected and then made blocking or not. -/
inductive ConnectAttempt where
  | refused
  | connected (madeBlocking : Bool)

/-- `reconnect`, over the attempts until its deadline: whether it returns a connection. -/
def reconnect : List ConnectAttempt → Bool
  | [] => false
  | .refused :: rest => reconnect rest
  | .connected madeBlocking :: _ => madeBlocking

/-- Where every connection is made blocking, one attempt that connects is enough. -/
theorem reconnect_iff_connected {attempts : List ConnectAttempt}
    (madeBlocking : ∀ attempt ∈ attempts, attempt ≠ .connected false) :
    reconnect attempts = true ↔ .connected true ∈ attempts := by
  induction attempts with
  | nil => exact iff_of_false Bool.false_ne_true List.not_mem_nil
  | cons attempt rest inductionHypothesis =>
    obtain ⟨first, later⟩ := List.forall_mem_cons.mp madeBlocking
    cases attempt with
    | refused =>
      rw [reconnect, inductionHypothesis later, List.mem_cons, or_iff_right nofun]
    | connected made =>
      cases made with
      | true => exact iff_of_true rfl List.mem_cons_self
      | false => exact absurd rfl first

/-- What happens to the calls that `ship` makes: the attempts to connect when there is no
connection, the first write, the attempts to reconnect and the second write. -/
structure ShipOutcome where
  connecting : List ConnectAttempt
  write : Bool
  reconnecting : List ConnectAttempt
  rewrite : Bool

/-- The injector and the connections it has opened, by number: the frames written completely to
each of them. -/
structure Injector where
  transport : Option Nat
  opened : Nat
  written : Nat → List (List UInt8)
  droppedBatches : UInt64

namespace Injector

/-- The injector before it is initialised. -/
def new : Injector := ⟨none, 0, fun _ => [], 0⟩

/-- The injector on a connection of its own. -/
def connected (injector : Injector) : Injector :=
  { injector with transport := some injector.opened, opened := injector.opened + 1 }

/-- `DROPPED_BATCHES.fetch_add(1)`. -/
def count (injector : Injector) : Injector :=
  { injector with droppedBatches := injector.droppedBatches + 1 }

/-- A write that gets through on a connection. -/
def deliver (injector : Injector) (conn : Nat) (buf : List UInt8) : Injector :=
  { injector with
    written := Function.update injector.written conn (injector.written conn ++ [buf]) }

/-- `ship` once there is a connection. -/
def shipOn (encoder : BatchEncoder Value) (injector : Injector) (conn : Nat) (batch : Batch Value)
    (outcome : ShipOutcome) : Injector :=
  match shipFrame encoder batch with
  | none => injector
  | some buf =>
    if outcome.write then injector.deliver conn buf
    else
      let counted := injector.count
      if reconnect outcome.reconnecting then
        let reconnected := counted.connected
        if outcome.rewrite then reconnected.deliver counted.opened buf else reconnected
      else counted

/-- `ship`. -/
def ship (encoder : BatchEncoder Value) (injector : Injector)
    (call : Batch Value × ShipOutcome) : Injector :=
  match injector.transport with
  | some conn => injector.shipOn encoder conn call.1 call.2
  | none =>
    if reconnect call.2.connecting then
      injector.connected.shipOn encoder injector.opened call.1 call.2
    else injector.count

/-! ### What becomes of a batch -/

/-- A step accounts for its batch: it is written completely to a connection, once, and not counted,
or it is not and is counted once. -/
def Accounts (encoder : BatchEncoder Value) (before after : Injector) (batch : Batch Value) :
    Prop :=
  (∃ buf conn, shipFrame encoder batch = some buf ∧
      after.written = Function.update before.written conn (before.written conn ++ [buf]) ∧
      after.droppedBatches = before.droppedBatches) ∨
    (after.written = before.written ∧ after.droppedBatches = before.droppedBatches + 1)

/-- A batch that finds a connection encodes, and when its first write fails, the second one does
not get through either. -/
def Clean (encoder : BatchEncoder Value) (injector : Injector)
    (call : Batch Value × ShipOutcome) : Prop :=
  injector.transport.isSome ∨ reconnect call.2.connecting →
    (shipFrame encoder call.1).isSome ∧
      (call.2.write = false → reconnect call.2.reconnecting → call.2.rewrite = false)

theorem count_ne (word : UInt64) : word + 1 ≠ word := by
  intro same
  have cancelled : word + 1 - word = word - word := congrArg (· - word) same
  simp at cancelled

theorem update_append_ne (written : Nat → List (List UInt8)) (conn : Nat) (buf : List UInt8) :
    Function.update written conn (written conn ++ [buf]) ≠ written := by
  intro same
  have lengths := congrArg List.length (congrFun same conn)
  rw [Function.update_self, List.length_append, List.length_singleton] at lengths
  omega

/-- What `ship` does on a connection accounts for the batch exactly when it encodes and is not
written by the second write. -/
theorem accounts_shipOn_iff (encoder : BatchEncoder Value) (injector : Injector) (conn : Nat)
    (batch : Batch Value) (outcome : ShipOutcome) :
    Accounts encoder injector (injector.shipOn encoder conn batch outcome) batch ↔
      (shipFrame encoder batch).isSome ∧
        (outcome.write = false → reconnect outcome.reconnecting → outcome.rewrite = false) := by
  unfold Accounts shipOn
  cases framed : shipFrame encoder batch with
  | none =>
    refine iff_of_false ?_ fun both => absurd both.1 Bool.false_ne_true
    rintro (⟨_, _, framed, _⟩ | ⟨_, counted⟩)
    · exact absurd framed nofun
    · exact count_ne _ counted.symm
  | some buf =>
    cases written : outcome.write with
    | true => exact iff_of_true (.inl ⟨buf, conn, rfl, rfl, rfl⟩) ⟨rfl, nofun⟩
    | false =>
      cases back : reconnect outcome.reconnecting with
      | false => exact iff_of_true (.inr ⟨rfl, rfl⟩) ⟨rfl, fun _ => nofun⟩
      | true =>
        cases rewritten : outcome.rewrite with
        | false => exact iff_of_true (.inr ⟨rfl, rfl⟩) ⟨rfl, fun _ _ => rfl⟩
        | true =>
          refine iff_of_false ?_ fun both => absurd (both.2 rfl rfl) nofun
          rintro (⟨_, _, _, _, uncounted⟩ | ⟨unwritten, _⟩)
          · exact count_ne _ uncounted
          · exact update_append_ne _ _ _ unwritten

/-- A call accounts for its batch exactly when it is clean. -/
theorem accounts_ship_iff (encoder : BatchEncoder Value) (injector : Injector)
    (call : Batch Value × ShipOutcome) :
    Accounts encoder injector (injector.ship encoder call) call.1 ↔
      Clean encoder injector call := by
  unfold ship Clean
  cases injector.transport with
  | some conn =>
    rw [accounts_shipOn_iff]
    exact ⟨fun both _ => both, fun clean => clean (.inl rfl)⟩
  | none =>
    cases connects : reconnect call.2.connecting with
    | true =>
      have opened : Accounts encoder injector
          (injector.connected.shipOn encoder injector.opened call.1 call.2) call.1 ↔
          Accounts encoder injector.connected
            (injector.connected.shipOn encoder injector.opened call.1 call.2) call.1 := Iff.rfl
      rw [if_pos rfl, opened, accounts_shipOn_iff]
      exact ⟨fun both _ => both, fun clean => clean (.inr rfl)⟩
    | false =>
      refine iff_of_true (.inr ⟨rfl, rfl⟩) fun connected => ?_
      exact absurd connected (by simp)

/-- Over any calls, every batch is written completely to a connection and not counted, or not and
counted once, exactly when every call that finds a connection encodes its batch and does not get
it through on a second write. -/
theorem every_batch_accounted_iff (encoder : BatchEncoder Value) (start : Injector)
    (calls : List (Batch Value × ShipOutcome)) :
    (∀ before call, before ++ [call] <+: calls →
        Accounts encoder (run (ship encoder) start before)
          (run (ship encoder) start (before ++ [call])) call.1) ↔
      ∀ before call, before ++ [call] <+: calls →
        Clean encoder (run (ship encoder) start before) call := by
  refine forall_congr' fun before => forall_congr' fun call => imp_congr_right fun _ => ?_
  rw [run_concat, accounts_ship_iff]

/-- A batch of nothing. -/
def emptyBatch : Batch Int := ⟨[], [], [], []⟩

/-- The agent has restarted: the first write fails, the second one gets through. -/
def agentRestarted : List (Batch Int × ShipOutcome) :=
  [(emptyBatch, ⟨[.connected true], false, [.refused, .connected true], true⟩)]

/-- A batch that was delivered on the second write is counted as dropped. -/
theorem exists_batch_not_accounted :
    ¬ ∀ (encoder : BatchEncoder Int) (calls : List (Batch Int × ShipOutcome)),
      (∀ batch, (shipFrame encoder batch).isSome) → ∀ before call, before ++ [call] <+: calls →
        Accounts encoder (run (ship encoder) new before)
          (run (ship encoder) new (before ++ [call])) call.1 := by
  intro accounts
  have delivered := accounts ⟨fun _ => 0, fun _ => some []⟩ agentRestarted (fun _ => rfl) [] _
    List.prefix_rfl
  rw [run_concat, accounts_ship_iff] at delivered
  exact absurd ((delivered (.inr rfl)).2 rfl rfl) nofun

end Injector

end PerfWeave
