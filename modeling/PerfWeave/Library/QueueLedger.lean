/-
This file keeps the books of a bounded queue that drops what finds it full and counts it in a
64-bit counter. The ledger records what was admitted and what was handed out, in order, how
many items were refused and how much of the counter was taken. The books balance when the
items handed out followed by those still queued are the items admitted, and what was taken
with what the counter shows is what was refused.
-/

import PerfWeave.Library.BoundedQueue

namespace PerfWeave

variable {Item : Type} {capacity : Nat}

/-- The history of a queue and its counter. -/
structure QueueLedger (Item : Type) where
  admitted : List Item
  returned : List Item
  rejected : Nat
  taken : Nat

namespace QueueLedger

/-- The ledger of a new queue. -/
def new : QueueLedger Item := ⟨[], [], 0, 0⟩

/-- Enter an item sent to a queue. -/
def enter (ledger : QueueLedger Item) (queue : BoundedQueue Item capacity) (item : Item) :
    QueueLedger Item :=
  if queue.items.length < capacity then { ledger with admitted := ledger.admitted ++ [item] }
  else { ledger with rejected := ledger.rejected + 1 }

/-- Enter the items a drain hands out. -/
def handOut (ledger : QueueLedger Item) (items : List Item) : QueueLedger Item :=
  { ledger with returned := ledger.returned ++ items }

/-- Enter the value taken from the counter. -/
def take (ledger : QueueLedger Item) (count : UInt64) : QueueLedger Item :=
  { ledger with taken := ledger.taken + count.toNat }

/-- The books balance. -/
structure Balances (ledger : QueueLedger Item) (queue : BoundedQueue Item capacity)
    (dropped : UInt64) : Prop where
  fifo : ledger.admitted = ledger.returned ++ queue.items
  losses : ledger.rejected = ledger.taken + dropped.toNat

/-- One more fits into the counter. -/
def Countable (dropped : UInt64) : Prop := dropped.toNat + 1 < 2 ^ 64

theorem new_balances : (new : QueueLedger Item).Balances (.empty : BoundedQueue Item capacity) 0 :=
  ⟨rfl, rfl⟩

variable {ledger : QueueLedger Item} {queue next : BoundedQueue Item capacity} {dropped : UInt64}
  {item : Item}

theorem Balances.accept (balances : ledger.Balances queue dropped)
    (sent : queue.trySend item = some next) : (ledger.enter queue item).Balances next dropped := by
  obtain ⟨room, items⟩ := BoundedQueue.items_of_trySend sent
  rw [enter, if_pos room]
  refine ⟨?_, balances.losses⟩
  rw [items, balances.fifo, List.append_assoc]

/-- Refusing an item keeps the balance exactly when the counter does not wrap. -/
theorem Balances.reject_iff (balances : ledger.Balances queue dropped)
    (full : queue.trySend item = none) :
    (ledger.enter queue item).Balances queue (dropped + 1) ↔ Countable dropped := by
  have losses := balances.losses
  have below := dropped.toNat_lt
  have next : (dropped + 1).toNat = (dropped.toNat + 1) % 2 ^ 64 := UInt64.toNat_add dropped 1
  rw [enter, if_neg (BoundedQueue.trySend_eq_none_iff.mp full)]
  unfold Countable
  constructor
  · intro after
    have counted : ledger.rejected + 1 = ledger.taken + (dropped + 1).toNat := after.losses
    omega
  · intro room
    refine ⟨balances.fifo, ?_⟩
    show ledger.rejected + 1 = ledger.taken + (dropped + 1).toNat
    omega

/-- A queue and its counter after an item is sent: the item is queued or counted. -/
def sendOrCount (queue : BoundedQueue Item capacity) (dropped : UInt64) (item : Item) :
    BoundedQueue Item capacity × UInt64 :=
  match queue.trySend item with
  | some next => (next, dropped)
  | none => (queue, dropped + 1)

/-- Sending keeps the balance exactly when there is room or the counter does not wrap. -/
theorem Balances.send_iff (balances : ledger.Balances queue dropped) (item : Item) :
    (ledger.enter queue item).Balances (sendOrCount queue dropped item).1
        (sendOrCount queue dropped item).2 ↔
      queue.items.length < capacity ∨ Countable dropped := by
  unfold sendOrCount
  cases sent : queue.trySend item with
  | some next =>
    exact iff_of_true (balances.accept sent) (.inl (BoundedQueue.items_of_trySend sent).1)
  | none =>
    refine (balances.reject_iff sent).trans (or_iff_right ?_).symm
    exact BoundedQueue.trySend_eq_none_iff.mp sent

theorem Balances.drain (balances : ledger.Balances queue dropped) (limit : Nat) :
    (ledger.handOut (queue.drain limit).1).Balances (queue.drain limit).2 dropped := by
  refine ⟨?_, balances.losses⟩
  show ledger.admitted = (ledger.returned ++ (queue.drain limit).1) ++ (queue.drain limit).2.items
  rw [List.append_assoc, BoundedQueue.drain_append, balances.fifo]

theorem Balances.take (balances : ledger.Balances queue dropped) :
    (ledger.take dropped).Balances queue 0 :=
  ⟨balances.fifo, balances.losses⟩

/-- An item that leaves the queue without being handed out is missing. -/
theorem Balances.not_of_recv (balances : ledger.Balances queue dropped)
    (received : queue.tryRecv = some (item, next)) : ¬ ledger.Balances next dropped := by
  intro after
  have same := balances.fifo.symm.trans after.fifo
  rw [BoundedQueue.items_of_tryRecv received] at same
  have lengths := congrArg List.length (List.append_cancel_left same)
  exact absurd lengths (Nat.succ_ne_self _)

end QueueLedger

end PerfWeave
