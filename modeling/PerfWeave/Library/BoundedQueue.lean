/-
This file builds a bounded first-in first-out queue whose type carries the bound: sending to
a full queue is refused, receiving from an empty one gives nothing. Draining is a loop of
receives, and it returns what stands first in the queue.
-/

import Mathlib

namespace PerfWeave

variable {Item : Type} {capacity : Nat}

/-- A queue of at most `capacity` items, oldest first. -/
structure BoundedQueue (Item : Type) (capacity : Nat) where
  items : List Item
  bounded : items.length ≤ capacity

namespace BoundedQueue

/-- The queue with no items. -/
def empty : BoundedQueue Item capacity := ⟨[], Nat.zero_le capacity⟩

/-- Append an item; none when the queue is full. -/
def trySend (queue : BoundedQueue Item capacity) (item : Item) :
    Option (BoundedQueue Item capacity) :=
  if room : queue.items.length < capacity then
    some ⟨queue.items ++ [item], by rw [List.length_append]; exact room⟩
  else
    none

/-- Take the oldest item; none when the queue is empty. -/
def tryRecv (queue : BoundedQueue Item capacity) : Option (Item × BoundedQueue Item capacity) :=
  match queue with
  | ⟨[], _⟩ => none
  | ⟨item :: rest, bounded⟩ => some (item, ⟨rest, (Nat.le_succ _).trans bounded⟩)

/-- Receive until `limit` items are out or the queue is empty. -/
def drain : Nat → BoundedQueue Item capacity → List Item × BoundedQueue Item capacity
  | 0, queue => ([], queue)
  | limit + 1, queue =>
    match queue.tryRecv with
    | none => ([], queue)
    | some (item, rest) =>
      let (out, final) := drain limit rest
      (item :: out, final)

/-- A send that is accepted had room and appends the item. -/
theorem items_of_trySend {queue next : BoundedQueue Item capacity} {item : Item}
    (sent : queue.trySend item = some next) :
    queue.items.length < capacity ∧ next.items = queue.items ++ [item] := by
  unfold trySend at sent
  split at sent
  · rename_i room
    rw [← Option.some.inj sent]
    exact ⟨room, rfl⟩
  · exact absurd sent (by simp)

/-- A send is refused by a full queue only. -/
theorem trySend_eq_none_iff {queue : BoundedQueue Item capacity} {item : Item} :
    queue.trySend item = none ↔ ¬ queue.items.length < capacity := by
  unfold trySend
  split
  · rename_i room
    exact iff_of_false nofun (not_not_intro room)
  · rename_i full
    exact iff_of_true rfl full

/-- What a queue holds after sending was there before or is the item sent. -/
theorem mem_of_trySend {queue next : BoundedQueue Item capacity} {item other : Item}
    (sent : queue.trySend item = some next) (member : other ∈ next.items) :
    other ∈ queue.items ∨ other = item := by
  rw [(items_of_trySend sent).2, List.mem_append, List.mem_singleton] at member
  exact member

/-- A receive takes the first item. -/
theorem items_of_tryRecv {queue next : BoundedQueue Item capacity} {item : Item}
    (received : queue.tryRecv = some (item, next)) : queue.items = item :: next.items := by
  obtain ⟨_ | ⟨first, rest⟩, bounded⟩ := queue
  · exact absurd received nofun
  · obtain ⟨rfl, rfl⟩ := Prod.mk.inj (Option.some.inj received)
    rfl

/-- A receive finds nothing in an empty queue only. -/
theorem tryRecv_eq_none_iff {queue : BoundedQueue Item capacity} :
    queue.tryRecv = none ↔ queue.items = [] := by
  obtain ⟨_ | ⟨first, rest⟩, bounded⟩ := queue
  · exact iff_of_true rfl rfl
  · exact iff_of_false nofun nofun

theorem drain_fst (limit : Nat) (queue : BoundedQueue Item capacity) :
    (drain limit queue).1 = queue.items.take limit := by
  induction limit generalizing queue with
  | zero => rfl
  | succ limit inductionHypothesis =>
    obtain ⟨items, bounded⟩ := queue
    cases items with
    | nil => rfl
    | cons item rest => exact congrArg (item :: ·) (inductionHypothesis ⟨rest, _⟩)

theorem drain_snd_items (limit : Nat) (queue : BoundedQueue Item capacity) :
    (drain limit queue).2.items = queue.items.drop limit := by
  induction limit generalizing queue with
  | zero => rfl
  | succ limit inductionHypothesis =>
    obtain ⟨items, bounded⟩ := queue
    cases items with
    | nil => rfl
    | cons item rest => exact inductionHypothesis ⟨rest, _⟩

/-- What a drain returns and what it leaves are the queue. -/
theorem drain_append (limit : Nat) (queue : BoundedQueue Item capacity) :
    (drain limit queue).1 ++ (drain limit queue).2.items = queue.items := by
  rw [drain_fst, drain_snd_items, List.take_append_drop]

end BoundedQueue

end PerfWeave
