/-
This file builds a broadcast channel: it keeps the newest items up to its capacity, a sender never
waits, and each reader walks through the items at its own position. A reader whose position has
been overwritten is told how many items it missed and goes on at the oldest that is kept. What a
reader gets is therefore part of what was sent since it subscribed, in order, and the items it got
and those it missed add up to its way.
-/

import PerfWeave.Library.RingBuffer

namespace PerfWeave

variable {Item : Type} {capacity : Nat}

/-- A channel that keeps the newest items, oldest first, and counts those it has let go. -/
structure Broadcast (Item : Type) (capacity : Nat) where
  overwritten : Nat
  kept : List Item
  bounded : kept.length ≤ capacity

/-- What a reader is given. -/
inductive Received (Item : Type) where
  | item (item : Item)
  | lagged (missed : Nat)
  | empty

namespace Broadcast

/-- A channel nothing has been sent to. -/
def new : Broadcast Item capacity := ⟨0, [], Nat.zero_le capacity⟩

/-- The number of items sent so far, which is the position of a new reader. -/
def sent (channel : Broadcast Item capacity) : Nat := channel.overwritten + channel.kept.length

/-- Send an item; the oldest one goes when the channel is full. -/
def send (channel : Broadcast Item capacity) (item : Item) : Broadcast Item capacity where
  overwritten := channel.overwritten + (channel.kept.length + 1 - capacity)
  kept := (channel.kept ++ [item]).rtake capacity
  bounded := by
    rw [List.rtake, List.length_drop]
    omega

/-- Receive at a position: the item there and the next position. -/
def recv (channel : Broadcast Item capacity) (position : Nat) : Received Item × Nat :=
  if position < channel.overwritten then
    (.lagged (channel.overwritten - position), channel.overwritten)
  else
    match channel.kept[position - channel.overwritten]? with
    | some item => (.item item, position + 1)
    | none => (.empty, position)

/-! ### The channel and the log -/

/-- A channel keeps the end of the log of all items sent. -/
structure Keeps (channel : Broadcast Item capacity) (log : List Item) : Prop where
  overwritten : channel.overwritten = log.length - capacity
  kept : channel.kept = log.rtake capacity

theorem new_keeps : (new : Broadcast Item capacity).Keeps [] :=
  ⟨(Nat.zero_sub capacity).symm, (List.rtake_nil capacity).symm⟩

variable {channel : Broadcast Item capacity} {log : List Item}

theorem Keeps.length (keeps : channel.Keeps log) :
    channel.kept.length = min log.length capacity := by
  rw [keeps.kept, List.rtake, List.length_drop]
  omega

theorem Keeps.sent (keeps : channel.Keeps log) : channel.sent = log.length := by
  rw [Broadcast.sent, keeps.overwritten, keeps.length]
  omega

theorem Keeps.send (keeps : channel.Keeps log) (item : Item) :
    (channel.send item).Keeps (log ++ [item]) := by
  have length := keeps.length
  have overwritten := keeps.overwritten
  constructor
  · show channel.overwritten + (channel.kept.length + 1 - capacity) = _
    rw [List.length_append, List.length_singleton]
    omega
  · show (channel.kept ++ [item]).rtake capacity = _
    rw [keeps.kept]
    exact RingBuffer.rtake_rtake_concat log item capacity

theorem Keeps.send_all (keeps : channel.Keeps log) (items : List Item) :
    (items.foldl Broadcast.send channel).Keeps (log ++ items) := by
  induction items generalizing channel log with
  | nil =>
    rw [List.append_nil]
    exact keeps
  | cons item rest inductionHypothesis =>
    rw [List.append_cons]
    exact inductionHypothesis (keeps.send item)

/-- The item at a position that is still kept. -/
theorem Keeps.getElem?_kept (keeps : channel.Keeps log) {position : Nat}
    (inTime : channel.overwritten ≤ position) :
    channel.kept[position - channel.overwritten]? = log[position]? := by
  rw [keeps.kept, List.rtake, List.getElem?_drop, ← keeps.overwritten]
  congr 1
  omega

end Broadcast

/-! ### A reader -/

/-- A reader: its position, what it got, oldest first, and how many items it missed. -/
structure Reader (Item : Type) where
  position : Nat
  got : List Item
  missed : Nat

namespace Reader

/-- A reader that subscribes now. -/
def subscribe (channel : Broadcast Item capacity) : Reader Item := ⟨channel.sent, [], 0⟩

/-- One receive. -/
def poll (reader : Reader Item) (channel : Broadcast Item capacity) : Reader Item :=
  match channel.recv reader.position with
  | (.item item, position) => { reader with position, got := reader.got ++ [item] }
  | (.lagged missed, position) => { reader with position, missed := reader.missed + missed }
  | (.empty, _) => reader

/-- A reader that subscribed when the log had some length got part of what was sent since, in
order, and knows how much it missed. -/
structure Follows (reader : Reader Item) (start : Nat) (log : List Item) : Prop where
  since : start ≤ reader.position
  reached : reader.position ≤ log.length
  got : reader.got.Sublist ((log.take reader.position).drop start)
  counted : reader.got.length + reader.missed = reader.position - start

variable {reader : Reader Item} {channel : Broadcast Item capacity} {log : List Item} {start : Nat}

theorem subscribe_follows (keeps : channel.Keeps log) :
    (subscribe channel).Follows log.length log where
  since := keeps.sent.ge
  reached := keeps.sent.le
  got := List.nil_sublist _
  counted := by
    show 0 + 0 = channel.sent - log.length
    rw [keeps.sent, Nat.sub_self]

theorem Follows.sent (follows : reader.Follows start log) (items : List Item) :
    reader.Follows start (log ++ items) where
  since := follows.since
  reached := by
    rw [List.length_append]
    exact follows.reached.trans (Nat.le_add_right _ _)
  got := by
    rw [List.take_append_of_le_length follows.reached]
    exact follows.got
  counted := follows.counted

/-- A receive gives the item at the position, skips what was overwritten, or finds nothing. -/
theorem poll_cases (keeps : channel.Keeps log) (reader : Reader Item) :
    (∃ item, log[reader.position]? = some item ∧ channel.overwritten ≤ reader.position ∧
        reader.poll channel =
          { reader with position := reader.position + 1, got := reader.got ++ [item] }) ∨
      (reader.position < channel.overwritten ∧ reader.poll channel =
          { reader with
            position := channel.overwritten
            missed := reader.missed + (channel.overwritten - reader.position) }) ∨
      (log.length ≤ reader.position ∧ channel.overwritten ≤ reader.position ∧
        reader.poll channel = reader) := by
  unfold poll Broadcast.recv
  by_cases behind : reader.position < channel.overwritten
  · rw [if_pos behind]
    exact .inr (.inl ⟨behind, rfl⟩)
  · rw [if_neg behind, keeps.getElem?_kept (Nat.not_lt.mp behind)]
    cases here : log[reader.position]? with
    | some item => exact .inl ⟨item, rfl, Nat.not_lt.mp behind, rfl⟩
    | none =>
      exact .inr (.inr ⟨List.getElem?_eq_none_iff.mp here, Nat.not_lt.mp behind, rfl⟩)

theorem Follows.poll (follows : reader.Follows start log) (keeps : channel.Keeps log) :
    (reader.poll channel).Follows start log := by
  obtain ⟨since, reached, got, counted⟩ := follows
  rcases poll_cases keeps reader with ⟨item, here, _, next⟩ | ⟨behind, next⟩ | ⟨_, _, next⟩
  · obtain ⟨bound, isItem⟩ := List.getElem?_eq_some_iff.mp here
    rw [next]
    refine ⟨by simp only; omega, by simp only; omega, ?_, ?_⟩
    · show (reader.got ++ [item]).Sublist ((log.take (reader.position + 1)).drop start)
      rw [List.take_succ_eq_append_getElem bound, isItem,
        List.drop_append_of_le_length (by rw [List.length_take]; omega)]
      exact got.append_right [item]
    · simp only [List.length_append, List.length_singleton]
      omega
  · have overwritten := keeps.overwritten
    rw [next]
    refine ⟨by simp only; omega, by simp only; omega, ?_, by simp only; omega⟩
    have longer : (log.take reader.position).Sublist (log.take channel.overwritten) :=
      List.take_sublist_take_left behind.le
    exact got.trans (longer.drop start)
  · rw [next]
    exact ⟨since, reached, got, counted⟩

/-- A reader that missed nothing got everything up to its position. -/
theorem Follows.got_eq_iff (follows : reader.Follows start log) :
    reader.got = (log.take reader.position).drop start ↔ reader.missed = 0 := by
  obtain ⟨since, reached, got, counted⟩ := follows
  have length : ((log.take reader.position).drop start).length = reader.position - start := by
    rw [List.length_drop, List.length_take]
    omega
  constructor
  · intro same
    rw [same, length] at counted
    omega
  · exact fun none => got.eq_of_length (by omega)

/-- A receive misses nothing exactly when the reader is at most the capacity behind. -/
theorem poll_missed_iff (keeps : channel.Keeps log) (reader : Reader Item) :
    (reader.poll channel).missed = reader.missed ↔ log.length ≤ reader.position + capacity := by
  have overwritten := keeps.overwritten
  rcases poll_cases keeps reader with ⟨item, _, inTime, next⟩ | ⟨behind, next⟩ | ⟨_, inTime, next⟩
  · rw [next]
    exact iff_of_true rfl (by omega)
  · rw [next]
    refine iff_of_false ?_ (by omega)
    show ¬ reader.missed + (channel.overwritten - reader.position) = reader.missed
    omega
  · rw [next]
    exact iff_of_true rfl (by omega)

end Reader

end PerfWeave
