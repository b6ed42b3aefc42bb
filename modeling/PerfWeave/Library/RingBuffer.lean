/-
This file builds the circular buffer: a fixed array of cells, the position of the next
write and the number of live cells. A push overwrites the cell at the head and moves the
head one cell on, around the end of the array; a read walks the live cells from the oldest.

The content is that none of this is visible: a read after any pushes is the tail of the
pushed values, as many of them as the buffer has cells.
-/

import Mathlib

namespace PerfWeave

/-- A circular buffer of `cap` cells. `head` is the cell the next push writes and `len` the
number of live cells, which end just before the head. -/
structure RingBuffer (Value : Type) (cap : Nat) where
  buf : Vector Value cap
  head : Nat
  len : Nat
  headLt : head < cap
  lenLe : len ≤ cap

namespace RingBuffer

variable {Value : Type} {cap : Nat}

/-- A buffer of `cap` filler cells, none of them live. -/
def empty (cap : Nat) (positive : 0 < cap) (filler : Value) : RingBuffer Value cap where
  buf := Vector.replicate cap filler
  head := 0
  len := 0
  headLt := positive
  lenLe := Nat.zero_le cap

/-- Write the cell at the head and advance the head around the array. -/
def push (ring : RingBuffer Value cap) (value : Value) : RingBuffer Value cap where
  buf := ring.buf.set ring.head value ring.headLt
  head := (ring.head + 1) % cap
  len := if ring.len < cap then ring.len + 1 else ring.len
  headLt := Nat.mod_lt _ (Nat.zero_lt_of_lt ring.headLt)
  lenLe := by
    have bound := ring.lenLe
    split <;> omega

/-- The live cells, oldest first. -/
def read (ring : RingBuffer Value cap) : List Value :=
  if ring.len = 0 then
    []
  else
    let start := (ring.head + cap - ring.len) % cap
    (List.range ring.len).map fun index =>
      ring.buf.get ⟨(start + index) % cap, Nat.mod_lt _ (Nat.zero_lt_of_lt ring.headLt)⟩

/-! ### The cells a read visits -/

/-- The array index of the live cell of the given age rank, rank `0` being the oldest. -/
def cell (ring : RingBuffer Value cap) (rank : Nat) : Nat :=
  ((ring.head + cap - ring.len) % cap + rank) % cap

theorem cell_lt (ring : RingBuffer Value cap) (rank : Nat) : ring.cell rank < cap :=
  Nat.mod_lt _ (Nat.zero_lt_of_lt ring.headLt)

/-- The value of the live cell of the given rank. -/
def live (ring : RingBuffer Value cap) (rank : Nat) : Value :=
  ring.buf.get ⟨ring.cell rank, ring.cell_lt rank⟩

theorem read_eq (ring : RingBuffer Value cap) :
    ring.read = (List.range ring.len).map ring.live := by
  unfold read
  split
  · rename_i none
    rw [none, List.range_zero, List.map_nil]
  · rfl

@[simp]
theorem length_read (ring : RingBuffer Value cap) : ring.read.length = ring.len := by
  rw [read_eq, List.length_map, List.length_range]

/-- Reducing a number below twice the modulus subtracts the modulus at most once. -/
theorem mod_eq_ite (value : Nat) {modulus : Nat} (small : value < 2 * modulus) :
    value % modulus = if value < modulus then value else value - modulus := by
  split
  · rename_i below
    exact Nat.mod_eq_of_lt below
  · rename_i above
    rw [Nat.mod_eq_sub_mod (Nat.le_of_not_lt above), Nat.mod_eq_of_lt (by omega)]

/-- The cell of a live rank without remainders. Rank `len` is the head itself. -/
theorem cell_eq (ring : RingBuffer Value cap) {rank : Nat} (bound : rank ≤ ring.len) :
    ring.cell rank =
      if ring.len ≤ ring.head + rank then ring.head + rank - ring.len
      else ring.head + rank + cap - ring.len := by
  have headLt := ring.headLt
  have lenLe := ring.lenLe
  unfold cell
  rw [mod_eq_ite (ring.head + cap - ring.len) (by omega)]
  split <;> rw [mod_eq_ite _ (by omega)] <;> split <;> split <;> omega

/-! ### One push -/

theorem push_head (ring : RingBuffer Value cap) (value : Value) :
    (ring.push value).head = if ring.head + 1 < cap then ring.head + 1 else 0 := by
  have headLt := ring.headLt
  show (ring.head + 1) % cap = _
  rw [mod_eq_ite _ (by omega)]
  split <;> omega

theorem push_len (ring : RingBuffer Value cap) (value : Value) :
    (ring.push value).len = if ring.len < cap then ring.len + 1 else ring.len := rfl

/-- A push to a buffer with room moves no live cell; a push to a full one retires the
oldest. -/
theorem cell_push (ring : RingBuffer Value cap) (value : Value) {rank : Nat}
    (bound : rank < (ring.push value).len) :
    (ring.push value).cell rank = ring.cell (if ring.len < cap then rank else rank + 1) := by
  have headLt := ring.headLt
  have lenLe := ring.lenLe
  rw [push_len] at bound
  have shifted : (if ring.len < cap then rank else rank + 1) ≤ ring.len := by
    split <;> split at bound <;> omega
  rw [cell_eq _ (by rw [push_len]; omega), cell_eq _ shifted, push_head, push_len]
  split at bound <;> rename_i room
  · rw [if_pos room, if_pos room]
    split <;> split <;> split <;> omega
  · rw [if_neg room, if_neg room]
    split <;> split <;> split <;> omega

/-- Which live cell the head is: none but the youngest after the push. -/
theorem cell_push_eq_head_iff (ring : RingBuffer Value cap) (value : Value) {rank : Nat}
    (bound : rank < (ring.push value).len) :
    ring.head = (ring.push value).cell rank ↔ rank + 1 = (ring.push value).len := by
  have headLt := ring.headLt
  have lenLe := ring.lenLe
  rw [cell_push ring value bound]
  rw [push_len] at bound ⊢
  have shifted : (if ring.len < cap then rank else rank + 1) ≤ ring.len := by
    split <;> split at bound <;> omega
  rw [cell_eq _ shifted]
  split at bound <;> rename_i room
  · rw [if_pos room, if_pos room]
    split <;> omega
  · rw [if_neg room, if_neg room]
    split <;> omega

/-- The live values after a push. -/
theorem live_push (ring : RingBuffer Value cap) (value : Value) {rank : Nat}
    (bound : rank < (ring.push value).len) :
    (ring.push value).live rank =
      if rank + 1 = (ring.push value).len then value
      else ring.live (if ring.len < cap then rank else rank + 1) := by
  have access : (ring.push value).live rank =
      if ring.head = (ring.push value).cell rank then value
      else ring.buf.get ⟨(ring.push value).cell rank, (ring.push value).cell_lt rank⟩ :=
    Vector.getElem_set ring.headLt ((ring.push value).cell_lt rank)
  rw [access]
  by_cases youngest : rank + 1 = (ring.push value).len
  · rw [if_pos youngest, if_pos ((cell_push_eq_head_iff ring value bound).mpr youngest)]
  · rw [if_neg youngest, if_neg (mt (cell_push_eq_head_iff ring value bound).mp youngest)]
    unfold live
    simp only [cell_push ring value bound]

/-- One push as a read sees it: the value is appended, and the oldest one is dropped when the
buffer was full. -/
theorem read_push (ring : RingBuffer Value cap) (value : Value) :
    (ring.push value).read = (ring.read ++ [value]).rtake cap := by
  have lenLe := ring.lenLe
  rw [List.rtake, List.length_append, length_read, List.length_singleton]
  refine List.ext_getElem ?_ fun rank left right => ?_
  · rw [length_read, push_len, List.length_drop, List.length_append, length_read,
      List.length_singleton]
    split <;> omega
  · rw [length_read] at left
    rw [List.getElem_drop, List.getElem_append]
    simp only [read_eq, List.getElem_map, List.getElem_range, List.length_map, List.length_range,
      List.getElem_singleton]
    rw [live_push ring value left]
    rw [push_len] at left ⊢
    split at left <;> rename_i room
    · rw [if_pos room, if_pos room, show ring.len + 1 - cap + rank = rank by omega]
      split <;> split <;> first | rfl | omega
    · rw [if_neg room, if_neg room, show ring.len + 1 - cap + rank = rank + 1 by omega]
      split <;> split <;> first | rfl | omega

/-- The value pushed last is read last. -/
theorem read_push_concat (ring : RingBuffer Value cap) (value : Value) :
    (ring.push value).read = ring.read.rtake (cap - 1) ++ [value] := by
  have positive := Nat.zero_lt_of_lt ring.headLt
  rw [read_push, ← List.rtake_concat_succ, Nat.sub_add_cancel positive]

/-- Different values leave different buffers. -/
theorem push_injective (ring : RingBuffer Value cap) : Function.Injective ring.push := by
  intro first second same
  have reads := congrArg read same
  rw [read_push_concat, read_push_concat] at reads
  exact List.singleton_inj.mp (List.append_cancel_left reads)

/-! ### Any number of pushes -/

/-- The tail of a tail with one value appended is the tail of the whole. -/
theorem rtake_rtake_concat (values : List Value) (value : Value) (count : Nat) :
    (values.rtake count ++ [value]).rtake count = (values ++ [value]).rtake count := by
  cases count with
  | zero => rw [List.rtake_zero, List.rtake_zero]
  | succ count =>
    rw [List.rtake_concat_succ, List.rtake_concat_succ]
    refine congrArg (· ++ [value]) ?_
    rw [List.rtake_eq_reverse_take_reverse, List.rtake_eq_reverse_take_reverse,
      List.rtake_eq_reverse_take_reverse, List.reverse_reverse, List.take_take,
      Nat.min_eq_left (Nat.le_succ count)]

theorem rtake_sublist (values : List Value) (count : Nat) :
    (values.rtake count).Sublist values :=
  List.drop_sublist _ _

theorem rtake_of_length_le {values : List Value} {count : Nat} (short : values.length ≤ count) :
    values.rtake count = values := by
  rw [List.rtake, Nat.sub_eq_zero_of_le short, List.drop_zero]

theorem rtake_ne_nil {values : List Value} {count : Nat} (nonempty : values ≠ [])
    (positive : 0 < count) : values.rtake count ≠ [] := by
  have length := List.length_pos_of_ne_nil nonempty
  refine List.ne_nil_of_length_pos ?_
  rw [List.rtake, List.length_drop]
  omega

theorem rtake_cons_of_le (value : Value) {rest : List Value} {count : Nat}
    (long : count ≤ rest.length) : (value :: rest).rtake count = rest.rtake count := by
  rw [List.rtake, List.rtake, List.length_cons, Nat.succ_sub long, List.drop_succ_cons]

/-- The tail of two lists takes from the first what the second leaves room for. -/
theorem rtake_append (first second : List Value) (count : Nat) :
    (first ++ second).rtake count =
      first.rtake (count - second.length) ++ second.rtake count := by
  rw [List.rtake, List.rtake, List.rtake, List.drop_append, List.length_append]
  rcases Nat.le_total second.length count with room | full
  · rw [show first.length + second.length - count = first.length - (count - second.length) by omega,
      show first.length - (count - second.length) - first.length = second.length - count by omega]
  · rw [Nat.sub_eq_zero_of_le full, Nat.sub_zero, List.drop_length,
      List.drop_of_length_le (by omega),
      show first.length + second.length - count - first.length = second.length - count by omega]

/-- A short list is at the end of a tail exactly when it is the tail of its own length. -/
theorem suffix_rtake_iff {values tail : List Value} {count : Nat} (short : tail.length ≤ count) :
    tail <:+ values.rtake count ↔ values.rtake tail.length = tail := by
  constructor
  · intro suffix
    have whole : tail <:+ values := suffix.trans (List.drop_suffix _ _)
    exact (List.suffix_iff_eq_drop.mp whole).symm
  · intro same
    have nested : values.rtake tail.length <:+ values.rtake count :=
      List.drop_suffix_drop_left values (Nat.sub_le_sub_left short _)
    rwa [same] at nested

/-- A tail is in order exactly when every pair that is out of order is before it. -/
theorem isChain_rtake_iff {relation : Value → Value → Prop} {values : List Value} {count : Nat} :
    (values.rtake count).IsChain relation ↔ ∀ earlier first second later,
      values = earlier ++ first :: second :: later → ¬ relation first second →
        count ≤ later.length + 1 := by
  constructor
  · rintro chain earlier first second later rfl disorder
    by_contra long
    have shown :
        first :: second :: later <:+ (earlier ++ first :: second :: later).rtake count := by
      rw [suffix_rtake_iff (by simp only [List.length_cons]; omega), List.rtake,
        List.length_append, Nat.add_sub_cancel, List.drop_left]
    exact disorder (List.isChain_cons_cons.mp (chain.suffix shown)).1
  · intro before
    by_contra broken
    obtain ⟨rank, bound, disorder⟩ := List.exists_not_getElem_of_not_isChain broken
    rw [List.rtake, List.length_drop] at bound
    simp only [List.rtake, List.getElem_drop] at disorder
    have split := values.take_append_drop (values.length - count + rank)
    rw [List.drop_eq_getElem_cons (by omega), List.drop_eq_getElem_cons (by omega)] at split
    have room := before _ _ _ _ split.symm disorder
    rw [List.length_drop] at room
    omega

/-- Two lists with the same end have the same tail exactly when the first one ends, before that
end, in what the tail of the second one shows of its beginning. -/
theorem rtake_append_eq_iff (held : List Value) {old recent : List Value} {count : Nat}
    (isOld : Value → Bool) (allOld : ∀ value ∈ old, isOld value)
    (noneOld : ∀ value ∈ recent, ¬ isOld value)
    (long : count ≤ (old ++ recent).length) :
    (held ++ recent).rtake count = (old ++ recent).rtake count ↔
      ((old ++ recent).rtake count).filter isOld <:+ held.rtake count := by
  have shown : ((old ++ recent).rtake count).filter isOld =
      old.rtake (count - recent.length) := by
    have oldTail := List.filter_eq_self.mpr fun value member =>
      allOld value ((rtake_sublist old (count - recent.length)).subset member)
    have recentTail := List.filter_eq_nil_iff.mpr fun value member =>
      noneOld value ((rtake_sublist recent count).subset member)
    rw [rtake_append, List.filter_append, oldTail, recentTail, List.append_nil]
  have room : (old.rtake (count - recent.length)).length = count - recent.length := by
    rw [List.length_append] at long
    rw [List.rtake, List.length_drop]
    omega
  rw [shown, suffix_rtake_iff (room.trans_le (Nat.sub_le _ _)), room, rtake_append, rtake_append]
  exact List.append_left_inj _

@[simp]
theorem read_empty (cap : Nat) (positive : 0 < cap) (filler : Value) :
    (empty cap positive filler).read = [] := if_pos rfl

/-- A buffer that holds the tail of a history holds the tail of the history after a push. -/
theorem read_push_of_read {ring : RingBuffer Value cap} {history : List Value}
    (holds : ring.read = history.rtake cap) (value : Value) :
    (ring.push value).read = (history ++ [value]).rtake cap := by
  rw [read_push, holds, rtake_rtake_concat]

end RingBuffer

end PerfWeave
