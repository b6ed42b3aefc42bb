/-
This file reads from a connection whose bytes arrive in pieces. A connection is the list of what
its reads give, up to its end; a read never gives more than the buffer has room for, and the rest
of a piece stays for the next one. Filling a buffer gives its bytes whatever the pieces and the
buffer's old contents, and fails exactly when the connection ends before.
-/

import Mathlib

namespace PerfWeave

variable {Byte : Type}

/-- A buffer with some of its bytes replaced, from a position on. -/
def overwrite (buf : List Byte) (position : Nat) (bytes : List Byte) : List Byte :=
  buf.take position ++ bytes ++ buf.drop (position + bytes.length)

/-- Read until a buffer that is filled up to a position is full; none when the connection ends
before that. -/
def fill (buf : List Byte) (filled : Nat) :
    List (List Byte) → Option (List Byte × List (List Byte))
  | [] => if filled = buf.length then some (buf, []) else none
  | piece :: rest =>
    let room := buf.length - filled
    if room ≤ piece.length then
      some (overwrite buf filled (piece.take room), piece.drop room :: rest)
    else fill (overwrite buf filled piece) (filled + piece.length) rest

/-- Read until a buffer is full. -/
def readExact (buf : List Byte) (connection : List (List Byte)) :
    Option (List Byte × List (List Byte)) :=
  fill buf 0 connection

theorem length_overwrite {buf bytes : List Byte} {position : Nat}
    (within : position + bytes.length ≤ buf.length) :
    (overwrite buf position bytes).length = buf.length := by
  simp only [overwrite, List.length_append, List.length_take, List.length_drop]
  omega

theorem take_overwrite {buf bytes : List Byte} {position : Nat} (within : position ≤ buf.length) :
    (overwrite buf position bytes).take (position + bytes.length) =
      buf.take position ++ bytes := by
  unfold overwrite
  have length : (buf.take position ++ bytes).length = position + bytes.length := by
    rw [List.length_append, List.length_take, Nat.min_eq_left within]
  rw [← length, List.take_left]

/-- A piece that has all the bytes asked for starts with them, and keeps what follows. -/
theorem take_and_drop_of_append {piece later bytes rest : List Byte}
    (enough : bytes.length ≤ piece.length) (delivers : piece ++ later = bytes ++ rest) :
    piece.take bytes.length = bytes ∧ piece.drop bytes.length ++ later = rest := by
  have taken := congrArg (List.take bytes.length) delivers
  have dropped := congrArg (List.drop bytes.length) delivers
  rw [List.take_append_of_le_length enough, List.take_left] at taken
  rw [List.drop_append_of_le_length enough, List.drop_left] at dropped
  exact ⟨taken, dropped⟩

/-- Filling a buffer takes the next bytes of the connection. -/
theorem fill_of_append {buf bytes rest : List Byte} {filled : Nat} (within : filled ≤ buf.length)
    (exact : bytes.length = buf.length - filled) {connection : List (List Byte)}
    (delivers : connection.flatten = bytes ++ rest) :
    ∃ left, fill buf filled connection = some (buf.take filled ++ bytes, left) ∧
      left.flatten = rest := by
  induction connection generalizing buf bytes filled with
  | nil =>
    obtain ⟨rfl, rfl⟩ := List.append_eq_nil_iff.mp delivers.symm
    have full : filled = buf.length := by
      rw [List.length_nil] at exact
      omega
    refine ⟨[], ?_, rfl⟩
    rw [fill, if_pos full, full, List.take_length, List.append_nil]
  | cons piece pieces inductionHypothesis =>
    rw [List.flatten_cons] at delivers
    unfold fill
    dsimp only
    split
    · rename_i enough
      rw [← exact] at enough ⊢
      obtain ⟨taken, left⟩ := take_and_drop_of_append enough delivers
      refine ⟨piece.drop bytes.length :: pieces, ?_, left⟩
      rw [taken, overwrite, List.drop_eq_nil_of_le (by omega), List.append_nil]
    · rename_i short
      rw [← exact, not_le] at short
      obtain ⟨later, rfl⟩ : piece <+: bytes :=
        List.prefix_of_prefix_length_le (List.prefix_append _ pieces.flatten)
          (delivers ▸ List.prefix_append _ _) short.le
      rw [List.append_assoc] at delivers
      rw [List.length_append] at exact
      have fits : filled + piece.length ≤ buf.length := by omega
      have length := length_overwrite fits
      obtain ⟨left, filledUp, leaves⟩ := inductionHypothesis (length ▸ fits)
        (show later.length = _ by omega) (List.append_cancel_left delivers)
      rw [take_overwrite within, List.append_assoc] at filledUp
      exact ⟨left, filledUp, leaves⟩

/-- A connection that ends too soon does not fill a buffer. -/
theorem fill_eq_none {buf : List Byte} {filled : Nat} {connection : List (List Byte)}
    (short : connection.flatten.length < buf.length - filled) :
    fill buf filled connection = none := by
  induction connection generalizing buf filled with
  | nil =>
    rw [List.flatten_nil, List.length_nil] at short
    rw [fill, if_neg (by omega)]
  | cons piece pieces inductionHypothesis =>
    rw [List.flatten_cons, List.length_append] at short
    unfold fill
    dsimp only
    rw [if_neg (by omega)]
    refine inductionHypothesis ?_
    rw [length_overwrite (by omega)]
    omega

/-- What is read is what comes first on the connection. -/
theorem readExact_of_append {buf bytes rest : List Byte} (exact : bytes.length = buf.length)
    {connection : List (List Byte)} (delivers : connection.flatten = bytes ++ rest) :
    ∃ left, readExact buf connection = some (bytes, left) ∧ left.flatten = rest :=
  fill_of_append (Nat.zero_le _) exact delivers

theorem readExact_eq_none {buf : List Byte} {connection : List (List Byte)}
    (short : connection.flatten.length < buf.length) : readExact buf connection = none :=
  fill_eq_none short

end PerfWeave
