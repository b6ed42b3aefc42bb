/-
This file develops texts, read as the lists of their characters: trimming, which does not see blank
text at either end, and the lines of a text. A text made of terminated lines, with either line
ending in any mixture, and of a last line without one has exactly these lines.
-/

import Mathlib

namespace PerfWeave

/-- A text, as the list of its characters. -/
abbrev Text := List Char

/-! ### Trimming -/

/-- The white space of Unicode. -/
def isWhitespace (char : Char) : Bool :=
  let code := char.toNat
  (9 ≤ code && code ≤ 13) || code == 0x20 || code == 0x85 || code == 0xA0 || code == 0x1680 ||
    (0x2000 ≤ code && code ≤ 0x200A) || code == 0x2028 || code == 0x2029 || code == 0x202F ||
    code == 0x205F || code == 0x3000

/-- `str::trim_start`. -/
def trimStart (text : Text) : Text := text.dropWhile isWhitespace

/-- `str::trim_end`. -/
def trimEnd (text : Text) : Text := text.rdropWhile isWhitespace

/-- `str::trim`. -/
def trim (text : Text) : Text := trimEnd (trimStart text)

/-- A text of white space only. -/
def IsBlank (text : Text) : Prop := ∀ char ∈ text, isWhitespace char

instance (text : Text) : Decidable (IsBlank text) :=
  decidable_of_iff (text.all isWhitespace = true) List.all_eq_true

theorem IsBlank.append {first second : Text} (isFirst : IsBlank first) (isSecond : IsBlank second) :
    IsBlank (first ++ second) :=
  List.forall_mem_append.mpr ⟨isFirst, isSecond⟩

theorem trimStart_eq_nil_iff {text : Text} : trimStart text = [] ↔ IsBlank text :=
  List.dropWhile_eq_nil_iff

theorem trimEnd_eq_nil_iff {text : Text} : trimEnd text = [] ↔ IsBlank text :=
  List.rdropWhile_eq_nil_iff

theorem trimStart_blank_append {blank : Text} (isBlank : IsBlank blank) (text : Text) :
    trimStart (blank ++ text) = trimStart text :=
  List.dropWhile_append_of_pos isBlank

theorem trimStart_append {text : Text} (notBlank : ¬ IsBlank text) (rest : Text) :
    trimStart (text ++ rest) = trimStart text ++ rest := by
  have kept : (text.dropWhile isWhitespace).isEmpty = false :=
    List.isEmpty_eq_false_iff.mpr fun empty => notBlank (trimStart_eq_nil_iff.mp empty)
  rw [trimStart, List.dropWhile_append, kept, if_neg Bool.false_ne_true]
  rfl

theorem trimEnd_append_blank (text : Text) {blank : Text} (isBlank : IsBlank blank) :
    trimEnd (text ++ blank) = trimEnd text := by
  rw [trimEnd, List.rdropWhile, List.reverse_append,
    List.dropWhile_append_of_pos fun char member => isBlank char (List.mem_reverse.mp member)]
  rfl

theorem trim_blank_append {blank : Text} (isBlank : IsBlank blank) (text : Text) :
    trim (blank ++ text) = trim text := by
  rw [trim, trimStart_blank_append isBlank, trim]

theorem trim_append_blank (text : Text) {blank : Text} (isBlank : IsBlank blank) :
    trim (text ++ blank) = trim text := by
  by_cases textBlank : IsBlank text
  · rw [trim, trim, trimStart_eq_nil_iff.mpr (textBlank.append isBlank),
      trimStart_eq_nil_iff.mpr textBlank]
  · rw [trim, trim, trimStart_append textBlank, trimEnd_append_blank _ isBlank]

theorem trim_eq_nil_iff {text : Text} : trim text = [] ↔ IsBlank text := by
  refine ⟨fun trimmed => ?_, fun isBlank => by rw [trim, trimStart_eq_nil_iff.mpr isBlank]; rfl⟩
  by_contra notBlank
  have kept : trimStart text ≠ [] := fun empty => notBlank (trimStart_eq_nil_iff.mp empty)
  have first := trimEnd_eq_nil_iff.mp trimmed ((trimStart text).head kept) (List.head_mem kept)
  exact Bool.false_ne_true ((List.head_dropWhile_not isWhitespace kept).symm.trans first)

theorem trim_isPrefix (text : Text) : trim text <+: trimStart text :=
  List.rdropWhile_prefix isWhitespace (trimStart text)

/-! ### Lines -/

/-- A line without the carriage return before its line feed. -/
def stripReturn (line : Text) : Text :=
  if line.getLast? = some '\r' then line.dropLast else line

/-- `str::lines`: the last piece is a line of its own only when it is not empty, and keeps a
carriage return. -/
def lines (text : Text) : List Text :=
  let pieces := text.splitOn '\n'
  pieces.dropLast.map stripReturn ++ pieces.getLast?.toList.filter fun piece => piece ≠ []

theorem lines_terminated {line : Text} (noFeed : '\n' ∉ line) (rest : Text) :
    lines (line ++ '\n' :: rest) = stripReturn line :: lines rest := by
  have more : rest.splitOn '\n' ≠ [] := List.splitOn_ne_nil _ _
  rw [lines, List.splitOn_append_cons_self_of_not_mem noFeed, List.dropLast_cons_of_ne_nil more,
    List.getLast?_cons_of_ne_nil more]
  rfl

theorem lines_unterminated {line : Text} (noFeed : '\n' ∉ line) :
    lines line = if line = [] then [] else [line] := by
  rw [lines, List.splitOn_eq_singleton noFeed]
  by_cases empty : line = [] <;> simp [empty]

/-- A line with its ending; a carriage return before a bare line feed would belong to the
ending. -/
structure TerminatedLine where
  text : Text
  carriageReturn : Bool
  noFeed : '\n' ∉ text
  bare : carriageReturn = false → text.getLast? ≠ some '\r'

/-- The characters of a line and its ending. -/
def TerminatedLine.render (line : TerminatedLine) : Text :=
  line.text ++ if line.carriageReturn then ['\r', '\n'] else ['\n']

theorem lines_render_append (line : TerminatedLine) (rest : Text) :
    lines (line.render ++ rest) = line.text :: lines rest := by
  cases ending : line.carriageReturn with
  | false =>
    have rendered : line.render ++ rest = line.text ++ '\n' :: rest := by
      simp [TerminatedLine.render, ending]
    rw [rendered, lines_terminated line.noFeed, stripReturn, if_neg (line.bare ending)]
  | true =>
    have rendered : line.render ++ rest = (line.text ++ ['\r']) ++ '\n' :: rest := by
      simp [TerminatedLine.render, ending]
    have noFeed : '\n' ∉ line.text ++ ['\r'] := by simp [line.noFeed]
    rw [rendered, lines_terminated noFeed, stripReturn, List.getLast?_concat, if_pos rfl,
      List.dropLast_concat]

/-- The lines of a text are those it is made of. -/
theorem lines_render (terminated : List TerminatedLine) {last : Text} (noFeed : '\n' ∉ last) :
    lines (terminated.flatMap TerminatedLine.render ++ last) =
      terminated.map TerminatedLine.text ++ if last = [] then [] else [last] := by
  induction terminated with
  | nil => exact lines_unterminated noFeed
  | cons line rest inductionHypothesis =>
    rw [List.flatMap_cons, List.append_assoc, lines_render_append, inductionHypothesis]
    rfl

end PerfWeave
