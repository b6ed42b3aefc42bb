/-
This file models the migrations of `perfweave-server/src/store/migrations.rs`: how a script is
split into statements and how these are sent to the database, one after the other up to the first
that fails. Over them stand the scripts a person writes, as lists of statements, and the texts
that show such a script with comment lines anywhere; the database receives the statements of the
script, whatever the text looks like.
-/

import PerfWeave.Library.Text

namespace PerfWeave

variable {Failure : Type}

/-! ### Splitting a script -/

/-- Whether a text starts with the mark of a comment. -/
def startsComment (text : Text) : Bool := ['-', '-'].isPrefixOf text

/-- A line that is skipped. -/
def isCommentLine (line : Text) : Bool := startsComment (trimStart line)

/-- A line that ends a statement. -/
def endsStatement (line : Text) : Bool := (trimEnd line).getLast? == some ';'

/-- The loop of `split_statements`: the statements so far and the buffer of the next one. -/
structure SplitState where
  out : List Text
  buf : Text

/-- The buffer with one more line. -/
def pushLine (buf line : Text) : Text := buf ++ line ++ ['\n']

/-- One round of the loop. -/
def SplitState.step (state : SplitState) (line : Text) : SplitState :=
  if isCommentLine line then state
  else
    let buf := pushLine state.buf line
    if endsStatement line then ⟨state.out ++ [buf], []⟩ else ⟨state.out, buf⟩

/-- What is left in the buffer is a statement when it is not blank. -/
def SplitState.finish (state : SplitState) : List Text :=
  if trim state.buf ≠ [] then state.out ++ [state.buf] else state.out

/-- `split_statements`. -/
def splitStatements (sql : Text) : List Text :=
  ((lines sql).foldl SplitState.step ⟨[], []⟩).finish

/-! ### Applying the migrations -/

/-- `preview`. -/
def preview (statement : Text) : Text := statement.take 80

/-- The error of a failed statement: its context and the error of the database. -/
structure MigrationError (Failure : Type) where
  context : Text
  source : Failure

/-- The context of the error. -/
def migrationContext (name statement : Text) : Text :=
  "migration ".toList ++ name ++ " failed at statement starting: ".toList ++ preview statement

/-- The database: its answer to a statement after the statements it has received. -/
abbrev MigrationDatabase (Failure : Type) := List Text → Text → Except Failure Unit

/-- The statements the database has received, and how the migrations have ended. -/
abbrev MigrationOutcome (Failure : Type) := List Text × Except (MigrationError Failure) Unit

/-- The inner loop of `apply`. -/
def applyStatements (execute : MigrationDatabase Failure) (name : Text) :
    List Text → List Text → MigrationOutcome Failure
  | sent, [] => (sent, .ok ())
  | sent, stmt :: rest =>
    let trimmed := trim stmt
    if trimmed = [] ∨ startsComment trimmed then applyStatements execute name sent rest
    else
      match execute sent trimmed with
      | .ok () => applyStatements execute name (sent ++ [trimmed]) rest
      | .error source => (sent ++ [trimmed], .error ⟨migrationContext name trimmed, source⟩)

/-- `apply` over migrations with their names, from what the database has received before. -/
def applyScripts (execute : MigrationDatabase Failure) :
    List Text → List (Text × Text) → MigrationOutcome Failure
  | sent, [] => (sent, .ok ())
  | sent, (name, sql) :: rest =>
    match applyStatements execute name sent (splitStatements sql) with
    | (sent, .ok ()) => applyScripts execute sent rest
    | (sent, .error error) => (sent, .error error)

/-! ### Scripts -/

/-- The text of a statement: its lines, without the blanks around them. -/
def statementText (lines : List Text) : Text := trim (['\n'].intercalate lines)

/-- Lines of one statement: none is a comment, and the first is not blank. -/
structure IsStatement (lines : List Text) : Prop where
  noComment : ∀ line ∈ lines, isCommentLine line = false
  starts : ∃ first, lines.head? = some first ∧ ¬ IsBlank first

/-- A statement, of which only the last line ends with a semicolon, and the blank lines before
it. -/
structure Statement where
  gap : List Text
  body : List Text
  last : Text
  gapBlank : ∀ line ∈ gap, IsBlank line
  isStatement : IsStatement (body ++ [last])
  isOpen : ∀ line ∈ body, endsStatement line = false
  ends : endsStatement last = true

/-- The text that is sent for a statement. -/
def Statement.text (statement : Statement) : Text :=
  statementText (statement.body ++ [statement.last])

/-- The lines of a statement with those before it. -/
def Statement.lines (statement : Statement) : List Text :=
  statement.gap ++ (statement.body ++ [statement.last])

/-- The end of a script: blank lines and a last statement that has no semicolon, or nothing. -/
structure ScriptTail where
  gap : List Text
  body : List Text
  gapBlank : ∀ line ∈ gap, IsBlank line
  isStatement : body = [] ∨ IsStatement body
  isOpen : ∀ line ∈ body, endsStatement line = false

/-- The text that is sent for the end of a script, if any. -/
def ScriptTail.texts (tail : ScriptTail) : List Text :=
  if tail.body = [] then [] else [statementText tail.body]

/-- A script. -/
structure Script where
  statements : List Statement
  tail : ScriptTail

/-- The statements of a script, in order. -/
def Script.texts (script : Script) : List Text :=
  script.statements.map Statement.text ++ script.tail.texts

/-- The lines of a script, without the comments. -/
def Script.lines (script : Script) : List Text :=
  script.statements.flatMap Statement.lines ++ (script.tail.gap ++ script.tail.body)

/-- A text of a script: lines with their endings and a last line without one, which are the lines
of the script once the comment lines among them are removed. -/
structure RenderedScript where
  script : Script
  terminated : List TerminatedLine
  last : Text
  noFeed : '\n' ∉ last
  shows : (terminated.map TerminatedLine.text ++ if last = [] then [] else [last]).filter
    (fun line => !isCommentLine line) = script.lines

/-- The text itself. -/
def RenderedScript.sql (rendered : RenderedScript) : Text :=
  rendered.terminated.flatMap TerminatedLine.render ++ rendered.last

/-! ### The lines of a script -/

/-- The buffer after the lines. -/
def bufferOf (lines : List Text) : Text := lines.flatMap (· ++ ['\n'])

theorem foldl_pushLine (lines : List Text) (buf : Text) :
    lines.foldl pushLine buf = buf ++ bufferOf lines := by
  induction lines generalizing buf with
  | nil => exact (List.append_nil buf).symm
  | cons line rest inductionHypothesis =>
    rw [List.foldl_cons, inductionHypothesis, pushLine, bufferOf, bufferOf, List.flatMap_cons,
      List.append_assoc, List.append_assoc, List.append_assoc]

theorem bufferOf_append (first second : List Text) :
    bufferOf (first ++ second) = bufferOf first ++ bufferOf second := List.flatMap_append

theorem isBlank_feed : IsBlank ['\n'] := List.forall_mem_singleton.mpr rfl

theorem bufferOf_blank {lines : List Text} (blank : ∀ line ∈ lines, IsBlank line) :
    IsBlank (bufferOf lines) := by
  intro char member
  obtain ⟨line, lineMember, charMember⟩ := List.mem_flatMap.mp member
  exact (blank line lineMember).append isBlank_feed char charMember

theorem bufferOf_eq_intercalate {lines : List Text} (notNil : lines ≠ []) :
    bufferOf lines = ['\n'].intercalate lines ++ ['\n'] := by
  induction lines with
  | nil => exact absurd rfl notNil
  | cons line rest inductionHypothesis =>
    cases rest with
    | nil => simp [bufferOf]
    | cons next others =>
      rw [bufferOf, List.flatMap_cons, ← bufferOf, inductionHypothesis (by simp)]
      simp [List.intercalate]

/-- The buffer of a statement and the blank lines before it has the text of the statement. -/
theorem trim_bufferOf {gap body : List Text} (gapBlank : ∀ line ∈ gap, IsBlank line)
    (notNil : body ≠ []) : trim (bufferOf (gap ++ body)) = statementText body := by
  rw [bufferOf_append, trim_blank_append (bufferOf_blank gapBlank), bufferOf_eq_intercalate notNil,
    trim_append_blank _ isBlank_feed, statementText]

theorem isCommentLine_of_blank {line : Text} (blank : IsBlank line) :
    isCommentLine line = false := by
  rw [isCommentLine, trimStart_eq_nil_iff.mpr blank]
  rfl

theorem endsStatement_of_blank {line : Text} (blank : IsBlank line) :
    endsStatement line = false := by
  rw [endsStatement, trimEnd_eq_nil_iff.mpr blank]
  rfl

/-! ### One statement -/

theorem not_startsComment_append {text rest : Text} (notNil : text ≠ [])
    (textNot : startsComment text = false) (restNot : rest.head? ≠ some '-') :
    startsComment (text ++ rest) = false := by
  rw [startsComment, Bool.eq_false_iff, Ne, List.isPrefixOf_iff_prefix] at textNot ⊢
  intro isPrefix
  match text, notNil with
  | [only], _ =>
    obtain ⟨-, inRest⟩ := List.cons_prefix_cons.mp isPrefix
    obtain ⟨others, rfl⟩ := inRest
    exact restNot rfl
  | first :: second :: others, _ =>
    obtain ⟨rfl, tailPrefix⟩ := List.cons_prefix_cons.mp isPrefix
    obtain ⟨rfl, -⟩ := List.cons_prefix_cons.mp tailPrefix
    exact textNot ⟨others, rfl⟩

/-- The text of a statement is sent: it is neither blank nor a comment. -/
theorem IsStatement.isSent {lines : List Text} (isStatement : IsStatement lines) :
    statementText lines ≠ [] ∧ startsComment (statementText lines) = false := by
  obtain ⟨first, isFirst, notBlank⟩ := isStatement.starts
  obtain ⟨rest, rfl⟩ := List.head?_eq_some_iff.mp isFirst
  obtain ⟨joined, split, joinedHead⟩ : ∃ joined : Text,
      ['\n'].intercalate (first :: rest) = first ++ joined ∧ joined.head? ≠ some '-' := by
    cases rest with
    | nil => exact ⟨[], by simp, by simp⟩
    | cons next others =>
      exact ⟨'\n' :: ['\n'].intercalate (next :: others), by simp [List.intercalate], by simp⟩
  have kept : trimStart first ≠ [] := fun empty => notBlank (trimStart_eq_nil_iff.mp empty)
  rw [statementText, split]
  refine ⟨fun empty => notBlank fun char member => ?_, ?_⟩
  · exact trim_eq_nil_iff.mp empty char (List.mem_append_left joined member)
  · have notComment := not_startsComment_append kept
      (isStatement.noComment first List.mem_cons_self) joinedHead
    rw [← trimStart_append notBlank, startsComment, Bool.eq_false_iff, Ne,
      List.isPrefixOf_iff_prefix] at notComment
    rw [startsComment, Bool.eq_false_iff, Ne, List.isPrefixOf_iff_prefix]
    exact fun isPrefix => notComment (isPrefix.trans (trim_isPrefix _))

theorem IsStatement.ne_nil {lines : List Text} (isStatement : IsStatement lines) : lines ≠ [] := by
  rintro rfl
  obtain ⟨first, isFirst, -⟩ := isStatement.starts
  cases isFirst

/-! ### The statements of a script -/

/-- Lines that end no statement gather in the buffer. -/
theorem foldl_step_open (lines : List Text) (state : SplitState)
    (noComment : ∀ line ∈ lines, isCommentLine line = false)
    (isOpen : ∀ line ∈ lines, endsStatement line = false) :
    lines.foldl SplitState.step state = ⟨state.out, state.buf ++ bufferOf lines⟩ := by
  rw [← foldl_pushLine]
  induction lines generalizing state with
  | nil => rfl
  | cons line rest inductionHypothesis =>
    have stepped : state.step line = ⟨state.out, pushLine state.buf line⟩ := by
      simp [SplitState.step, noComment, isOpen]
    rw [List.foldl_cons, stepped, inductionHypothesis _
      (fun other member => noComment other (List.mem_cons_of_mem line member))
      (fun other member => isOpen other (List.mem_cons_of_mem line member))]
    rfl

theorem foldl_step_gap_append {gap body : List Text} (gapBlank : ∀ line ∈ gap, IsBlank line)
    (noComment : ∀ line ∈ body, isCommentLine line = false)
    (isOpen : ∀ line ∈ body, endsStatement line = false) (out : List Text) :
    (gap ++ body).foldl SplitState.step ⟨out, []⟩ = ⟨out, bufferOf (gap ++ body)⟩ := by
  refine foldl_step_open _ ⟨out, []⟩ (fun line member => ?_) fun line member => ?_
  · rcases List.mem_append.mp member with inGap | inBody
    · exact isCommentLine_of_blank (gapBlank line inGap)
    · exact noComment line inBody
  · rcases List.mem_append.mp member with inGap | inBody
    · exact endsStatement_of_blank (gapBlank line inGap)
    · exact isOpen line inBody

/-- A statement leaves the buffer empty. -/
theorem foldl_step_statement (statement : Statement) (out : List Text) :
    statement.lines.foldl SplitState.step ⟨out, []⟩ =
      ⟨out ++ [bufferOf statement.lines], []⟩ := by
  have notComment := statement.isStatement.noComment
  have opened := foldl_step_gap_append statement.gapBlank
    (fun line member => notComment line (List.mem_append_left _ member)) statement.isOpen out
  rw [Statement.lines, ← List.append_assoc, List.foldl_append, opened, bufferOf_append]
  simp [SplitState.step, notComment statement.last List.mem_concat_self, statement.ends, pushLine,
    bufferOf]

theorem foldl_step_statements (statements : List Statement) (out : List Text) :
    (statements.flatMap Statement.lines).foldl SplitState.step ⟨out, []⟩ =
      ⟨out ++ statements.map fun statement => bufferOf statement.lines, []⟩ := by
  induction statements generalizing out with
  | nil => simp
  | cons statement rest inductionHypothesis =>
    rw [List.flatMap_cons, List.foldl_append, foldl_step_statement, inductionHypothesis,
      List.map_cons, List.append_assoc, List.singleton_append]

theorem foldl_step_filter (lines : List Text) (state : SplitState) :
    lines.foldl SplitState.step state =
      (lines.filter fun line => !isCommentLine line).foldl SplitState.step state := by
  rw [List.foldl_filter]
  refine List.foldl_ext _ _ _ fun state line _ => ?_
  cases comment : isCommentLine line <;> simp [SplitState.step, comment]

/-- The end of a script stays in the buffer. -/
theorem foldl_step_tail (tail : ScriptTail) (out : List Text) :
    (tail.gap ++ tail.body).foldl SplitState.step ⟨out, []⟩ =
      ⟨out, bufferOf (tail.gap ++ tail.body)⟩ := by
  refine foldl_step_gap_append tail.gapBlank (fun line member => ?_) tail.isOpen out
  rcases tail.isStatement with empty | isStatement
  · exact absurd (empty ▸ member) List.not_mem_nil
  · exact isStatement.noComment line member

/-- A last statement without a semicolon is one more statement, and blank lines are none. -/
theorem finish_tail (tail : ScriptTail) (out : List Text) :
    (SplitState.finish ⟨out, bufferOf (tail.gap ++ tail.body)⟩).map trim =
      out.map trim ++ tail.texts := by
  rw [SplitState.finish, ScriptTail.texts]
  by_cases empty : tail.body = []
  · have blank : trim (bufferOf (tail.gap ++ tail.body)) = [] := by
      rw [empty, List.append_nil]
      exact trim_eq_nil_iff.mpr (bufferOf_blank tail.gapBlank)
    rw [if_neg (not_not.mpr blank), if_pos empty, List.append_nil]
  · have isStatement := tail.isStatement.resolve_left empty
    have tailText := trim_bufferOf tail.gapBlank isStatement.ne_nil
    rw [tailText, if_pos isStatement.isSent.1, if_neg empty, List.map_append, List.map_singleton,
      tailText]

/-- The statements of a script come out of its text, whatever comments it shows. -/
theorem splitStatements_map_trim (rendered : RenderedScript) :
    (splitStatements rendered.sql).map trim = rendered.script.texts := by
  have texts : ∀ statement : Statement, trim (bufferOf statement.lines) = statement.text :=
    fun statement => trim_bufferOf statement.gapBlank statement.isStatement.ne_nil
  rw [splitStatements, RenderedScript.sql, lines_render rendered.terminated rendered.noFeed,
    foldl_step_filter, rendered.shows, Script.lines, List.foldl_append, foldl_step_statements,
    foldl_step_tail, finish_tail, Script.texts, List.nil_append, List.map_map]
  congr 1
  exact List.map_congr_left fun statement _ => texts statement

/-- A script of one statement and a tail, with a comment inside the statement. -/
example : ∃ rendered : RenderedScript,
    rendered.sql = "CREATE\n  -- b;\n  x;\r\n \ny".toList ∧
      rendered.script.texts = ["CREATE\n  x;".toList, "y".toList] := by
  let statement : Statement := ⟨[], ["CREATE".toList], "  x;".toList, by decide,
    ⟨by decide, "CREATE".toList, rfl, by decide⟩, by decide, by decide⟩
  let tail : ScriptTail := ⟨[" ".toList], ["y".toList], by decide,
    Or.inr ⟨by decide, "y".toList, rfl, by decide⟩, by decide⟩
  let terminated : List TerminatedLine := [⟨"CREATE".toList, false, by decide, by decide⟩,
    ⟨"  -- b;".toList, false, by decide, by decide⟩, ⟨"  x;".toList, true, by decide, by decide⟩,
    ⟨" ".toList, false, by decide, by decide⟩]
  exact ⟨⟨⟨[statement], tail⟩, terminated, "y".toList, by decide, by decide⟩, by decide, by decide⟩

theorem Script.texts_isSent (script : Script) :
    ∀ text ∈ script.texts, text ≠ [] ∧ startsComment text = false := by
  intro text member
  rcases List.mem_append.mp member with inStatements | inTail
  · obtain ⟨statement, -, rfl⟩ := List.mem_map.mp inStatements
    exact statement.isStatement.isSent
  · rw [ScriptTail.texts] at inTail
    split at inTail
    · exact absurd inTail List.not_mem_nil
    · next notNil =>
      rw [List.mem_singleton.mp inTail]
      exact (script.tail.isStatement.resolve_left notNil).isSent

/-! ### Sending the statements -/

/-- Statements with the names of their migrations are sent in order, up to the first that
fails. -/
inductive Sends (execute : MigrationDatabase Failure) :
    List Text → List (Text × Text) → MigrationOutcome Failure → Prop
  | done (sent : List Text) : Sends execute sent [] (sent, .ok ())
  | answered {sent : List Text} (name : Text) {text : Text} {rest : List (Text × Text)}
      {outcome : MigrationOutcome Failure} : execute sent text = .ok () →
      Sends execute (sent ++ [text]) rest outcome →
      Sends execute sent ((name, text) :: rest) outcome
  | failed {sent : List Text} (name : Text) {text : Text} (rest : List (Text × Text))
      {source : Failure} : execute sent text = .error source →
      Sends execute sent ((name, text) :: rest)
        (sent ++ [text], .error ⟨migrationContext name text, source⟩)

theorem Sends.append {execute : MigrationDatabase Failure} {sent middle : List Text}
    {first second : List (Text × Text)} {outcome : MigrationOutcome Failure}
    (isFirst : Sends execute sent first (middle, .ok ()))
    (isSecond : Sends execute middle second outcome) :
    Sends execute sent (first ++ second) outcome := by
  generalize reached : ((middle, .ok ()) : MigrationOutcome Failure) = result at isFirst
  induction isFirst with
  | done sent =>
    cases reached
    exact isSecond
  | answered name isOk _ inductionHypothesis =>
    exact .answered name isOk (inductionHypothesis reached)
  | failed name rest isError => cases reached

theorem Sends.append_failed {execute : MigrationDatabase Failure} {sent reached : List Text}
    {first : List (Text × Text)} {error : MigrationError Failure}
    (isFirst : Sends execute sent first (reached, .error error)) (second : List (Text × Text)) :
    Sends execute sent (first ++ second) (reached, .error error) := by
  generalize same : ((reached, .error error) : MigrationOutcome Failure) = result at isFirst
  induction isFirst with
  | done sent => cases same
  | answered name isOk _ inductionHypothesis =>
    exact .answered name isOk (inductionHypothesis same)
  | failed name rest isError =>
    cases same
    exact .failed name (rest ++ second) isError

/-- All statements are sent when none fails, and else those up to the one that does. -/
theorem Sends.outcome {execute : MigrationDatabase Failure} {sent : List Text}
    {statements : List (Text × Text)} {outcome : MigrationOutcome Failure}
    (sends : Sends execute sent statements outcome) :
    outcome = (sent ++ statements.map Prod.snd, .ok ()) ∨
      ∃ delivered name text rest source, statements = delivered ++ (name, text) :: rest ∧
        execute (sent ++ delivered.map Prod.snd) text = .error source ∧
        outcome = (sent ++ (delivered.map Prod.snd ++ [text]),
          .error ⟨migrationContext name text, source⟩) := by
  induction sends with
  | done sent => exact Or.inl (by rw [List.map_nil, List.append_nil])
  | @answered sent name text rest outcome isOk _ inductionHypothesis =>
    rcases inductionHypothesis with
      all | ⟨delivered, other, failing, left, source, split, answer, stops⟩
    · refine Or.inl (all.trans ?_)
      rw [List.map_cons, List.append_assoc, List.singleton_append]
    · refine Or.inr ⟨(name, text) :: delivered, other, failing, left, source, ?_, ?_, ?_⟩
      · rw [split, List.cons_append]
      · rw [List.map_cons, ← answer, List.append_assoc, List.singleton_append]
      · rw [stops, List.map_cons, List.append_assoc, List.singleton_append, List.cons_append]
  | failed name rest isError =>
    refine Or.inr ⟨[], name, _, rest, _, rfl, ?_, rfl⟩
    rw [List.map_nil, List.append_nil, isError]

theorem applyStatements_sends (execute : MigrationDatabase Failure) (name : Text)
    (statements : List Text) (sent : List Text)
    (isSent : ∀ statement ∈ statements,
      trim statement ≠ [] ∧ startsComment (trim statement) = false) :
    Sends execute sent ((statements.map trim).map (name, ·))
      (applyStatements execute name sent statements) := by
  induction statements generalizing sent with
  | nil => exact .done sent
  | cons stmt rest inductionHypothesis =>
    obtain ⟨notNil, notComment⟩ := isSent stmt List.mem_cons_self
    have others := fun sent => inductionHypothesis sent fun statement member =>
      isSent statement (List.mem_cons_of_mem stmt member)
    simp only [applyStatements, notNil, notComment, Bool.false_eq_true, or_self, if_false]
    cases answer : execute sent (trim stmt) with
    | ok => exact .answered name answer (others _)
    | error source => exact .failed name _ answer

theorem applyScripts_sends (execute : MigrationDatabase Failure)
    (migrations : List (Text × RenderedScript)) (sent : List Text) :
    Sends execute sent
      (migrations.flatMap fun migration => migration.2.script.texts.map (migration.1, ·))
      (applyScripts execute sent
        (migrations.map fun migration => (migration.1, migration.2.sql))) := by
  induction migrations generalizing sent with
  | nil => exact .done sent
  | cons migration rest inductionHypothesis =>
    obtain ⟨name, rendered⟩ := migration
    have texts := splitStatements_map_trim rendered
    have first := applyStatements_sends execute name (splitStatements rendered.sql) sent
      fun statement member => rendered.script.texts_isSent _
        (texts ▸ List.mem_map_of_mem member)
    rw [texts] at first
    rw [List.map_cons, List.flatMap_cons, applyScripts]
    generalize applyStatements execute name sent (splitStatements rendered.sql) = outcome at first
    match outcome, first with
    | (reached, .ok ()), first => exact first.append (inductionHypothesis reached)
    | (reached, .error error), first => exact first.append_failed _

/-- The database receives exactly the statements of the scripts, in order and each once, up to the
first that it answers with an error. -/
theorem migrations_send_statements (execute : MigrationDatabase Failure)
    (migrations : List (Text × RenderedScript)) :
    let statements := migrations.flatMap fun migration =>
      migration.2.script.texts.map (migration.1, ·)
    let outcome := applyScripts execute []
      (migrations.map fun migration => (migration.1, migration.2.sql))
    outcome = (statements.map Prod.snd, .ok ()) ∨
      ∃ delivered name text rest source, statements = delivered ++ (name, text) :: rest ∧
        execute (delivered.map Prod.snd) text = .error source ∧
        outcome = (delivered.map Prod.snd ++ [text],
          .error ⟨migrationContext name text, source⟩) :=
  (applyScripts_sends execute migrations []).outcome

end PerfWeave
