/-
This file proves when imports that run side by side stay apart. All calls of a process export to
one file, and the answer of a call counts every row of its node. So a run keeps the imports apart
exactly when every call still finds its own rows in the file that it ingests, and no row of
another origin on its node when it asks for the statistics.
-/

import PerfWeave.Server.Imports

namespace PerfWeave

variable {Call Value : Type} [DecidableEq Call]

/-! ### The steps of one call -/

/-- The steps of a call before a step. -/
def ImportAction.earlier : ImportAction → List ImportAction
  | .nsysExport => []
  | .ingest => [.nsysExport]
  | .windowStats => [.nsysExport, .ingest]

/-- The steps of a call after a step. -/
def ImportAction.later : ImportAction → List ImportAction
  | .nsysExport => [.ingest, .windowStats]
  | .ingest => [.windowStats]
  | .windowStats => []

/-- The steps of a call in a schedule. -/
def actionsOf (c : Call) (schedule : List (ImportStep Call)) : List ImportAction :=
  (schedule.filter fun step => step.call = c).map ImportStep.action

/-- A schedule in which every call that takes part gets through, its three steps in order. -/
def Complete (schedule : List (ImportStep Call)) : Prop :=
  ∀ step ∈ schedule, actionsOf step.call schedule = [.nsysExport, .ingest, .windowStats]

/-- The calls that ingest in a schedule. -/
def imported (schedule : List (ImportStep Call)) : List Call :=
  (schedule.filter fun step => step.action = .ingest).map ImportStep.call

theorem mem_actionsOf_iff {c : Call} {action : ImportAction} {schedule : List (ImportStep Call)} :
    action ∈ actionsOf c schedule ↔ ⟨c, action⟩ ∈ schedule := by
  unfold actionsOf
  rw [List.mem_map]
  constructor
  · rintro ⟨⟨_, _⟩, member, rfl⟩
    obtain ⟨inSchedule, same⟩ := List.mem_filter.mp member
    obtain rfl := of_decide_eq_true same
    exact inSchedule
  · exact fun member => ⟨_, List.mem_filter.mpr ⟨member, decide_eq_true rfl⟩, rfl⟩

theorem actionsOf_append (c : Call) (first second : List (ImportStep Call)) :
    actionsOf c (first ++ second) = actionsOf c first ++ actionsOf c second := by
  unfold actionsOf
  rw [List.filter_append, List.map_append]

theorem actionsOf_cons_self (step : ImportStep Call) (rest : List (ImportStep Call)) :
    actionsOf step.call (step :: rest) = step.action :: actionsOf step.call rest := by
  unfold actionsOf
  rw [List.filter_cons, if_pos (decide_eq_true rfl), List.map_cons]

/-- An action splits the three steps of a call in one way. -/
theorem ImportAction.split_unique {action : ImportAction} {first rest : List ImportAction}
    (all : first ++ action :: rest = [.nsysExport, .ingest, .windowStats]) :
    first = action.earlier ∧ rest = action.later := by
  rcases first with _ | ⟨_, _ | ⟨_, _ | ⟨_, first⟩⟩⟩
  · obtain ⟨rfl, rfl⟩ := List.cons.inj all
    exact ⟨rfl, rfl⟩
  · simp only [List.cons_append, List.nil_append, List.cons.injEq] at all
    obtain ⟨rfl, rfl, rfl⟩ := all
    exact ⟨rfl, rfl⟩
  · simp only [List.cons_append, List.nil_append, List.cons.injEq] at all
    obtain ⟨rfl, rfl, rfl, rfl⟩ := all
    exact ⟨rfl, rfl⟩
  · have lengths := congrArg List.length all
    simp only [List.length_append, List.length_cons, List.length_nil] at lengths
    omega

/-- Where a step of a complete schedule stands among the steps of its call. -/
theorem Complete.split {before after : List (ImportStep Call)} {step : ImportStep Call}
    (complete : Complete (before ++ step :: after)) :
    actionsOf step.call before = step.action.earlier ∧
      actionsOf step.call after = step.action.later := by
  have all := complete step (List.mem_append_right _ List.mem_cons_self)
  rw [actionsOf_append, actionsOf_cons_self] at all
  exact ImportAction.split_unique all

/-- A call that takes one step of a complete schedule takes all of them. -/
theorem Complete.mem {schedule : List (ImportStep Call)} (complete : Complete schedule)
    {c : Call} {action : ImportAction} (member : ⟨c, action⟩ ∈ schedule) (other : ImportAction) :
    ⟨c, other⟩ ∈ schedule := by
  rw [← mem_actionsOf_iff, complete _ member]
  cases other <;> decide

omit [DecidableEq Call] in
theorem mem_imported_iff {c : Call} {schedule : List (ImportStep Call)} :
    c ∈ imported schedule ↔ ⟨c, .ingest⟩ ∈ schedule := by
  unfold imported
  rw [List.mem_map]
  constructor
  · rintro ⟨⟨_, _⟩, member, rfl⟩
    obtain ⟨inSchedule, same⟩ := List.mem_filter.mp member
    obtain rfl := of_decide_eq_true same
    exact inSchedule
  · exact fun member => ⟨_, List.mem_filter.mpr ⟨member, decide_eq_true rfl⟩, rfl⟩

omit [DecidableEq Call] in
theorem imported_concat (before : List (ImportStep Call)) (last : ImportStep Call) :
    imported (before ++ [last]) =
      if last.action = .ingest then imported before ++ [last.call] else imported before := by
  unfold imported
  rw [List.filter_append, List.map_append, List.filter_singleton]
  by_cases ingests : last.action = .ingest <;> simp [ingests]

/-! ### One step -/

variable [Zero Value] {server : ImportServer Call} {world next : ImportWorld Call Value}

namespace ImportWorld

/-- A step that succeeds. -/
theorem step_eq_some_iff {step : ImportStep Call} :
    world.step server step = some next ↔
      (step.action = .nsysExport ∧ next = { world with
        files := Function.update world.files server.process.sqlitePath
          (some (server.calls step.call).report) }) ∨
      (step.action = .ingest ∧ ∃ file, world.files server.process.sqlitePath = some file ∧
        next = { world with
          events := world.events ++
            file.rows server.xxHash64 (server.calls step.call).nodeId }) ∨
      (step.action = .windowStats ∧ next = { world with
        results := Function.update world.results step.call
          (some (windowStats world.events (server.calls step.call).nodeId)) }) := by
  unfold ImportWorld.step
  cases step.action with
  | nsysExport => simp [eq_comm]
  | ingest => simp [eq_comm]
  | windowStats => simp [eq_comm]

/-- The rows of a node change only when a call of the node ingests. -/
theorem onNode_step {step : ImportStep Call} (steps : world.step server step = some next)
    {nodeId : UInt32} (other : step.action = .ingest → (server.calls step.call).nodeId ≠ nodeId) :
    onNode nodeId next.events = onNode nodeId world.events := by
  rcases step_eq_some_iff.mp steps with ⟨_, rfl⟩ | ⟨ingests, file, _, rfl⟩ | ⟨_, rfl⟩
  · rfl
  · rw [onNode_append, onNode_rows, if_neg (other ingests), List.append_nil]
  · rfl

/-- The answer of a call changes only when it asks for its statistics. -/
theorem results_step {step : ImportStep Call} (steps : world.step server step = some next)
    {c : Call} (other : step ≠ ⟨c, .windowStats⟩) : next.results c = world.results c := by
  rcases step_eq_some_iff.mp steps with ⟨_, rfl⟩ | ⟨_, file, _, rfl⟩ | ⟨asks, rfl⟩
  · rfl
  · rfl
  · refine Function.update_of_ne ?_ _ _
    rintro rfl
    exact other (congrArg (ImportStep.mk step.call) asks)

/-- A step stores rows at the end of the table. -/
theorem events_step {step : ImportStep Call} (steps : world.step server step = some next) :
    world.events <+: next.events := by
  rcases step_eq_some_iff.mp steps with ⟨_, rfl⟩ | ⟨_, file, _, rfl⟩ | ⟨_, rfl⟩
  · exact List.prefix_rfl
  · exact List.prefix_append _ _
  · exact List.prefix_rfl

end ImportWorld

/-! ### Whole runs -/

namespace ImportWorld

variable {start final : ImportWorld Call Value} {schedule before after : List (ImportStep Call)}
  {c : Call}

/-- A run stores rows at the end of the table. -/
theorem events_run (reached : runPartial (step server) start schedule = some final) :
    start.events <+: final.events :=
  runPartial_history (motive := fun _ world => start.events <+: world.events) List.prefix_rfl
    (fun _ _ _ _ _ steps stored => stored.trans (events_step steps)) reached

/-- A complete schedule runs to its end: every call ingests after it has exported. -/
theorem exists_run (complete : Complete schedule) (start : ImportWorld Call Value) :
    ∃ final, runPartial (step server) start schedule = some final := by
  have progress : ∀ before, before <+: schedule → ∃ world,
      runPartial (step server) start before = some world ∧
        ∀ c, ⟨c, .nsysExport⟩ ∈ before →
          (world.files server.process.sqlitePath).isSome := by
    intro before
    induction before using List.reverseRecOn with
    | nil => exact fun _ => ⟨start, rfl, fun _ member => absurd member List.not_mem_nil⟩
    | append_singleton before last inductionHypothesis =>
      intro isPrefix
      obtain ⟨world, reached, exported⟩ :=
        inductionHypothesis ((List.prefix_append _ _).trans isPrefix)
      obtain ⟨after, rfl⟩ := isPrefix
      rw [List.append_assoc, List.singleton_append] at complete
      rw [runPartial_concat, reached, Option.bind_some]
      have placed := complete.split.1
      cases action : last.action with
      | nsysExport =>
        exact ⟨_, step_eq_some_iff.mpr (.inl ⟨action, rfl⟩),
          fun _ _ => Option.isSome_iff_exists.mpr ⟨_, Function.update_self _ _ _⟩⟩
      | ingest =>
        have first : ⟨last.call, .nsysExport⟩ ∈ before := by
          rw [← mem_actionsOf_iff, placed, action]
          exact List.mem_cons_self
        obtain ⟨file, found⟩ := Option.isSome_iff_exists.mp (exported _ first)
        exact ⟨_, step_eq_some_iff.mpr (.inr (.inl ⟨action, file, found, rfl⟩)),
          fun _ _ => exported _ first⟩
      | windowStats =>
        have first : ⟨last.call, .nsysExport⟩ ∈ before := by
          rw [← mem_actionsOf_iff, placed, action]
          exact List.mem_cons_self
        exact ⟨_, step_eq_some_iff.mpr (.inr (.inr ⟨action, rfl⟩)), fun _ _ => exported _ first⟩
  obtain ⟨final, reached, _⟩ := progress schedule List.prefix_rfl
  exact ⟨final, reached⟩

/-- The answer of a call is what its query saw. -/
theorem results_run (complete : Complete (before ++ ⟨c, .windowStats⟩ :: after))
    (asked : world.step server ⟨c, .windowStats⟩ = some next)
    (reached : runPartial (step server) next after = some final) :
    final.results c = some (windowStats world.events (server.calls c).nodeId) := by
  have absent : ⟨c, .windowStats⟩ ∉ after := by
    rw [← mem_actionsOf_iff, complete.split.2]
    exact List.not_mem_nil
  have kept : final.results c = next.results c := by
    refine @runPartial_keeps _ _ (Option ImportResult) _ next final (fun world => world.results c)
      after (fun earlier other _ _ isPrefix _ steps => results_step steps ?_) reached
    rintro rfl
    exact absent (isPrefix.subset (List.mem_append_right _ List.mem_cons_self))
  obtain ⟨ingests, _⟩ | ⟨ingests, _⟩ | ⟨_, rfl⟩ := step_eq_some_iff.mp asked
  · exact absurd ingests nofun
  · exact absurd ingests nofun
  · rw [kept]
    exact Function.update_self c _ _

/-- The imports of a run stay apart: the table has gained the rows of every call's own file
once, and every call answers with what describes them. -/
structure Separate (server : ImportServer Call) (schedule : List (ImportStep Call))
    (start final : ImportWorld Call Value) : Prop where
  events : final.events.Perm (start.events ++ (imported schedule).flatMap server.rowsOf)
  results : ∀ c ∈ imported schedule,
    final.results c = some (.describe (server.rowsOf c : List (EventRow Value)))

/-- A step finds nothing of another origin: the file that an ingest reads has the rows of the
call's own file, and so has the call's node when it asks for the statistics. -/
def Undisturbed (server : ImportServer Call) (world : ImportWorld Call Value)
    (next : ImportStep Call) : Prop :=
  let call := server.calls next.call
  let own : List (EventRow Value) := server.rowsOf next.call
  match next.action with
  | .nsysExport => True
  | .ingest => ∀ file ∈ world.files server.process.sqlitePath,
      (file.rows server.xxHash64 call.nodeId).Perm own
  | .windowStats => (onNode call.nodeId world.events).Perm own

/-- Every step of a run finds nothing of another origin. -/
def AllUndisturbed (server : ImportServer Call) (schedule : List (ImportStep Call))
    (start : ImportWorld Call Value) : Prop :=
  ∀ before next, before ++ [next] <+: schedule → ∀ world,
    runPartial (step server) start before = some world → Undisturbed server world next

/-- Undisturbed calls store the rows of their own files. -/
theorem events_of_undisturbed (undisturbed : AllUndisturbed server schedule start)
    (isPrefix : before <+: schedule)
    (reached : runPartial (step server) start before = some world) :
    world.events.Perm (start.events ++ (imported before).flatMap server.rowsOf) := by
  refine runPartial_history (motive := fun before world => before <+: schedule →
    world.events.Perm (start.events ++ (imported before).flatMap server.rowsOf))
    (fun _ => .of_eq (List.append_nil _).symm) ?_ reached isPrefix
  intro before last earlier next reachedBefore steps storedBefore isPrefix
  have stored := storedBefore ((List.prefix_append _ _).trans isPrefix)
  have finds := undisturbed before last isPrefix earlier reachedBefore
  unfold Undisturbed at finds
  rw [imported_concat]
  rcases step_eq_some_iff.mp steps with ⟨action, rfl⟩ | ⟨action, file, found, rfl⟩ | ⟨action, rfl⟩
  · rw [action, if_neg nofun]
    exact stored
  · rw [action, if_pos rfl, List.flatMap_append, ← List.append_assoc, List.flatMap_singleton]
    rw [action] at finds
    exact stored.append (finds file found)
  · rw [action, if_neg nofun]
    exact stored

/-- Undisturbed calls stay apart. -/
theorem separate_of_undisturbed (complete : Complete schedule)
    (reached : runPartial (step server) start schedule = some final)
    (undisturbed : AllUndisturbed server schedule start) :
    Separate server schedule start final := by
  refine ⟨events_of_undisturbed undisturbed List.prefix_rfl reached, fun c member => ?_⟩
  have asks := complete.mem (mem_imported_iff.mp member) .windowStats
  obtain ⟨before, after, rfl⟩ := List.append_of_mem asks
  obtain ⟨world, next, reachedBefore, asked, rest⟩ := runPartial_split reached
  have finds := undisturbed before ⟨c, .windowStats⟩
    ⟨after, List.append_assoc _ _ _⟩ world reachedBefore
  rw [results_run complete asked rest]
  exact congrArg some (ImportResult.describe_eq_of_perm finds)

/-- A call that is separate from the others sees as many rows as its file has. -/
theorem length_of_separate (complete : Complete (before ++ ⟨c, .windowStats⟩ :: after))
    (separate : Separate server (before ++ ⟨c, .windowStats⟩ :: after) start final)
    (asked : world.step server ⟨c, .windowStats⟩ = some next)
    (rest : runPartial (step server) next after = some final) :
    (onNode (server.calls c).nodeId world.events).length =
      (server.rowsOf c : List (EventRow Value)).length := by
  have asks := List.mem_append_right before (@List.mem_cons_self _ ⟨c, .windowStats⟩ after)
  have answer := separate.results c (mem_imported_iff.mpr (complete.mem asks .ingest))
  rw [results_run complete asked rest] at answer
  exact congrArg ImportResult.eventCount (Option.some.inj answer)

/-- An ingest stores the rows of the file that it finds. -/
theorem onNode_of_ingest (ingests : world.step server ⟨c, .ingest⟩ = some next)
    {file : NsysExport} (found : world.files server.process.sqlitePath = some file) :
    onNode (server.calls c).nodeId next.events =
      onNode (server.calls c).nodeId world.events ++
        file.rows server.xxHash64 (server.calls c).nodeId := by
  rcases step_eq_some_iff.mp ingests with ⟨exports, _⟩ | ⟨_, other, same, rfl⟩ | ⟨asks, _⟩
  · exact absurd exports nofun
  · obtain rfl := Option.some.inj (found.symm.trans same)
    rw [onNode_append, onNode_rows, if_pos rfl]
  · exact absurd asks nofun

/-- A call that is separate from the others stores at most as many rows as its file has. -/
theorem length_rows_le_of_separate (complete : Complete (before ++ ⟨c, .ingest⟩ :: after))
    (separate : Separate server (before ++ ⟨c, .ingest⟩ :: after) start final)
    (ingests : world.step server ⟨c, .ingest⟩ = some next)
    (rest : runPartial (step server) next after = some final)
    {file : NsysExport} (found : world.files server.process.sqlitePath = some file) :
    (file.rows server.xxHash64 (server.calls c).nodeId : List (EventRow Value)).length ≤
      (server.rowsOf c : List (EventRow Value)).length := by
  have asks : ⟨c, .windowStats⟩ ∈ after := by
    rw [← mem_actionsOf_iff, complete.split.2]
    exact List.mem_cons_self
  obtain ⟨middle, later, rfl⟩ := List.append_of_mem asks
  obtain ⟨asking, answered, reached, asked, restAsked⟩ := runPartial_split rest
  rw [← List.cons_append, ← List.append_assoc] at complete separate
  rw [← length_of_separate complete separate asked restAsked]
  have stored := ((events_run reached).sublist.filter fun row =>
    row.nodeId = (server.calls c).nodeId).length_le
  have own := onNode_of_ingest ingests found
  have lengths := congrArg List.length own
  rw [List.length_append] at lengths
  unfold onNode at lengths ⊢
  omega

/-- After the last query of a node, nothing is stored on it. -/
theorem onNode_of_last_query (complete : Complete (before ++ ⟨c, .windowStats⟩ :: after))
    (asked : world.step server ⟨c, .windowStats⟩ = some next)
    (rest : runPartial (step server) next after = some final)
    (later : ∀ other ∈ after, ¬ (other.action = .windowStats ∧
      (server.calls other.call).nodeId = (server.calls c).nodeId)) :
    onNode (server.calls c).nodeId final.events = onNode (server.calls c).nodeId world.events := by
  rw [← onNode_step asked nofun]
  refine @runPartial_keeps _ _ _ (step server) next final
    (fun world => onNode (server.calls c).nodeId world.events) after ?_ rest
  intro early other _ _ isPrefix _ steps
  refine onNode_step steps fun ingests onSame => ?_
  obtain ⟨late, rfl⟩ := isPrefix
  rw [List.append_assoc, List.singleton_append, ← List.cons_append, ← List.append_assoc]
    at complete
  have asksLater : ⟨other.call, .windowStats⟩ ∈ late := by
    rw [← mem_actionsOf_iff, complete.split.2, ingests]
    exact List.mem_cons_self
  exact later ⟨other.call, .windowStats⟩ (List.mem_append_right _ asksLater) ⟨rfl, onSame⟩

omit [DecidableEq Call] in
/-- Calls that together store nothing on a node have no rows for it. -/
theorem rowsOf_eq_nil_of_onNode_flatMap {calls : List Call} {other : Call} {nodeId : UInt32}
    (none : onNode nodeId (calls.flatMap server.rowsOf) = ([] : List (EventRow Value)))
    (member : other ∈ calls) (onSame : (server.calls other).nodeId = nodeId) :
    (server.rowsOf other : List (EventRow Value)) = [] := by
  refine List.eq_nil_iff_forall_not_mem.mpr fun row inRows => ?_
  have inAll : row ∈ onNode nodeId (calls.flatMap server.rowsOf) :=
    List.mem_filter.mpr ⟨List.mem_flatMap.mpr ⟨other, member, inRows⟩,
      decide_eq_true ((NsysExport.nodeId_of_mem_rows inRows).trans onSame)⟩
  rw [none] at inAll
  exact absurd inAll List.not_mem_nil

/-- A whole that is as long as one of its parts has no other parts. -/
theorem alone_of_perm_of_length {Item : Type} {whole first second own third : List Item}
    (parts : whole.Perm (first ++ (second ++ (own ++ third))))
    (same : whole.length = own.length) :
    first = [] ∧ second = [] ∧ third = [] ∧ whole.Perm own := by
  have lengths := parts.length_eq
  rw [List.length_append, List.length_append, List.length_append] at lengths
  obtain rfl := List.eq_nil_of_length_eq_zero (show first.length = 0 by omega)
  obtain rfl := List.eq_nil_of_length_eq_zero (show second.length = 0 by omega)
  obtain rfl := List.eq_nil_of_length_eq_zero (show third.length = 0 by omega)
  rw [List.append_nil] at parts
  exact ⟨rfl, rfl, rfl, parts⟩

/-- When the imports of a run stay apart, a node that is imported to had no rows, all calls on it
but one have no rows either, and it ends up with the rows of that one. -/
theorem exists_sole_of_separate (complete : Complete schedule)
    (reached : runPartial (step server) start schedule = some final)
    (separate : Separate server schedule start final) (asks : ⟨c, .windowStats⟩ ∈ schedule) :
    ∃ sole, (onNode (server.calls c).nodeId final.events).Perm (server.rowsOf sole) ∧
      onNode (server.calls c).nodeId start.events = [] ∧
      ∀ other ∈ imported schedule, (server.calls other).nodeId = (server.calls c).nodeId →
        other ≠ sole → (server.rowsOf other : List (EventRow Value)) = [] := by
  obtain ⟨before, ⟨sole, action⟩, after, rfl, ⟨isStats, sameNode⟩, later⟩ :=
    exists_last_of_mem (fun step => step.action = .windowStats ∧
      (server.calls step.call).nodeId = (server.calls c).nodeId) asks ⟨rfl, rfl⟩
  dsimp only at isStats sameNode
  subst isStats
  rw [← sameNode] at later ⊢
  obtain ⟨world, next, reachedBefore, asked, rest⟩ := runPartial_split reached
  have sees := length_of_separate complete separate asked rest
  rw [← onNode_of_last_query complete asked rest later] at sees
  have ingested := mem_imported_iff.mpr (complete.mem
    (List.mem_append_right before (@List.mem_cons_self _ ⟨sole, .windowStats⟩ after)) .ingest)
  obtain ⟨first, second, order⟩ := List.append_of_mem ingested
  have gained : (onNode (server.calls sole).nodeId final.events).Perm
      (onNode (server.calls sole).nodeId (start.events ++ _)) := separate.events.filter _
  have own : onNode (server.calls sole).nodeId (server.rowsOf sole) = (server.rowsOf sole :
      List (EventRow Value)) := by
    unfold ImportServer.rowsOf
    rw [onNode_rows, if_pos rfl]
  rw [order, List.flatMap_append, List.flatMap_cons] at gained
  simp only [onNode_append, own] at gained
  obtain ⟨startNone, firstNone, secondNone, alone⟩ := alone_of_perm_of_length gained sees
  refine ⟨sole, alone, startNone, fun other member onSame differs => ?_⟩
  rw [order] at member
  rcases List.mem_append.mp member with inFirst | inRest
  · exact rowsOf_eq_nil_of_onNode_flatMap firstNone inFirst onSame
  · exact rowsOf_eq_nil_of_onNode_flatMap secondNone
      ((List.mem_cons.mp inRest).resolve_left differs) onSame

/-- When the imports of a run stay apart, a call that asks for the statistics sees the rows of its
own file. -/
theorem asks_undisturbed_of_separate
    (complete : Complete (before ++ ⟨c, .windowStats⟩ :: after))
    (separate : Separate server (before ++ ⟨c, .windowStats⟩ :: after) start final)
    (reached : runPartial (step server) start (before ++ ⟨c, .windowStats⟩ :: after) = some final)
    (reachedBefore : runPartial (step server) start before = some world) :
    (onNode (server.calls c).nodeId world.events).Perm (server.rowsOf c) := by
  have asks := List.mem_append_right before (@List.mem_cons_self _ ⟨c, .windowStats⟩ after)
  obtain ⟨sole, sum, _, others⟩ := exists_sole_of_separate complete reached separate asks
  obtain ⟨reachedWorld, next, same, asked, rest⟩ := runPartial_split reached
  obtain rfl := Option.some.inj (reachedBefore.symm.trans same)
  have sees := length_of_separate complete separate asked rest
  by_cases isSole : c = sole
  · subst isSole
    have stored : (onNode (server.calls c).nodeId world.events).Sublist
        (onNode (server.calls c).nodeId final.events) :=
      ((events_step asked).trans (events_run rest)).sublist.filter _
    rw [stored.eq_of_length (sees.trans sum.length_eq.symm)]
    exact sum
  · have none := others c (mem_imported_iff.mpr (complete.mem asks .ingest)) rfl isSole
    rw [none] at sees ⊢
    rw [List.eq_nil_of_length_eq_zero sees]

/-- When the imports of a run stay apart, calls whose files have no rows leave a node alone. -/
theorem onNode_step_of_separate {other : ImportStep Call} {nodeId : UInt32}
    (complete : Complete (before ++ other :: after))
    (separate : Separate server (before ++ other :: after) start final)
    (steps : world.step server other = some next)
    (rest : runPartial (step server) next after = some final)
    (none : other.action = .ingest → (server.calls other.call).nodeId = nodeId →
      (server.rowsOf other.call : List (EventRow Value)) = []) :
    onNode nodeId next.events = onNode nodeId world.events := by
  by_cases stores : other.action = .ingest ∧ (server.calls other.call).nodeId = nodeId
  · obtain ⟨call, action⟩ := other
    obtain ⟨rfl, rfl⟩ := stores
    rcases step_eq_some_iff.mp steps with ⟨exports, _⟩ | ⟨_, file, found, _⟩ | ⟨asks, _⟩
    · exact absurd exports nofun
    · have atMost := length_rows_le_of_separate complete separate steps rest found
      rw [none rfl rfl] at atMost
      rw [onNode_of_ingest steps found, List.eq_nil_of_length_eq_zero (Nat.le_zero.mp atMost),
        List.append_nil]
    · exact absurd asks nofun
  · exact onNode_step steps fun ingests onSame => stores ⟨ingests, onSame⟩

/-- When the imports of a run stay apart, a part of the run in which only calls whose files have no
rows ingest on a node leaves the node alone. -/
theorem onNode_run_of_separate {first part rest : List (ImportStep Call)} {nodeId : UInt32}
    (complete : Complete (first ++ (part ++ rest)))
    (separate : Separate server (first ++ (part ++ rest)) start final)
    (reached : runPartial (step server) world part = some next)
    (reachedRest : runPartial (step server) next rest = some final)
    (none : ∀ other ∈ part, other.action = .ingest → (server.calls other.call).nodeId = nodeId →
      (server.rowsOf other.call : List (EventRow Value)) = []) :
    onNode nodeId next.events = onNode nodeId world.events := by
  refine @runPartial_keeps _ _ _ (step server) world next
    (fun world => onNode nodeId world.events) part ?_ reached
  intro early other here there isPrefix reachedEarly steps
  obtain ⟨late, rfl⟩ := isPrefix
  have harmless := none other (by simp)
  have regroup : first ++ (early ++ [other] ++ late ++ rest) =
      (first ++ early) ++ other :: (late ++ rest) := by simp
  rw [regroup] at complete separate
  rw [List.append_assoc, List.singleton_append] at reached
  obtain ⟨_, _, sameEarly, sameStep, reachedLate⟩ := runPartial_split reached
  obtain rfl := Option.some.inj (reachedEarly.symm.trans sameEarly)
  obtain rfl := Option.some.inj (steps.symm.trans sameStep)
  refine onNode_step_of_separate complete separate steps ?_ harmless
  rw [runPartial_append, reachedLate]
  exact reachedRest

/-- When the imports of a run stay apart, a call finds the rows of its own file. -/
theorem ingests_undisturbed_of_separate
    (complete : Complete (before ++ ⟨c, .ingest⟩ :: after))
    (separate : Separate server (before ++ ⟨c, .ingest⟩ :: after) start final)
    (reached : runPartial (step server) start (before ++ ⟨c, .ingest⟩ :: after) = some final)
    (reachedBefore : runPartial (step server) start before = some world)
    {file : NsysExport} (found : world.files server.process.sqlitePath = some file) :
    (file.rows server.xxHash64 (server.calls c).nodeId : List (EventRow Value)).Perm
      (server.rowsOf c) := by
  have here := List.mem_append_right before (@List.mem_cons_self _ ⟨c, .ingest⟩ after)
  obtain ⟨sole, sum, startNone, others⟩ :=
    exists_sole_of_separate complete reached separate (complete.mem here .windowStats)
  obtain ⟨_, next, same, ingests, rest⟩ := runPartial_split reached
  obtain rfl := Option.some.inj (reachedBefore.symm.trans same)
  by_cases isSole : c = sole
  · subst isSole
    have none : ∀ other ∈ before ++ after, other.action = .ingest →
        (server.calls other.call).nodeId = (server.calls c).nodeId →
        (server.rowsOf other.call : List (EventRow Value)) = [] := by
      rintro ⟨call, action⟩ member rfl onSame
      refine others call (mem_imported_iff.mpr ?_) onSame ?_
      · exact List.mem_append.mpr ((List.mem_append.mp member).imp_right (List.mem_cons_of_mem _))
      · rintro rfl
        rw [← mem_actionsOf_iff, actionsOf_append, complete.split.1, complete.split.2] at member
        exact absurd member (by simp [ImportAction.earlier, ImportAction.later])
    have untilHere : onNode (server.calls c).nodeId world.events =
        onNode (server.calls c).nodeId start.events := by
      rw [runPartial_append, reachedBefore] at reached
      exact @onNode_run_of_separate _ _ _ _ _ _ _ _ _ [] before _ _ complete separate
        reachedBefore reached fun other member => none other (List.mem_append_left _ member)
    have fromHere : onNode (server.calls c).nodeId final.events =
        onNode (server.calls c).nodeId next.events := by
      rw [← List.concat_append, List.concat_eq_append, ← List.append_nil after]
        at complete separate
      exact onNode_run_of_separate complete separate rest rfl
        fun other member => none other (List.mem_append_right _ member)
    rw [fromHere, onNode_of_ingest ingests found, untilHere, startNone, List.nil_append] at sum
    exact sum
  · have atMost := length_rows_le_of_separate complete separate ingests rest found
    have none := others c (mem_imported_iff.mpr here) rfl isSole
    rw [none] at atMost ⊢
    rw [List.eq_nil_of_length_eq_zero (Nat.le_zero.mp atMost)]

/-- Any number of imports of one process, their steps in any order: each call stores the rows of
its own file once and answers with what describes them exactly when every call that ingests finds
the rows of its own file, and every call that asks for its statistics finds nothing else on its
node. -/
theorem separate_iff_undisturbed (server : ImportServer Call) (start : ImportWorld Call Value)
    (schedule : List (ImportStep Call)) (complete : Complete schedule) :
    ∃ final, runPartial (step server) start schedule = some final ∧
      (Separate server schedule start final ↔ AllUndisturbed server schedule start) := by
  obtain ⟨final, reached⟩ := exists_run complete start
  refine ⟨final, reached, fun separate => ?_, separate_of_undisturbed complete reached⟩
  rintro before ⟨c, action⟩ ⟨after, rfl⟩ world reachedBefore
  rw [List.append_assoc, List.singleton_append] at complete reached separate
  cases action with
  | nsysExport => trivial
  | ingest => exact fun file found =>
      ingests_undisturbed_of_separate complete separate reached reachedBefore found
  | windowStats => exact asks_undisturbed_of_separate complete separate reached reachedBefore

/-- A kernel that starts at the given time; no text names it. -/
def unnamedKernel (start : Int64) : NsysKernel where
  start := start
  stop := start + 10
  deviceId := 0
  contextId := 1
  streamId := 7
  correlationId := 42
  gridX := 1
  gridY := 1
  gridZ := 1
  blockX := 32
  blockY := 1
  blockZ := 1
  staticSharedMemory := 0
  dynamicSharedMemory := 0
  localMemoryPerThread := 0
  shortName := 0

/-- Two uploads, each of one kernel; the hash is that of the empty text. -/
def twoUploads : ImportServer Bool where
  process := ⟨"/tmp", 4711⟩
  xxHash64 := fun _ => 0xef46db3751d8e999
  calls later := ⟨⟨[unnamedKernel (if later then 900 else 500)], []⟩, 0⟩

/-- The same uploads, each for a node of its own. -/
def twoNodes : ImportServer Bool where
  process := twoUploads.process
  xxHash64 := twoUploads.xxHash64
  calls later := ⟨(twoUploads.calls later).report, if later then 1 else 0⟩

/-- An upload, and another one when the first is through. -/
def oneAfterTheOther : List (ImportStep Bool) :=
  [⟨false, .nsysExport⟩, ⟨false, .ingest⟩, ⟨false, .windowStats⟩,
    ⟨true, .nsysExport⟩, ⟨true, .ingest⟩, ⟨true, .windowStats⟩]

theorem oneAfterTheOther_separate_iff :
    ∃ final, runPartial (step twoNodes) ⟨fun _ => none, ([] : List (EventRow Int)), fun _ => none⟩
        oneAfterTheOther = some final ∧
      (Separate twoNodes oneAfterTheOther ⟨fun _ => none, [], fun _ => none⟩ final ↔
        AllUndisturbed twoNodes oneAfterTheOther
          ⟨fun _ => none, ([] : List (EventRow Int)), fun _ => none⟩) :=
  separate_iff_undisturbed twoNodes ⟨fun _ => none, [], fun _ => none⟩ oneAfterTheOther
    (by unfold Complete oneAfterTheOther; decide)

/-- Two uploads at the same time: the second export replaces the first before it is ingested. -/
def sideBySide : List (ImportStep Bool) :=
  [⟨false, .nsysExport⟩, ⟨true, .nsysExport⟩, ⟨false, .ingest⟩, ⟨true, .ingest⟩,
    ⟨false, .windowStats⟩, ⟨true, .windowStats⟩]

/-- The table gains the kernel of the second upload twice and that of the first never. -/
theorem exists_not_separate :
    ¬ ∀ (server : ImportServer Bool) (start final : ImportWorld Bool Int)
      (schedule : List (ImportStep Bool)), Complete schedule →
      runPartial (step server) start schedule = some final →
      Separate server schedule start final := by
  intro separate
  have complete : Complete sideBySide := by
    unfold Complete sideBySide
    decide
  have mixed :=
    (separate twoUploads ⟨fun _ => none, [], fun _ => none⟩ _ sideBySide complete rfl).events
  have starts := mixed.map EventRow.tsNs
  exact absurd starts (by decide)

end ImportWorld

end PerfWeave
