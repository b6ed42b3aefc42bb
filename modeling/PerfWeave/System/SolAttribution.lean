/-
This file settles whose speed-of-light numbers a drill-down shows. A report is made for a kernel
launch, which its node, its GPU and its correlation id identify; on the way to the table it loses
the GPU, and the query of the drill-down joins on the correlation id alone. So the numbers of a
kernel are those of whichever launch with its correlation id was reported with the highest
confidence, and since a kernel without any report is joined with one row of defaults, it has
numbers as well.
-/

import PerfWeave.Server.SpikeContext

namespace PerfWeave

variable {Value : Type}

/-! ### Reports and launches -/

/-- A report as its producer makes it, with the node and the GPU it was measured on and the time
it is stored at. -/
structure SolReport (Value : Type) where
  nodeId : UInt32
  gpuId : UInt32
  storedAtNs : UInt64
  sol : KernelSol Value

namespace SolReport

/-- The row of `kernel_sol` that the sink makes of a report. -/
def row (report : SolReport Value) : KernelSolRow Value :=
  KernelSolRow.fromProto report.storedAtNs report.nodeId report.sol

/-- The numbers of a report. -/
def numbers (report : SolReport Value) : Api.KernelSolRow Value := .ofRow report.row

/-- Whether a report was made for a launch. -/
def IsFor (report : SolReport Value) (launch : Event Value) : Prop :=
  report.nodeId = launch.nodeId ∧ report.gpuId = launch.gpuId ∧
    report.sol.correlationId = launch.correlationId

/-- The report that is preferred for a correlation id: the first one of the highest confidence. -/
def preferred (reports : List (SolReport Value)) (correlationId : UInt64) :
    Option (SolReport Value) :=
  argMax (fun report => report.row.confidence.toInt)
    (reports.filter fun report => report.sol.correlationId = correlationId)

end SolReport

/-- Whether an entry of the answer shows a launch. -/
def KernelGroup.Shows [Zero Value] (kernel : KernelGroup) (launch : Event Value) : Prop :=
  let row := EventRow.ofEvent launch
  row.category = categoryToI8 .kernel ∧ row.correlationId = kernel.correlationId ∧
    row.nameId = kernel.nameId ∧ row.tsNs = kernel.tsNs ∧ row.durationNs = kernel.durationNs ∧
    row.gpuId = kernel.gpuId

/-- The numbers of an entry are right: for every launch it shows, they are those of a report made
for it, and there are none exactly when no report was made for it. -/
structure KernelInWindow.Attributed [Zero Value] (launches : List (Event Value))
    (reports : List (SolReport Value)) (entry : KernelInWindow Value) : Prop where
  numbers : ∀ launch ∈ launches, entry.Shows launch → ∀ sol, entry.sol = some sol →
    ∃ report ∈ reports, report.IsFor launch ∧ report.numbers = sol
  none_iff : ∀ launch ∈ launches, entry.Shows launch →
    (entry.sol = none ↔ ∀ report ∈ reports, ¬ report.IsFor launch)

/-- The report preferred for the correlation id of a launch has the numbers of one that was made
for the launch. -/
def PreferredIsOwn (reports : List (SolReport Value)) (launch : Event Value) : Prop :=
  ∃ best, SolReport.preferred reports launch.correlationId = some best ∧
    ∃ own ∈ reports, own.IsFor launch ∧ own.numbers = best.numbers

/-! ### The numbers of an entry -/

/-- The query shows the 32 longest kernels of the window, whatever reports there are, and each
with the numbers of the rows that its correlation id is joined with. -/
theorem kernelsInWindow_eq [Zero Value] (window : SpikeWindow) (events : List (EventRow Value))
    (strings : List StringRow) (kernelSol : List (KernelSolRow Value)) :
    kernelsInWindow window events strings kernelSol =
      (kernelsListed window events strings).map fun kernel =>
        kernelInWindow kernel ((group (fun row => KernelGroup.ofRow row.1)
          (joinKernelSol ((joinStrings events strings).filter fun row => window.selects row.1)
            kernelSol) kernel).map Prod.snd) := by
  unfold kernelsInWindow kernelsListed joinKernelSol
  simp only
  rw [filter_leftJoin _ _ _ _ fun row : EventRow Value × StringRow => window.selects row.1,
    groupKeys_leftJoin]

/-- The rows a listed kernel is joined with are those of its correlation id, over and over. -/
theorem joined_of_listed [Zero Value] {window : SpikeWindow} {events : List (EventRow Value)}
    {strings : List StringRow} {kernel : KernelGroup}
    (listed : kernel ∈ kernelsListed window events strings)
    (kernelSol : List (KernelSolRow Value)) :
    ∃ copies : List (EventRow Value × StringRow), copies ≠ [] ∧
      (group (fun row => KernelGroup.ofRow row.1)
          (joinKernelSol ((joinStrings events strings).filter fun row => window.selects row.1)
            kernelSol) kernel).map Prod.snd =
        copies.flatMap fun _ => joinMatches
          (fun (correlationId : UInt64) k => k.correlationId = correlationId) .unmatched kernelSol
          kernel.correlationId := by
  have isKey := List.mem_of_mem_take listed
  rw [List.mem_mergeSort, mem_groupKeys_iff] at isKey
  obtain ⟨row, selected, isGroup⟩ := isKey
  refine ⟨group KernelGroup.ofRow ((joinStrings events strings).filter fun row =>
    window.selects row.1) kernel, ?_, ?_⟩
  · exact List.ne_nil_of_mem (List.mem_filter.mpr ⟨selected, decide_eq_true isGroup⟩)
  · unfold group joinKernelSol
    rw [filter_leftJoin _ _ _ _ fun row : EventRow Value × StringRow =>
      decide (KernelGroup.ofRow row = kernel), map_snd_leftJoin]
    refine List.flatMap_congr fun row member => ?_
    rw [← of_decide_eq_true (List.mem_filter.mp member).2]
    rfl

/-- The numbers of a listed kernel: those of the report preferred for its correlation id, or the
defaults of the table's columns. -/
theorem sol_of_listed [Zero Value] {window : SpikeWindow} {events : List (EventRow Value)}
    {strings : List StringRow} {kernel : KernelGroup}
    (listed : kernel ∈ kernelsListed window events strings) (reports : List (SolReport Value)) :
    (kernelInWindow kernel ((group (fun row => KernelGroup.ofRow row.1)
        (joinKernelSol ((joinStrings events strings).filter fun row => window.selects row.1)
          (reports.map SolReport.row)) kernel).map Prod.snd)).sol =
      some (((SolReport.preferred reports kernel.correlationId).map SolReport.numbers).getD
        (.ofRow .unmatched)) := by
  obtain ⟨copies, nonempty, joined⟩ := joined_of_listed listed (reports.map SolReport.row)
  have largest : argMax (fun k : KernelSolRow Value => k.confidence.toInt)
      (joinMatches (fun (correlationId : UInt64) k => k.correlationId = correlationId) .unmatched
        (reports.map SolReport.row) kernel.correlationId) =
      some (((SolReport.preferred reports kernel.correlationId).map SolReport.row).getD
        .unmatched) := argMax_joinMatches_map _ _ _ SolReport.row reports _
  rw [kernelInWindow, joined]
  simp only
  rw [if_pos (length_flatMap_joinMatches_pos _ _ _ _ nonempty),
    argMax_flatMap_const _ _ nonempty, largest]
  cases SolReport.preferred reports kernel.correlationId <;> rfl

theorem ofEvent_correlationId [Zero Value] (e : Event Value) :
    (EventRow.ofEvent e).correlationId = e.correlationId := by
  unfold EventRow.ofEvent
  rcases e.payload with _ | ⟨m⟩ | _ | _ | _ | _ | _ <;> rfl

/-- An entry with the numbers of the preferred report, or with defaults, is right exactly when the
preferred report is as good as one of its own for every launch it shows. -/
theorem attributed_iff_of_sol [Zero Value] {reports : List (SolReport Value)}
    {entry : KernelInWindow Value}
    (sol : entry.sol = some (((SolReport.preferred reports entry.correlationId).map
      SolReport.numbers).getD (.ofRow .unmatched))) (launches : List (Event Value)) :
    entry.Attributed launches reports ↔
      ∀ launch ∈ launches, entry.Shows launch → PreferredIsOwn reports launch := by
  have sameId : ∀ launch : Event Value, entry.Shows launch →
      entry.correlationId = launch.correlationId := fun launch shows =>
    shows.2.1.symm.trans (ofEvent_correlationId launch)
  constructor
  · intro right launch member shows
    have reported : ∃ report ∈ reports, report.IsFor launch := by
      by_contra unreported
      have absent := (right.none_iff launch member shows).mpr fun report isReport isFor =>
        unreported ⟨report, isReport, isFor⟩
      rw [sol] at absent
      exact absurd absent (Option.some_ne_none _)
    obtain ⟨report, isReport, isFor⟩ := reported
    cases preferred : SolReport.preferred reports launch.correlationId with
    | none =>
      have unreported := argMax_eq_none_iff.mp preferred
      exact absurd (decide_eq_true isFor.2.2) (List.filter_eq_nil_iff.mp unreported report isReport)
    | some best =>
      refine ⟨best, preferred, ?_⟩
      rw [sameId launch shows, preferred] at sol
      exact right.numbers launch member shows _ sol
  · intro own
    refine ⟨fun launch member shows shown isShown => ?_, fun launch member shows => ?_⟩
    · obtain ⟨best, preferred, report, isReport, isFor, numbers⟩ := own launch member shows
      rw [sameId launch shows, preferred] at sol
      rw [sol, Option.some.injEq] at isShown
      exact ⟨report, isReport, isFor, numbers.trans isShown⟩
    · obtain ⟨_, _, report, isReport, isFor, _⟩ := own launch member shows
      rw [sol]
      exact iff_of_false (Option.some_ne_none _) fun unreported => unreported report isReport isFor

/-- Every kernel that a drill-down shows has the numbers of its own reports, and none if it has no
report, exactly when each of the launches it shows was reported and the report preferred for its
correlation id has the numbers of one of its own. -/
theorem solAttributed_iff [Zero Value] (window : SpikeWindow) (launches : List (Event Value))
    (strings : List StringRow) (reports : List (SolReport Value)) :
    (∀ entry ∈ kernelsInWindow window (launches.map EventRow.ofEvent) strings
        (reports.map SolReport.row), entry.Attributed launches reports) ↔
      ∀ kernel ∈ kernelsListed window (launches.map EventRow.ofEvent) strings,
        ∀ launch ∈ launches, kernel.Shows launch → PreferredIsOwn reports launch := by
  rw [kernelsInWindow_eq, List.forall_mem_map]
  refine forall₂_congr fun kernel listed => ?_
  exact attributed_iff_of_sol (sol_of_listed listed reports) launches

/-- A kernel of one GPU. -/
def launchOn (gpuId : UInt32) : Event Int where
  tsNs := 1000000000
  durationNs := 5000
  nodeId := 1
  gpuId := gpuId
  pid := 0
  tid := 0
  ctxId := 0
  streamId := 0
  category := Category.kernel.asI32
  nameId := 0
  correlationId := 7
  parentId := 0
  payload := none

/-- A report for the kernel with the same correlation id on GPU 0. -/
def reportOfGpuZero : SolReport Int := ⟨1, 0, 0, ⟨7, 90, 80, 10, 0, 0, 60, 0, 0, 0, 2, 2, 2, []⟩⟩

/-- A kernel of GPU 1 that nothing was reported of is shown with the numbers of GPU 0. -/
theorem exists_entry_not_attributed :
    ¬ ∀ (window : SpikeWindow) (launches : List (Event Int)) (strings : List StringRow)
        (reports : List (SolReport Int)),
      ∀ entry ∈ kernelsInWindow window (launches.map EventRow.ofEvent) strings
        (reports.map SolReport.row), entry.Attributed launches reports := by
  intro attributed
  have listed : kernelsListed (.ofSpike 1000000000 1000000000 1)
      ([launchOn 1].map EventRow.ofEvent) [] = [⟨7, 0, "", 1000000000, 5000, 1⟩] := by
    have keys : groupKeys KernelGroup.ofRow
        ((joinStrings ([launchOn 1].map EventRow.ofEvent) []).filter fun row =>
          (SpikeWindow.ofSpike 1000000000 1000000000 1).selects row.1) =
        [⟨7, 0, "", 1000000000, 5000, 1⟩] := by decide
    rw [kernelsListed, keys, longestFirst, List.mergeSort_singleton]
    rfl
  have isListed := listed.symm ▸ List.mem_singleton_self _
  have shown := attributed (.ofSpike 1000000000 1000000000 1) [launchOn 1] [] [reportOfGpuZero]
  rw [kernelsInWindow_eq, List.forall_mem_map] at shown
  have own := (attributed_iff_of_sol (sol_of_listed isListed [reportOfGpuZero])
    [launchOn 1]).mp (shown _ isListed) (launchOn 1) List.mem_cons_self
    ⟨rfl, rfl, rfl, rfl, rfl, rfl⟩
  obtain ⟨_, _, report, isReport, isFor, _⟩ := own
  rw [List.mem_singleton.mp isReport] at isFor
  exact absurd isFor.2.1 (by decide)

end PerfWeave
