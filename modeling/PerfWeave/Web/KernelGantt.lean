/-
This file models the rows of the kernel chart of a spike: `rowsByStream` of
`web/src/panels/SpikeDrilldown.tsx`. The kernels arrive with their times as texts. They are sorted
by their starts and each is put into the first row that has ended by then; the sort of the browser
is an input, and what it has to return is a permutation in the order of the starts.
-/

import PerfWeave.Library.IntervalPacking
import PerfWeave.Web.LiveIds

namespace PerfWeave

variable {Sol : Type}

/-! ### Kernels -/

/-- `BigInt` of a text of decimal digits, with or without a sign. -/
def signedBigInt : List Char → Option Int
  | '-' :: digits => if digits.isEmpty then none else (bigInt digits).map fun n => -n
  | '+' :: digits => if digits.isEmpty then none else (bigInt digits).map Int.ofNat
  | text => (bigInt text).map Int.ofNat

/-- `KernelInWindow` of the browser, with the roofline numbers the chart shows. -/
structure WindowKernel (Sol : Type) where
  correlationId : List Char
  nameId : List Char
  name : String
  tsNs : List Char
  durationNs : List Char
  gpuId : Nat
  sol : Option Sol
  solFinal : Option Sol

namespace WindowKernel

/-- The comparison of the sort; none where `BigInt` throws. -/
def compareStarts (a b : WindowKernel Sol) : Option Int := do
  let aStart ← signedBigInt a.tsNs
  let bStart ← signedBigInt b.tsNs
  return if aStart < bStart then -1 else 1

/-- The start of a kernel whose time is a number. -/
def startNs (k : WindowKernel Sol) : Int := (signedBigInt k.tsNs).getD 0

/-- The end of a kernel whose times are numbers. -/
def endNs (k : WindowKernel Sol) : Int := k.startNs + (signedBigInt k.durationNs).getD 0

/-- A kernel whose times are numbers, and its duration a positive one. -/
structure IsPositive (k : WindowKernel Sol) : Prop where
  start : (signedBigInt k.tsNs).isSome
  duration : ∃ duration ∈ signedBigInt k.durationNs, 0 < duration

theorem IsPositive.startNs_lt_endNs {k : WindowKernel Sol} (positive : k.IsPositive) :
    k.startNs < k.endNs := by
  obtain ⟨duration, isDuration, some⟩ := positive.duration
  rw [endNs, Option.mem_def.mp isDuration, Option.getD_some]
  exact lt_add_of_pos_right _ some

end WindowKernel

/-! ### Rows -/

/-- The loop of `rowsByStream` over one kernel. -/
def packKernel (rows : List (PackedRow (WindowKernel Sol) Int)) (k : WindowKernel Sol) :
    Option (List (PackedRow (WindowKernel Sol) Int)) := do
  let kStart ← signedBigInt k.tsNs
  let kEnd := kStart + (← signedBigInt k.durationNs)
  return placeFirstFit kStart kEnd k rows

/-- `rowsByStream`, with the sort of the browser; none where `BigInt` throws. -/
def rowsByStream
    (sort : (WindowKernel Sol → WindowKernel Sol → Option Int) → List (WindowKernel Sol) →
      List (WindowKernel Sol))
    (kernels : List (WindowKernel Sol)) : Option (List (PackedRow (WindowKernel Sol) Int)) :=
  let sorted := sort WindowKernel.compareStarts kernels
  runPartial packKernel [] sorted

theorem packKernel_eq (rows : List (PackedRow (WindowKernel Sol) Int)) {k : WindowKernel Sol}
    (positive : k.IsPositive) :
    packKernel rows k = some (packItem WindowKernel.startNs WindowKernel.endNs rows k) := by
  obtain ⟨start, isStart⟩ := Option.isSome_iff_exists.mp positive.start
  obtain ⟨duration, isDuration, -⟩ := positive.duration
  rw [Option.mem_def] at isDuration
  simp [packKernel, packItem, WindowKernel.endNs, WindowKernel.startNs, isStart, isDuration]

/-- The loop packs the kernels as the half-open intervals of their times. -/
theorem runPartial_packKernel {kernels : List (WindowKernel Sol)}
    (positive : ∀ k ∈ kernels, k.IsPositive) :
    runPartial packKernel [] kernels =
      some (pack WindowKernel.startNs WindowKernel.endNs kernels) := by
  induction kernels using List.reverseRecOn with
  | nil => rfl
  | append_singleton kernels k inductionHypothesis =>
    have before := inductionHypothesis fun other member =>
      positive other (List.mem_append_left _ member)
    rw [runPartial_concat, before, Option.bind_some, packKernel_eq _ (positive k (by simp)), pack,
      pack, run_concat]

/-- The loop gets through exactly when `BigInt` reads all the times. -/
theorem isSome_runPartial_packKernel_iff (kernels : List (WindowKernel Sol)) :
    (runPartial packKernel [] kernels).isSome ↔
      ∀ k ∈ kernels, (signedBigInt k.tsNs).isSome ∧ (signedBigInt k.durationNs).isSome := by
  have turn : ∀ (rows : List (PackedRow (WindowKernel Sol) Int)) (k : WindowKernel Sol),
      (packKernel rows k).isSome ↔
        (signedBigInt k.tsNs).isSome ∧ (signedBigInt k.durationNs).isSome := by
    intro rows k
    unfold packKernel
    cases signedBigInt k.tsNs <;> cases signedBigInt k.durationNs <;> simp
  induction kernels using List.reverseRecOn with
  | nil => simp
  | append_singleton kernels k inductionHypothesis =>
    rw [runPartial_concat, List.forall_mem_append, List.forall_mem_singleton]
    refine Iff.trans ?_ (and_congr_left' inductionHypothesis)
    cases runPartial packKernel [] kernels with
    | none => simp
    | some rows => simpa using turn rows k

/-- A sort that permutes the kernels lets the rows be computed exactly when all times are
numbers. -/
theorem rowsByStream_isSome_iff
    {sort : (WindowKernel Sol → WindowKernel Sol → Option Int) → List (WindowKernel Sol) →
      List (WindowKernel Sol)}
    {kernels : List (WindowKernel Sol)}
    (permutes : (sort WindowKernel.compareStarts kernels).Perm kernels) :
    (rowsByStream sort kernels).isSome ↔
      ∀ k ∈ kernels, (signedBigInt k.tsNs).isSome ∧ (signedBigInt k.durationNs).isSome := by
  rw [rowsByStream, isSome_runPartial_packKernel_iff]
  exact forall_congr' fun k => imp_congr_left permutes.mem_iff

/-- With a sort that permutes the kernels into the order of their starts, the rows hold every
kernel once, one after the other in each row, and they are as many as kernels run at one instant at
most; no other rows are fewer. -/
theorem rowsByStream_minimal
    (sort : (WindowKernel Sol → WindowKernel Sol → Option Int) → List (WindowKernel Sol) →
      List (WindowKernel Sol))
    (kernels : List (WindowKernel Sol))
    (permutes : (sort WindowKernel.compareStarts kernels).Perm kernels)
    (ordered : (sort WindowKernel.compareStarts kernels).Pairwise
      fun first second => first.startNs ≤ second.startNs)
    (positive : ∀ k ∈ kernels, k.IsPositive) :
    ∃ rows, rowsByStream sort kernels = some rows ∧
      (rows.flatMap PackedRow.items).Perm kernels ∧
      (∀ row ∈ rows, row.items.Pairwise fun first second => first.endNs ≤ second.startNs) ∧
      IsGreatest (Set.range (running WindowKernel.startNs WindowKernel.endNs kernels))
        rows.length ∧
      ∀ others, IsPacking WindowKernel.startNs WindowKernel.endNs kernels others →
        rows.length ≤ others.length := by
  have sortedPositive : ∀ k ∈ sort WindowKernel.compareStarts kernels, k.IsPositive :=
    fun k member => positive k (permutes.mem_iff.mp member)
  have spans : ∀ k ∈ sort WindowKernel.compareStarts kernels, k.startNs < k.endNs :=
    fun k member => (sortedPositive k member).startNs_lt_endNs
  have packed := pack_invariant spans ordered
  have counts : running WindowKernel.startNs WindowKernel.endNs kernels =
      running WindowKernel.startNs WindowKernel.endNs (sort WindowKernel.compareStarts kernels) :=
    funext fun instant => (permutes.countP_eq _).symm
  refine ⟨_, runPartial_packKernel sortedPositive, packed.perm.trans permutes,
    fun row isRow => (packed.sound row isRow).follow, ?_, ?_⟩
  · rw [counts]
    exact pack_isGreatest spans ordered
  · rintro others ⟨perm, follow⟩
    exact pack_length_le spans ordered ⟨perm.trans permutes.symm, follow⟩

/-- A sort by the comparison, with kernels that start together left in their order. -/
def sortStable (compare : WindowKernel Sol → WindowKernel Sol → Option Int)
    (kernels : List (WindowKernel Sol)) : List (WindowKernel Sol) :=
  kernels.insertionSort fun first second => compare second first ≠ some (-1)

/-- Two kernels that touch, and one that overlaps both. -/
def touchingKernels : List (WindowKernel Unit) :=
  [⟨['1'], ['7'], "gemm", ['4'], ['6'], 0, none, none⟩,
    ⟨['2'], ['7'], "gemm", ['0'], ['4'], 0, none, none⟩,
    ⟨['3'], ['8'], "copy", ['2'], ['5'], 0, none, none⟩]

theorem rowsByStream_minimal_touching :
    ∃ rows, rowsByStream sortStable touchingKernels = some rows ∧
      (rows.flatMap PackedRow.items).Perm touchingKernels ∧
      IsGreatest (Set.range (running WindowKernel.startNs WindowKernel.endNs touchingKernels))
        rows.length := by
  have positive : ∀ k ∈ touchingKernels, k.IsPositive := by
    intro k member
    simp only [touchingKernels, List.mem_cons, List.not_mem_nil, or_false] at member
    rcases member with rfl | rfl | rfl <;> exact ⟨rfl, _, rfl, by decide⟩
  have ordered : (sortStable WindowKernel.compareStarts touchingKernels).Pairwise
      fun first second => first.startNs ≤ second.startNs := by
    decide
  obtain ⟨rows, isRows, perm, -, greatest, -⟩ := rowsByStream_minimal sortStable touchingKernels
    (List.perm_insertionSort _ _) ordered positive
  exact ⟨rows, isRows, perm, greatest⟩

end PerfWeave
