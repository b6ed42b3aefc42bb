/-
This file collects what the results on deliveries use of `List.SublistForall₂`: a list is that of
the images of part of another, in order and each once.
-/

import Mathlib.Data.List.Forall2

namespace PerfWeave

variable {First Second : Type} {related : First → Second → Prop}

/-- What is the image of part of a list stays so when both grow. -/
theorem sublistForall₂_append {first firstMore : List First} {second secondMore : List Second}
    (before : List.SublistForall₂ related first second)
    (more : List.SublistForall₂ related firstMore secondMore) :
    List.SublistForall₂ related (first ++ firstMore) (second ++ secondMore) := by
  obtain ⟨kept, relatedKept, isSublist⟩ := List.sublistForall₂_iff.mp before
  obtain ⟨keptMore, relatedMore, isSublistMore⟩ := List.sublistForall₂_iff.mp more
  exact List.sublistForall₂_iff.mpr
    ⟨kept ++ keptMore, List.rel_append relatedKept relatedMore, isSublist.append isSublistMore⟩

theorem sublistForall₂_of_sublist {first : List First} {second larger : List Second}
    (before : List.SublistForall₂ related first second) (isSublist : second.Sublist larger) :
    List.SublistForall₂ related first larger := by
  obtain ⟨kept, relatedKept, keptSublist⟩ := List.sublistForall₂_iff.mp before
  exact List.sublistForall₂_iff.mpr ⟨kept, relatedKept, keptSublist.trans isSublist⟩

/-- Part of the images are images of part. -/
theorem sublistForall₂_of_forall₂ {part first : List First} {second : List Second}
    (isSublist : part.Sublist first) (images : List.Forall₂ related first second) :
    List.SublistForall₂ related part second := by
  induction isSublist generalizing second with
  | slnil => exact .nil
  | cons item _ inductionHypothesis =>
    cases images with
    | cons _ rest => exact .cons_right (inductionHypothesis rest)
  | cons_cons item _ inductionHypothesis =>
    cases images with
    | cons here rest => exact .cons here (inductionHypothesis rest)

/-- The items that have an image, beside their images. -/
theorem forall₂_filter_flatMap {keeps : First → Bool} {images : First → List Second}
    {items : List First}
    (kept : ∀ item ∈ items, keeps item = true → ∃ other, images item = [other] ∧
      related item other)
    (dropped : ∀ item ∈ items, ¬ keeps item = true → images item = []) :
    List.Forall₂ related (items.filter keeps) (items.flatMap images) := by
  induction items with
  | nil => exact List.Forall₂.nil
  | cons item items inductionHypothesis =>
    have rest := inductionHypothesis
      (fun other member => kept other (List.mem_cons_of_mem _ member))
      fun other member => dropped other (List.mem_cons_of_mem _ member)
    rw [List.flatMap_cons]
    by_cases keep : keeps item = true
    · obtain ⟨other, isImage, here⟩ := kept item List.mem_cons_self keep
      rw [List.filter_cons_of_pos keep, isImage]
      exact List.Forall₂.cons here rest
    · rw [List.filter_cons_of_neg keep, dropped item List.mem_cons_self keep]
      exact rest

end PerfWeave
