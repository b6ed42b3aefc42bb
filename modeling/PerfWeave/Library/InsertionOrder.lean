/-
This file collects items under their keys in a map that keeps the order of insertion. An item goes
to the group of its key, and opens one behind the others when its key is new. So the groups stand
in the order in which their keys first occur, and each is what the items of its key make of an
empty group, in their order.
-/

import Mathlib

namespace PerfWeave

variable {Item Key Group : Type}

/-- How items are grouped: the key of an item, the empty group of a key, the key of a group, and
a group with one more item. -/
structure Grouping (Item Key Group : Type) where
  keyOf : Item → Key
  empty : Key → Group
  key : Group → Key
  push : Group → Item → Group
  key_empty : ∀ k, key (empty k) = k
  key_push : ∀ g item, key (push g item) = key g

namespace Grouping

theorem key_foldl_push (grouping : Grouping Item Key Group) (items : List Item) (g : Group) :
    grouping.key (items.foldl grouping.push g) = grouping.key g := by
  induction items generalizing g with
  | nil => rfl
  | cons item rest inductionHypothesis =>
    rw [List.foldl_cons, inductionHypothesis, grouping.key_push]

variable [DecidableEq Key]

/-- The groups after one more item. -/
def insert (grouping : Grouping Item Key Group) (groups : List Group) (item : Item) : List Group :=
  if groups.any fun g => grouping.key g = grouping.keyOf item then
    groups.map fun g => if grouping.key g = grouping.keyOf item then grouping.push g item else g
  else groups ++ [grouping.push (grouping.empty (grouping.keyOf item)) item]

/-- The keys of items in the order in which they first occur. -/
def keys (grouping : Grouping Item Key Group) (items : List Item) : List Key :=
  (items.map grouping.keyOf).eraseDups

/-- The group of a key. -/
def groupOf (grouping : Grouping Item Key Group) (items : List Item) (k : Key) : Group :=
  (items.filter fun item => grouping.keyOf item = k).foldl grouping.push (grouping.empty k)

variable (grouping : Grouping Item Key Group)

theorem key_groupOf (items : List Item) (k : Key) :
    grouping.key (grouping.groupOf items k) = k := by
  rw [groupOf, key_foldl_push, grouping.key_empty]

theorem groupOf_concat_self (items : List Item) (item : Item) :
    grouping.groupOf (items ++ [item]) (grouping.keyOf item) =
      grouping.push (grouping.groupOf items (grouping.keyOf item)) item := by
  simp [groupOf, List.filter_append]

theorem groupOf_concat_of_ne (items : List Item) {item : Item} {k : Key}
    (other : grouping.keyOf item ≠ k) :
    grouping.groupOf (items ++ [item]) k = grouping.groupOf items k := by
  simp [groupOf, List.filter_append, other]

theorem groupOf_of_not_mem {items : List Item} {k : Key} (new : k ∉ items.map grouping.keyOf) :
    grouping.groupOf items k = grouping.empty k := by
  have none : (items.filter fun item => grouping.keyOf item = k) = [] := by
    refine List.filter_eq_nil_iff.mpr fun item member same => new ?_
    exact List.mem_map.mpr ⟨item, member, of_decide_eq_true same⟩
  rw [groupOf, none, List.foldl_nil]

/-- The keys after one more item. -/
theorem keys_concat (items : List Item) (item : Item) :
    grouping.keys (items ++ [item]) = if grouping.keyOf item ∈ items.map grouping.keyOf then
      grouping.keys items else grouping.keys items ++ [grouping.keyOf item] := by
  rw [keys, keys, List.map_append, List.map_singleton, List.eraseDups_append, List.removeAll]
  split
  next known =>
    rw [List.filter_singleton, List.elem_eq_true_of_mem known]
    simp
  next new =>
    rw [List.filter_singleton, List.elem_eq_contains, List.contains_eq_mem, decide_eq_false new]
    rfl

theorem mem_keys {items : List Item} {k : Key} :
    k ∈ grouping.keys items ↔ k ∈ items.map grouping.keyOf :=
  List.mem_eraseDups

/-- Each key is there once. -/
theorem nodup_keys (items : List Item) : (grouping.keys items).Nodup := by
  induction items using List.reverseRecOn with
  | nil => exact List.nodup_nil
  | append_singleton items item inductionHypothesis =>
    rw [keys_concat]
    split
    next known => exact inductionHypothesis
    next new =>
      refine List.nodup_append.mpr ⟨inductionHypothesis, List.nodup_singleton _, ?_⟩
      rintro k isKey _ isNew rfl
      rw [List.mem_singleton.mp isNew] at isKey
      exact new (grouping.mem_keys.mp isKey)

/-- Inserted one after the other, the items are in the groups of their keys. -/
theorem foldl_insert (items : List Item) :
    items.foldl grouping.insert [] = (grouping.keys items).map (grouping.groupOf items) := by
  induction items using List.reverseRecOn with
  | nil => rfl
  | append_singleton items item inductionHypothesis =>
    have found : (((grouping.keys items).map (grouping.groupOf items)).any fun g =>
        grouping.key g = grouping.keyOf item) = true ↔
          grouping.keyOf item ∈ items.map grouping.keyOf := by
      simp [key_groupOf, mem_keys]
    rw [List.foldl_append, List.foldl_cons, List.foldl_nil, inductionHypothesis, insert,
      keys_concat]
    by_cases known : grouping.keyOf item ∈ items.map grouping.keyOf
    · rw [if_pos (found.mpr known), if_pos known, List.map_map]
      refine List.map_congr_left fun k _ => ?_
      rw [Function.comp_apply, key_groupOf]
      split
      next same => rw [same, groupOf_concat_self]
      next other => exact (grouping.groupOf_concat_of_ne items (Ne.symm other)).symm
    · rw [if_neg (fun isFound => known (found.mp isFound)), if_neg known, List.map_append,
        List.map_singleton, groupOf_concat_self, groupOf_of_not_mem grouping known]
      congr 1
      refine List.map_congr_left fun k isKey => ?_
      refine (grouping.groupOf_concat_of_ne items fun same => ?_).symm
      exact known (same ▸ grouping.mem_keys.mp isKey)

end Grouping

end PerfWeave
