/-
This file is about passes over a keyed table. A pass visits keys in some order; a visit reads
and replaces the entry of its own key and emits outputs that belong to that key. Three rules
follow. What the outputs of a key have to do with its entry survives a pass as soon as it
survives a visit. Every output comes from a visit. And when no key is visited twice, what a
pass does to a key is what one visit does to it, whatever the order and the other entries.
-/

import Mathlib

namespace PerfWeave

variable {Key Entry Output : Type} [DecidableEq Key]

/-- One pass over the keys in the given order; none once a visit has failed. -/
def pass (visit : Key → Entry → Option (Entry × List Output)) :
    List Key → (Key → Entry) → Option ((Key → Entry) × List Output)
  | [], entries => some (entries, [])
  | key :: rest, entries =>
    (visit key (entries key)).bind fun visited =>
      (pass visit rest (Function.update entries key visited.1)).map fun (after, later) =>
        (after, visited.2 ++ later)

variable {visit : Key → Entry → Option (Entry × List Output)}

/-- A pass that succeeds over a first key: the visit of that key, then the rest of the pass. -/
theorem pass_cons_eq_some_iff (key : Key) (rest : List Key) (entries after : Key → Entry)
    (outputs : List Output) :
    pass visit (key :: rest) entries = some (after, outputs) ↔
      ∃ entry emitted later, visit key (entries key) = some (entry, emitted) ∧
        pass visit rest (Function.update entries key entry) = some (after, later) ∧
        outputs = emitted ++ later := by
  rw [pass]
  constructor
  · intro passed
    obtain ⟨⟨entry, emitted⟩, visited, passed⟩ := Option.bind_eq_some_iff.mp passed
    obtain ⟨⟨reached, later⟩, rest, same⟩ := Option.map_eq_some_iff.mp passed
    obtain ⟨rfl, rfl⟩ := Prod.mk.inj same
    exact ⟨entry, emitted, later, visited, rest, rfl⟩
  · rintro ⟨entry, emitted, later, visited, rest, rfl⟩
    rw [visited, Option.bind_some, rest]
    rfl

/-- Every output of a pass is emitted by a visit. -/
theorem exists_visit_of_mem_pass {order : List Key} {entries after : Key → Entry}
    {outputs : List Output} (passed : pass visit order entries = some (after, outputs))
    {output : Output} (member : output ∈ outputs) :
    ∃ key before entry emitted, key ∈ order ∧ visit key before = some (entry, emitted) ∧
      output ∈ emitted := by
  induction order generalizing entries outputs with
  | nil =>
    obtain ⟨rfl, rfl⟩ := Prod.mk.inj (Option.some.inj passed)
    exact absurd member List.not_mem_nil
  | cons key rest inductionHypothesis =>
    obtain ⟨entry, emitted, later, visited, passedRest, rfl⟩ :=
      (pass_cons_eq_some_iff key rest entries after outputs).mp passed
    rcases List.mem_append.mp member with now | inRest
    · exact ⟨key, _, entry, emitted, List.mem_cons_self, visited, now⟩
    · obtain ⟨other, before, otherEntry, otherEmitted, ordered, found⟩ :=
        inductionHypothesis passedRest inRest
      exact ⟨other, before, otherEntry, otherEmitted, List.mem_cons_of_mem _ ordered, found⟩

/-! ### Outputs by key -/

variable {owner : Output → Key}

/-- The outputs that belong to a key. -/
def ownedBy (owner : Output → Key) (key : Key) (outputs : List Output) : List Output :=
  outputs.filter fun output => owner output = key

theorem ownedBy_append (key : Key) (first second : List Output) :
    ownedBy owner key (first ++ second) = ownedBy owner key first ++ ownedBy owner key second :=
  List.filter_append _ _

theorem ownedBy_of_forall_eq {key : Key} {outputs : List Output}
    (owned : ∀ output ∈ outputs, owner output = key) : ownedBy owner key outputs = outputs :=
  List.filter_eq_self.mpr fun output member => decide_eq_true (owned output member)

theorem ownedBy_of_forall_ne {key other : Key} (differs : other ≠ key) {outputs : List Output}
    (owned : ∀ output ∈ outputs, owner output = key) : ownedBy owner other outputs = [] := by
  refine List.filter_eq_nil_iff.mpr fun output member => ?_
  rw [decide_eq_true_eq, owned output member]
  exact differs.symm

/-- The history rule: when what ties the past outputs of a key to its entry lets the key's visit
succeed and survives it, a pass succeeds and it holds of every key afterwards. -/
theorem pass_tracks {track : Key → List Output → Entry → Prop}
    (owned : ∀ key entry next emitted, visit key entry = some (next, emitted) →
      ∀ output ∈ emitted, owner output = key)
    (visits : ∀ key past entry, track key past entry →
      ∃ next emitted, visit key entry = some (next, emitted) ∧ track key (past ++ emitted) next)
    (order : List Key) {past : List Output} {entries : Key → Entry}
    (tracked : ∀ key, track key (ownedBy owner key past) (entries key)) :
    ∃ after outputs, pass visit order entries = some (after, outputs) ∧
      ∀ key, track key (ownedBy owner key (past ++ outputs)) (after key) := by
  induction order generalizing past entries with
  | nil =>
    refine ⟨entries, [], rfl, ?_⟩
    rwa [List.append_nil]
  | cons key rest inductionHypothesis =>
    obtain ⟨next, emitted, visited, trackedNext⟩ := visits key _ _ (tracked key)
    have ownedHere := owned _ _ _ _ visited
    have trackedHere : ∀ other, track other (ownedBy owner other (past ++ emitted))
        (Function.update entries key next other) := by
      intro other
      rw [ownedBy_append]
      by_cases same : other = key
      · rw [same, Function.update_self, ownedBy_of_forall_eq ownedHere]
        exact trackedNext
      · rw [Function.update_of_ne same, ownedBy_of_forall_ne same ownedHere, List.append_nil]
        exact tracked other
    obtain ⟨after, later, passed, trackedAfter⟩ := inductionHypothesis trackedHere
    refine ⟨after, emitted ++ later, ?_, ?_⟩
    · exact (pass_cons_eq_some_iff key rest entries after _).mpr
        ⟨next, emitted, later, visited, passed, rfl⟩
    · rwa [← List.append_assoc]

/-- A pass leaves the keys it does not visit as they are, and emits nothing for them. -/
theorem pass_of_not_mem {order : List Key} {entries after : Key → Entry} {outputs : List Output}
    (owned : ∀ key entry next emitted, visit key entry = some (next, emitted) →
      ∀ output ∈ emitted, owner output = key)
    (passed : pass visit order entries = some (after, outputs)) {key : Key}
    (unvisited : key ∉ order) : after key = entries key ∧ ownedBy owner key outputs = [] := by
  induction order generalizing entries outputs with
  | nil =>
    obtain ⟨rfl, rfl⟩ := Prod.mk.inj (Option.some.inj passed)
    exact ⟨rfl, rfl⟩
  | cons first rest inductionHypothesis =>
    rw [List.mem_cons, not_or] at unvisited
    obtain ⟨entry, emitted, later, visited, passedRest, rfl⟩ :=
      (pass_cons_eq_some_iff first rest entries after outputs).mp passed
    obtain ⟨kept, silent⟩ := inductionHypothesis passedRest unvisited.2
    rw [Function.update_of_ne unvisited.1] at kept
    refine ⟨kept, ?_⟩
    rw [ownedBy_append, silent, ownedBy_of_forall_ne unvisited.1 (owned _ _ _ _ visited)]
    rfl

/-- The locality rule: a pass that visits no key twice does to a key it visits what the visit
does, whatever the order and the other entries. -/
theorem pass_of_mem {order : List Key} {entries after : Key → Entry} {outputs : List Output}
    (owned : ∀ key entry next emitted, visit key entry = some (next, emitted) →
      ∀ output ∈ emitted, owner output = key)
    (passed : pass visit order entries = some (after, outputs)) (once : order.Nodup) {key : Key}
    (visited : key ∈ order) :
    visit key (entries key) = some (after key, ownedBy owner key outputs) := by
  induction order generalizing entries outputs with
  | nil => exact absurd visited List.not_mem_nil
  | cons first rest inductionHypothesis =>
    obtain ⟨firstUnseen, onceRest⟩ := List.nodup_cons.mp once
    obtain ⟨entry, emitted, later, visitedFirst, passedRest, rfl⟩ :=
      (pass_cons_eq_some_iff first rest entries after outputs).mp passed
    have ownedFirst := owned _ _ _ _ visitedFirst
    by_cases same : key = first
    · subst same
      obtain ⟨kept, silent⟩ := pass_of_not_mem owned passedRest firstUnseen
      rw [Function.update_self] at kept
      rw [ownedBy_append, ownedBy_of_forall_eq ownedFirst, silent, List.append_nil, kept]
      exact visitedFirst
    · have here := inductionHypothesis passedRest onceRest
        ((List.mem_cons.mp visited).resolve_left same)
      rw [Function.update_of_ne same] at here
      rw [ownedBy_append, ownedBy_of_forall_ne same ownedFirst, List.nil_append]
      exact here

end PerfWeave
