/-
This file counts events that keep a distance. Events of one owner that are at least a period apart
cannot be many in a window, and neither can those of a few owners together.
-/

import PerfWeave.Library.KeyedPass

namespace PerfWeave

/-! ### One owner -/

/-- Times in a window that are at least a period apart, each earlier than the next. -/
structure SpacedWithin (period first past : Nat) (times : List Nat) : Prop where
  spaced : times.Pairwise fun earlier later => earlier + period ≤ later
  within : ∀ time ∈ times, first ≤ time ∧ time < past

theorem SpacedWithin.tail {period first past time : Nat} {times : List Nat}
    (kept : SpacedWithin period first past (time :: times)) :
    SpacedWithin period (time + period) past times := by
  obtain ⟨after, spaced⟩ := List.pairwise_cons.mp kept.spaced
  exact ⟨spaced, fun later member =>
    ⟨after later member, (kept.within later (List.mem_cons_of_mem time member)).2⟩⟩

theorem SpacedWithin.length_mul_le {period first past : Nat} {times : List Nat}
    (kept : SpacedWithin period first past times) :
    times.length * period ≤ past - first + period - 1 := by
  induction times generalizing first with
  | nil =>
    rw [List.length_nil, Nat.zero_mul]
    exact Nat.zero_le _
  | cons time times inductionHypothesis =>
    have rest := inductionHypothesis kept.tail
    obtain ⟨atLeast, below⟩ := kept.within time List.mem_cons_self
    rw [List.length_cons, Nat.succ_mul]
    cases times with
    | nil =>
      rw [List.length_nil, Nat.zero_mul]
      omega
    | cons next times =>
      have later := (kept.tail.within next List.mem_cons_self)
      omega

/-- In a window there is room for one event, and for one more in each period. -/
theorem SpacedWithin.length_le {period first past : Nat} {times : List Nat}
    (kept : SpacedWithin period first past times) (positive : 0 < period) :
    times.length ≤ (past - first) / period + 1 := by
  rw [← Nat.add_div_right _ positive, Nat.le_div_iff_mul_le positive]
  exact kept.length_mul_le.trans (Nat.sub_le _ _)

/-! ### Several owners -/

variable {Key Output : Type} [DecidableEq Key] {owner : Output → Key}

/-- Outputs of a few owners, of which none has more than so many. -/
theorem length_le_of_owned {keys : List Key} {outputs : List Output} {bound : Nat}
    (owned : ∀ output ∈ outputs, owner output ∈ keys)
    (bounded : ∀ key, (ownedBy owner key outputs).length ≤ bound) :
    outputs.length ≤ keys.length * bound := by
  induction keys generalizing outputs with
  | nil =>
    rw [List.eq_nil_iff_forall_not_mem.mpr fun output member =>
      List.not_mem_nil (owned output member)]
    exact Nat.zero_le _
  | cons key keys inductionHypothesis =>
    have others : (outputs.filter fun output => !decide (owner output = key)).length ≤
        keys.length * bound := by
      refine inductionHypothesis (fun output member => ?_) fun other => ?_
      · obtain ⟨inOutputs, differs⟩ := List.mem_filter.mp member
        refine (List.mem_cons.mp (owned output inOutputs)).resolve_left fun same => ?_
        rw [decide_eq_true same] at differs
        exact Bool.false_ne_true differs
      · exact ((List.filter_sublist.filter _).length_le).trans (bounded other)
    rw [List.length_cons, Nat.succ_mul, List.length_eq_length_filter_add fun output =>
      decide (owner output = key), Nat.add_comm]
    exact Nat.add_le_add others (bounded key)

end PerfWeave
