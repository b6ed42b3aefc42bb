/-
This file models `perfweave-common/src/intern.rs`: the agent's record of the string ids it has
announced on a connection. The hash is a parameter; nothing here depends on which function it
is.
-/

import PerfWeave.Proto

namespace PerfWeave

/-- `Interner`: the ids announced so far. -/
structure Interner where
  seen : Finset UInt64

namespace Interner

/-- `Interner::new`. -/
def new : Interner := ⟨∅⟩

/-- `Interner::record`: the id of a text, and the record to send when the id is new. -/
def record (hash : String → UInt64) (interner : Interner) (text : String) :
    (UInt64 × Option StringIntern) × Interner :=
  let id := hash text
  if id ∈ interner.seen then ((id, none), interner)
  else ((id, some ⟨id, text⟩), ⟨insert id interner.seen⟩)

/-- `Interner::reset`. -/
def reset (_ : Interner) : Interner := ⟨∅⟩

theorem mem_seen_record (hash : String → UInt64) (interner : Interner) (text : String)
    (id : UInt64) :
    id ∈ (interner.record hash text).2.seen ↔ id ∈ interner.seen ∨ hash text = id := by
  unfold record
  simp only
  split
  · rename_i known
    exact ⟨.inl, fun either => either.elim (fun seen => seen) fun same => same ▸ known⟩
  · rw [Finset.mem_insert, or_comm, eq_comm]

/-- A record is sent exactly for an id that is new. -/
theorem record_announces_iff (hash : String → UInt64) (interner : Interner) (text : String)
    (id : UInt64) :
    (∃ string ∈ (interner.record hash text).1.2.toList, string.id = id) ↔
      hash text = id ∧ id ∉ interner.seen := by
  unfold record
  simp only
  split
  · rename_i known
    refine ⟨fun ⟨_, member, _⟩ => absurd member (by simp), ?_⟩
    rintro ⟨rfl, fresh⟩
    exact absurd known fresh
  · rename_i fresh
    constructor
    · rintro ⟨string, member, rfl⟩
      rw [Option.mem_toList.mp member |> Option.some.inj |>.symm]
      exact ⟨rfl, fresh⟩
    · rintro ⟨rfl, _⟩
      exact ⟨_, Option.mem_toList.mpr rfl, rfl⟩

end Interner

end PerfWeave
