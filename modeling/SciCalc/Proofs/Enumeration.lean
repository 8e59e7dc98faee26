/-! Enumerations: what holds at the places of a sequence, listed in order. -/

namespace SciCalc

variable {α : Type}

/-- A list has all that holds at some place, and nothing else, in the order of the places. -/
structure Enumerates (list : List (α × Nat)) (holds : α → Nat → Prop) : Prop where
  ascending : list.Pairwise fun first second => first.2 < second.2
  mem_iff : ∀ a place, (a, place) ∈ list ↔ holds a place

namespace Enumerates

variable {list : List (α × Nat)} {holds others : α → Nat → Prop} {a : α} {place : Nat}

theorem nil (none : ∀ a place, ¬ holds a place) : Enumerates [] holds where
  ascending := .nil
  mem_iff a place := by simpa using none a place

/-- What holds first comes before all that holds at later places. -/
theorem cons (enumerates : Enumerates list others)
    (before : ∀ b other, others b other → place < other)
    (parts : ∀ b other, holds b other ↔ (b = a ∧ other = place) ∨ others b other)
    : Enumerates ((a, place) :: list) holds where
  ascending :=
    List.pairwise_cons.mpr
      ⟨fun member included => before _ _ ((enumerates.mem_iff _ _).mp included),
        enumerates.ascending⟩
  mem_iff b other := by
    rw [List.mem_cons, enumerates.mem_iff, parts, Prod.mk.injEq]

/-- What holds last comes behind all that holds at earlier places. -/
theorem concat (enumerates : Enumerates list others)
    (behind : ∀ b other, others b other → other < place)
    (parts : ∀ b other, holds b other ↔ others b other ∨ (b = a ∧ other = place))
    : Enumerates (list ++ [(a, place)]) holds where
  ascending := by
    refine List.pairwise_append.mpr ⟨enumerates.ascending, List.pairwise_singleton _ _, ?_⟩
    intro member included last only
    obtain rfl := List.mem_singleton.mp only
    exact behind _ _ ((enumerates.mem_iff _ _).mp included)
  mem_iff b other := by
    rw [List.mem_append, List.mem_singleton, enumerates.mem_iff, parts, Prod.mk.injEq]

end Enumerates

end SciCalc
