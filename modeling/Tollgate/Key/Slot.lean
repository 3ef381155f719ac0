/-! # Values with a generation

A value that several callers read and one at a time replaces.  The generation counts the
replacements, so that a caller who waited can tell whether someone else was faster.
-/

namespace Tollgate

/-- A value and the number of times it was replaced. -/
structure Slot (α : Type) where
  generation : Nat
  value : α
  deriving Repr, DecidableEq

namespace Slot

variable {α : Type}

def fresh (value : α) : Slot α := ⟨0, value⟩

def replace (s : Slot α) (value : α) : Slot α := ⟨s.generation + 1, value⟩

/-- Whether the value was replaced since a generation was seen. -/
def changedSince (s : Slot α) (seen : Nat) : Bool := s.generation ≠ seen

end Slot

end Tollgate
