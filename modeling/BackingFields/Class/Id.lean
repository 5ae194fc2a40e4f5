import Std.Data.TreeMap

set_option relaxedAutoImplicit false
set_option autoImplicit false

/-!
# Class handles

Classes are numbered in the order of their declaration, and the root of a hierarchy comes first.

## Main definitions

* `BackingFields.ClassId` — the position of a class in its table; `ClassId.root` is the first.
-/

namespace BackingFields

/-- A class by its position in the table that holds it. -/
structure ClassId where
  /-- The position, counted from zero. -/
  index : UInt32
deriving DecidableEq, Inhabited

namespace ClassId

/-- Classes are ordered by their position. -/
instance : Ord ClassId := ⟨compareOn ClassId.index⟩

instance : Std.TransOrd ClassId := inferInstanceAs (Std.TransCmp (compareOn ClassId.index))

instance : Std.LawfulEqOrd ClassId where
  eq_of_compare {a b} h := by
    have h : compare a.index b.index = .eq := h
    cases a
    cases b
    simpa using Std.LawfulEqOrd.eq_of_compare h

/-- The class at the top of every hierarchy. -/
def root : ClassId := ⟨0⟩

/-- Whether a class is the root. -/
def isRoot (c : ClassId) : Bool := c == root

/-- The text of a class handle with its type. -/
def describe (c : ClassId) : String := s!"ClassId({c.index})"

@[simp]
theorem isRoot_iff {c : ClassId} : c.isRoot = true ↔ c = root := by
  simp [isRoot]

@[simp]
theorem isRoot_eq_false_iff {c : ClassId} : c.isRoot = false ↔ c ≠ root := by
  simp [isRoot]

end ClassId

end BackingFields
