import BackingFields.Ty.Basic

set_option relaxedAutoImplicit false
set_option autoImplicit false

/-!
# Star projection

A star-projected type says nothing about its type arguments, so a value of any instance of a
generic class fits it.

## Main definitions

* `BackingFields.Ty.starProject` — the type with every top-level argument replaced by a star.
* `BackingFields.Ty.isStarProjected` — whether no top-level argument is a concrete type.

## Design notes

An array of a primitive type is laid out unlike an array of objects, so its element type is kept
and such an array counts as star-projected.
-/

namespace BackingFields

/-- The element of a star-projected array: a primitive element stays, any other becomes a star. -/
def TypeArg.starElement : TypeArg → TypeArg
  | .type (.primitive p) => .type (.primitive p)
  | _ => .star

namespace Ty

/-- Replaces every top-level type argument by a star. -/
def starProject : Ty → Ty
  | .ofClass id args => .ofClass id (args.map fun _ => .star)
  | .array elem => .array elem.starElement
  | ty => ty

/-- Whether no top-level argument is a concrete type; the element of a primitive array is none. -/
def isStarProjected : Ty → Bool
  | .ofClass _ args => args.all TypeArg.isStar
  | .array .star => true
  | .array (.type elem) => elem.isPrimitive
  | _ => true

/-- Projection keeps the class that a type is built on. -/
@[simp]
theorem classId?_starProject (t : Ty) : t.starProject.classId? = t.classId? := by
  cases t <;> rfl

end Ty

end BackingFields
