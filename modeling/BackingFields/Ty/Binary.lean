import BackingFields.Ty.Basic

set_option relaxedAutoImplicit false
set_option autoImplicit false

/-!
# Types in the metadata of compiled classes

Compiled classes refer to other classes by name and may leave out the arguments of a generic
class.  `BackingFields.ClassTable.resolve` looks such a type up.

## Main definitions

* `BackingFields.BinaryType` — a field or return type as compiled metadata spells it.
-/

namespace BackingFields

/-- A field or return type as it stands in compiled metadata. -/
inductive BinaryType where
  | primitive (p : Primitive)
  /-- A class by its qualified name, with its arguments or, in a raw use, without. -/
  | ofClass (name : String) (args : List BinaryType)
  | array (elem : BinaryType)
  /-- A type variable such as `T`. -/
  | typeVar (name : String)
  /-- The wildcard `?`, which is meant as a type argument. -/
  | wildcard

namespace BinaryType

instance : Inhabited BinaryType := ⟨.primitive .void⟩

/-- Whether a type is a given primitive one. -/
def isPrimitive (p : Primitive) : BinaryType → Bool
  | .primitive q => p == q
  | _ => false

end BinaryType

end BackingFields
