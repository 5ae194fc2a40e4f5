import BackingFields.Class.Table
import BackingFields.Ty.StarProjection

set_option relaxedAutoImplicit false
set_option autoImplicit false

/-!
# Resolving the types of compiled metadata

Class names are looked up in the class table.  A name that no class has stays unresolved.  A class
whose argument count is wrong, in particular a raw use of a generic class, gets a star for each of
its type parameters, and so does each argument that is a wildcard.  A wildcard outside an argument
stands for the root class.

## Main definitions

* `BackingFields.ClassTable.resolve` — the type that compiled metadata means.
* `BackingFields.ClassTable.resolveArg` — the same for a type argument.

## Main results

* `BackingFields.ClassTable.resolveArgs_eq_map` — arguments are resolved one by one.
-/

namespace BackingFields

/-- A resolved type in the position of an argument, where a wildcard is a star. -/
def BinaryType.asArgument (b : BinaryType) (resolved : Ty) : TypeArg :=
  match b with
  | .wildcard => .star
  | _ => .type resolved

namespace ClassTable

mutual

/-- The type that compiled metadata means, by the classes known so far. -/
def resolve (t : ClassTable) : BinaryType → Ty
  | .primitive p => .primitive p
  | .ofClass name args =>
    match t.named? name with
    | none => .unresolved name
    | some id =>
      if args.length = t.arity id then .ofClass id (t.resolveArgs args)
      else .ofClass id (List.replicate (t.arity id) .star)
  | .array elem => .array (elem.asArgument (t.resolve elem))
  | .typeVar name => .param name
  | .wildcard => .simple .root

/-- The arguments that compiled metadata means. -/
def resolveArgs (t : ClassTable) : List BinaryType → List TypeArg
  | [] => []
  | b :: bs => b.asArgument (t.resolve b) :: t.resolveArgs bs

end

/-- The argument that compiled metadata means: a star for a wildcard, else the resolved type. -/
def resolveArg (t : ClassTable) (b : BinaryType) : TypeArg := b.asArgument (t.resolve b)

/-- Arguments are resolved one by one. -/
@[simp]
theorem resolveArgs_eq_map (t : ClassTable) (bs : List BinaryType) :
    t.resolveArgs bs = bs.map t.resolveArg := by
  induction bs with
  | nil => rfl
  | cons b bs ih => rw [resolveArgs, ih, List.map_cons, resolveArg]

variable (t : ClassTable)

@[simp]
theorem resolve_primitive (p : Primitive) : t.resolve (.primitive p) = .primitive p := by
  rw [resolve]

@[simp]
theorem resolve_array (elem : BinaryType) :
    t.resolve (.array elem) = .array (t.resolveArg elem) := by
  rw [resolve, resolveArg]

@[simp]
theorem resolve_typeVar (name : String) : t.resolve (.typeVar name) = .param name := by
  rw [resolve]

@[simp]
theorem resolve_wildcard : t.resolve .wildcard = .ofClass .root [] := by
  rw [resolve, Ty.simple]

end ClassTable

end BackingFields
