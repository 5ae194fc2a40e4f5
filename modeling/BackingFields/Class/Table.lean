import BackingFields.Class.Error
import BackingFields.Ty.StarProjection

set_option relaxedAutoImplicit false
set_option autoImplicit false

/-!
# The table of classes

A table holds the classes of one hierarchy in the order of their declaration and finds them by
handle and by qualified name.  Every class but the root names a superclass that was declared
before it.

## Main definitions

* `BackingFields.ClassEntry` — one class of a table.
* `BackingFields.ClassTable` — the classes, with `get?`, `named?`, `properSuperclass?`.
* `BackingFields.DeclaredFields` — the fields that a class declares itself, with
  `ClassTable.declaredFields`.
-/

namespace BackingFields

/-! ## One class -/

/-- A class of a table. -/
structure ClassEntry where
  /-- The position of the class in its table. -/
  id : ClassId
  /-- The qualified name, interned. -/
  name : Name
  /-- The qualified name. -/
  qualifiedName : String
  /-- The names of the type parameters. -/
  typeParams : List String
  /-- The superclass, which only the root lacks. -/
  superclass : Option ClassId
  /-- What the class lists. -/
  members : Members Name

namespace ClassEntry

/-- The representation of a class. -/
def kind (c : ClassEntry) : ClassKind := c.members.kind

/-- The number of type parameters. -/
def arity (c : ClassEntry) : Nat := c.typeParams.length

/-- The type of a class inside itself: each type parameter is its own argument. -/
def defaultType (c : ClassEntry) : Ty :=
  .ofClass c.id (c.typeParams.map fun p => .type (.param p))

end ClassEntry

/-- The fields that a class declares itself, in the shape of its representation. -/
inductive DeclaredFields where
  | source (fields : List (SourceField Name))
  | binary (fields : List (BinaryField Name))

/-- The fields that a class declares itself; a class that was never loaded has no answer. -/
def ClassEntry.declaredFields (c : ClassEntry) : Except ResolveError DeclaredFields :=
  match c.members with
  | .source fields => .ok (.source fields)
  | .binary fields _ => .ok (.binary fields)
  | .unloaded => .error (.unsupportedRepresentation c.qualifiedName .unloaded)

/-! ## All classes -/

/-- The classes of one hierarchy. -/
structure ClassTable where
  /-- The classes in the order of their declaration, the root first. -/
  entries : Array ClassEntry
  /-- The handle of each qualified name. -/
  ids : Std.TreeMap String ClassId

namespace ClassTable

/-- The root class under a name: a source class without fields, type parameters or superclass. -/
def rootEntry (name : Name) (qualifiedName : String) : ClassEntry where
  id := .root
  name := name
  qualifiedName := qualifiedName
  typeParams := []
  superclass := none
  members := .source []

/-- The table that holds the root alone. -/
def ofRoot (name : Name) (qualifiedName : String) : ClassTable where
  entries := #[rootEntry name qualifiedName]
  ids := (∅ : Std.TreeMap String ClassId).insert qualifiedName .root

/-- Adds a class behind the others. -/
def push (t : ClassTable) (c : ClassEntry) : ClassTable where
  entries := t.entries.push c
  ids := t.ids.insert c.qualifiedName c.id

/-- How many classes the table holds, the root included. -/
def size (t : ClassTable) : Nat := t.entries.size

/-- The class at a position. -/
def get? (t : ClassTable) (id : ClassId) : Option ClassEntry := t.entries[id.index.toNat]?

/-- The handle of a qualified name. -/
def named? (t : ClassTable) (qualifiedName : String) : Option ClassId := t.ids[qualifiedName]?

/-- The number of type parameters of a class. -/
def arity (t : ClassTable) (id : ClassId) : Nat := (t.get? id).elim 0 ClassEntry.arity

/-- The representation of a class. -/
def kind? (t : ClassTable) (id : ClassId) : Option ClassKind := (t.get? id).map ClassEntry.kind

/-- The superclass of a class, unless it is the root. -/
def properSuperclass? (t : ClassTable) (id : ClassId) : Option ClassId :=
  ((t.get? id).bind ClassEntry.superclass).filter fun s => !s.isRoot

/-- The fields that a class declares itself. -/
def declaredFields (t : ClassTable) (id : ClassId) : Except ResolveError DeclaredFields :=
  match t.get? id with
  | none => .error (.unknownClass id)
  | some c => c.declaredFields

/-- The qualified name of a class for messages; a class that is not in the table shows its
handle. -/
def display (t : ClassTable) (id : ClassId) : String :=
  (t.get? id).elim id.describe ClassEntry.qualifiedName

/-! ### Small facts -/

/-- A class is shown by its qualified name. -/
theorem display_of_get?_eq_some {t : ClassTable} {id : ClassId} {c : ClassEntry}
    (hc : t.get? id = some c) : t.display id = c.qualifiedName := by
  rw [display, hc, Option.elim_some]

/-- A class is found at the position behind the earlier ones. -/
@[simp]
theorem get?_push (t : ClassTable) (c : ClassEntry) (id : ClassId) :
    (t.push c).get? id = if id.index.toNat = t.size then some c else t.get? id := by
  exact Array.getElem?_push

/-- A class is found under its qualified name. -/
@[simp]
theorem named?_push (t : ClassTable) (c : ClassEntry) (qualifiedName : String) :
    (t.push c).named? qualifiedName =
      if c.qualifiedName = qualifiedName then some c.id else t.named? qualifiedName := by
  simp [named?, push, Std.TreeMap.getElem?_insert]

end ClassTable

end BackingFields
