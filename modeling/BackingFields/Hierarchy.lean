import BackingFields.Class.Declaration

set_option relaxedAutoImplicit false
set_option autoImplicit false

/-!
# Class hierarchies

A hierarchy is a class table with the name table that its names live in.  It begins with the root
class and grows by declarations; queries read the classes and may extend the names.

## Main definitions

* `BackingFields.Hierarchy` — the classes and the names.
* `BackingFields.Hierarchy.ofRoot` — the hierarchy that holds a root class alone.
* `BackingFields.Hierarchy.declare` — adds a class, or tells why not.
* `BackingFields.Hierarchy.query` — runs a computation over the names, which leaves the classes
  alone.
-/

namespace BackingFields

/-- The classes known to the evaluator, with the table of their names. -/
structure Hierarchy where
  /-- The classes. -/
  classes : ClassTable
  /-- The names of classes, fields and symbols. -/
  names : NameTable

namespace Hierarchy

/-- The name of the root class where the host gives none. -/
def defaultRootName : String := "Any"

/-- The hierarchy that holds a root class alone.  The root may have any name. -/
def ofRoot (rootName : String) : Hierarchy :=
  let (name, names) := NameTable.empty.intern rootName
  ⟨.ofRoot name rootName, names⟩

instance : Inhabited Hierarchy := ⟨ofRoot defaultRootName⟩

/-- Adds a class.  A faulty declaration adds none, but the names of the fields that were accepted
before the fault stay interned. -/
def declare (h : Hierarchy) (d : ClassDecl) : Except DeclarationError ClassId × Hierarchy :=
  match (h.classes.newEntry d).run.run h.names with
  | (.ok c, names) => (.ok c.id, ⟨h.classes.push c, names⟩)
  | (.error e, names) => (.error e, ⟨h.classes, names⟩)

/-- Runs a computation over the names of a hierarchy. -/
def query {α : Type} (h : Hierarchy) (q : NameM α) : α × Hierarchy :=
  let (answer, names) := q.run h.names
  (answer, ⟨h.classes, names⟩)

/-- A faulty declaration leaves the classes as they are. -/
theorem classes_declare_of_error {h : Hierarchy} {d : ClassDecl} {e : DeclarationError}
    (he : (h.declare d).1 = .error e) : (h.declare d).2.classes = h.classes := by
  unfold declare at he ⊢
  split at he
  · cases he
  · rfl

/-- No query changes the classes. -/
@[simp]
theorem classes_query {α : Type} (h : Hierarchy) (q : NameM α) :
    (h.query q).2.classes = h.classes :=
  rfl

end Hierarchy

end BackingFields
