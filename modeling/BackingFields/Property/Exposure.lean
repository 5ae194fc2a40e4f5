import BackingFields.Class.Table
import BackingFields.Text.Capitals

set_option relaxedAutoImplicit false
set_option autoImplicit false

/-!
# Property names that a compiled class exposes

A compiled class lists every field that its compiler emitted, and most of them are noise.  Only a
field whose name is already exposed as a property of the same class is of interest.  The host
chooses where the exposed names come from; each class is asked for itself, never for a hierarchy.

## Main definitions

* `BackingFields.Exposure` — the property names exposed on each class.
* `BackingFields.Method.propertyName?` — the property that an accessor method stands for.
* `BackingFields.Exposure.accessors` — the names that the accessor methods of a class stand for.
* `BackingFields.FixedNames`, `BackingFields.Exposure.fixed` — names that the host lists itself.
-/

namespace BackingFields

/-- The property names exposed on a class; finding them may intern them. -/
abbrev Exposure := ClassTable → ClassId → NameM NameSet

/-! ## Names from accessor methods -/

/-- The property that a method stands for, if it is an accessor: an instance method without
parameters that is either `is` and a word and returns exactly a boolean, or `get` and a word and
returns any value at all.  The first kind stands for its whole name, the second for its word. -/
def Method.propertyName? (m : Method) : Option String :=
  if m.isStatic || m.paramCount != 0 then none
  else
    match m.name.toList with
    | 'i' :: 's' :: word =>
      if Text.beginsWord word && m.returns.isPrimitive .boolean then some m.name else none
    | 'g' :: 'e' :: 't' :: word =>
      if Text.beginsWord word && !m.returns.isPrimitive .void then
        some (String.ofList (Text.decapitalize word))
      else none
    | _ => none

/-- The properties that the accessor methods of a class stand for, in the order of the methods. -/
def ClassEntry.accessorNames (c : ClassEntry) : List String :=
  c.members.methods.filterMap Method.propertyName?

/-- Exposes what the accessor methods of a class stand for, which is nothing unless the class is
a compiled one. -/
def Exposure.accessors : Exposure := fun classes id => do
  let names ← NameM.internAll ((classes.get? id).elim [] ClassEntry.accessorNames)
  return .ofList names

/-- A class of the table exposes what its accessor methods stand for. -/
theorem Exposure.accessors_eq {classes : ClassTable} {id : ClassId} {c : ClassEntry}
    (hc : classes.get? id = some c) : Exposure.accessors classes id = (do
      let names ← NameM.internAll (c.members.methods.filterMap Method.propertyName?)
      return .ofList names) := by
  rw [accessors, hc]
  rfl

/-! ## Names listed by the host -/

/-- The property names that the host lists for each class. -/
abbrev FixedNames := Std.TreeMap ClassId NameSet

namespace FixedNames

/-- The names listed for a class. -/
def namesOf (f : FixedNames) (id : ClassId) : NameSet := f[id]?.getD ∅

/-- Lists further names for a class, interning them in order.  The class need not exist. -/
def add (f : FixedNames) (id : ClassId) (texts : List String) : NameM FixedNames := do
  let names ← NameM.internAll texts
  return f.insert id ((f.namesOf id).insertMany names)

/-- The table of several listings; those for the same class add up. -/
def ofList (listings : List (ClassId × List String)) : NameM FixedNames :=
  listings.foldlM (fun f (id, texts) => f.add id texts) ∅

end FixedNames

/-- Exposes what the host has listed. -/
def Exposure.fixed (f : FixedNames) : Exposure := fun _ id => return f.namesOf id

@[simp]
theorem Exposure.run_fixed (f : FixedNames) (classes : ClassTable) (id : ClassId) (t : NameTable) :
    (Exposure.fixed f classes id).run t = (f.namesOf id, t) := rfl

end BackingFields
