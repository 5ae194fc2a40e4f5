import BackingFields.Class.Climb
import BackingFields.Property.Exposure
import BackingFields.Property.FieldMap
import BackingFields.Property.Settings
import BackingFields.Ty.Resolution

set_option relaxedAutoImplicit false
set_option autoImplicit false

/-!
# Collecting the properties of a class

A synthesizer climbs from a class to the root and makes a property for every field of interest:
each stored field of a source class, and each instance field of a compiled class whose name is
exposed on that very class.  A nearer class shadows the fields of the same name further up.

## Main definitions

* `BackingFields.Synthesizer` — what the host supplies: exposed names, the meaning of types,
  attribution and settings.
* `BackingFields.Synthesizer.candidates` — the fields of one class that may become properties.
* `BackingFields.Synthesizer.collect` — the properties of a class and its superclasses.

## Main results

* `BackingFields.Synthesizer.run_collect` — a query is the visits of its climb, then its fault.

## Design notes

The classes are visited in full before a fault of the climb is reported, so the names interned for
the visited classes stay interned when the query fails.

Whatever the host supplies may issue names of its own.  It is asked for the type and the origin of a
field only when the field gets a property.
-/

namespace BackingFields

/-- A computation on names that may fail to list the fields of a class. -/
abbrev ResolveM := ExceptT ResolveError NameM

/-! ## What the host supplies -/

/-- The meaning of a type in compiled metadata; finding it may issue names. -/
abbrev TypeMeaning := ClassTable → BinaryType → NameM Ty

/-- Types mean what their class names refer to. -/
def TypeMeaning.resolved : TypeMeaning := fun classes raw => classes.resolve raw

/-- The attribution of a field of a compiled class; finding it may issue names. -/
abbrev Attribution := ClassEntry → BinaryField Name → NameM Origin

/-- Fields are attributed to their class and their name. -/
def Attribution.external : Attribution := fun owner field => Origin.compiled owner.id field.name

/-- What the host supplies to turn fields into properties. -/
structure Synthesizer where
  /-- The property names exposed on each class. -/
  exposure : Exposure := Exposure.accessors
  /-- The meaning of a type in compiled metadata. -/
  typeOf : TypeMeaning := TypeMeaning.resolved
  /-- The attribution of a field of a compiled class. -/
  originOf : Attribution := Attribution.external
  /-- The limit and the descriptions. -/
  settings : Settings := {}

/-! ## Candidates -/

/-- A field that may become a property. -/
inductive Candidate where
  /-- A field of a source class. -/
  | source (field : SourceField Name)
  /-- A field of a compiled class. -/
  | binary (field : BinaryField Name)

namespace Candidate

/-- The name of the field. -/
def name : Candidate → Name
  | source field => field.name
  | binary field => field.name

/-- Whether the field may be assigned. -/
def isVar : Candidate → Bool
  | source field => field.isVar
  | binary field => !field.isFinal

end Candidate

/-! ## Queries -/

namespace Synthesizer

/-- What the property for a field of a class is made from.  The type of a field of a compiled class
says nothing about type arguments. -/
def facts (s : Synthesizer) (classes : ClassTable) (owner : ClassEntry) :
    Candidate → NameM FieldFacts
  | .source field => return ⟨field.name, field.ty, field.isVar, field.origin⟩
  | .binary field => do
    let ty ← s.typeOf classes field.ty
    let origin ← s.originOf owner field
    return ⟨field.name, ty.starProject, !field.isFinal, origin⟩

/-- The fields of a class that may become properties, in the order of declaration.  The exposed
names of a compiled class are looked up only if it has fields at all. -/
def candidates (s : Synthesizer) (classes : ClassTable) (owner : ClassEntry) :
    DeclaredFields → NameM (List Candidate)
  | .source fields => return (fields.filter SourceField.hasBackingField).map .source
  | .binary [] => return []
  | .binary fields => do
    let exposed ← s.exposure classes owner.id
    return (fields.filter fun f => !f.isStatic && exposed.contains f.name).map .binary

/-- The description of the fields of a class. -/
def description (s : Synthesizer) : DeclaredFields → String
  | .source _ => s.settings.backingLabel
  | .binary _ => s.settings.externalLabel

/-- Makes the property for a field of a visited class. -/
def propertyOf (s : Synthesizer) (classes : ClassTable) (visit : Visit) (field : Candidate) :
    NameM FieldProperty := do
  let facts ← s.facts classes visit.entry field
  FieldProperty.ofField visit.entry facts (s.description visit.fields)

/-- Adds the properties of one visited class to those found so far. -/
def collectVisit (s : Synthesizer) (classes : ClassTable) (found : FieldMap) (visit : Visit) :
    NameM FieldMap := do
  let fields ← s.candidates classes visit.entry visit.fields
  fields.foldlM (fun found f => found.offer f.name (s.propertyOf classes visit f)) found

/-- The properties of a class and its superclasses, or what stopped the climb. -/
def collect (s : Synthesizer) (classes : ClassTable) (start : ClassId) : ResolveM FieldMap :=
  let climb := classes.climb s.settings.depthLimit start
  ExceptT.mk do
    let found ← climb.visited.foldlM (s.collectVisit classes) .empty
    match climb.fault with
    | none => return .ok found
    | some fault => return .error fault

/-- A query visits the classes of the climb one after the other and then reports its fault; the
names that the visits interned stay in either case. -/
theorem run_collect (s : Synthesizer) (classes : ClassTable) (start : ClassId)
    (names : NameTable) :
    (s.collect classes start).run.run names =
      let climb := classes.climb s.settings.depthLimit start
      let (found, names) := (climb.visited.foldlM (s.collectVisit classes) .empty).run names
      (climb.fault.elim (.ok found) .error, names) := by
  simp only [collect, ExceptT.run_mk, StateT.run_bind]
  cases (classes.climb s.settings.depthLimit start).fault <;> rfl

end Synthesizer

end BackingFields
