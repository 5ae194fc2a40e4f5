import BackingFields.Proofs.Class.Growth
import BackingFields.Proofs.Property.Growth

set_option relaxedAutoImplicit false
set_option autoImplicit false

/-!
# Histories of a hierarchy

A hierarchy begins with its root class and is changed by what the host asks of it: declarations,
which may fail, and queries, which extend the names.  Every operation is one of two kinds of step:
it leaves the classes alone, or it adds the one class that a declaration describes.

## Main definitions

* `BackingFields.Operation` — whatever a host may ask of a hierarchy, with `Operation.apply`.
* `BackingFields.Hierarchy.run` — the hierarchy after a sequence of operations.
* `BackingFields.Hierarchy.Reachable` — the hierarchies that a host can come to.

## Main results

* `BackingFields.Operation.classes_apply` — what an operation can do to the classes.
* `BackingFields.Operation.growsTo_apply`, `BackingFields.Hierarchy.growsTo_run` — nothing is ever
  forgotten.

## Design notes

What a synthesizer is given by the host are functions, but all that they can do to a hierarchy is to
issue names.  Each operation that takes a synthesizer or an exposure therefore carries the proof
that it only interns.
-/

namespace BackingFields

/-! ## Operations -/

/-- What a host may ask of a hierarchy.  Merely reading its classes or names is left out. -/
inductive Operation where
  /-- Adds a class, or fails to. -/
  | declare (d : ClassDecl)
  /-- Interns a text. -/
  | intern (text : String)
  /-- Lists further names for a class in a table of fixed names. -/
  | listNames (f : FixedNames) (id : ClassId) (texts : List String)
  /-- Asks for the names exposed on a class. -/
  | exposed (e : Exposure) (interns : e.OnlyInterns) (id : ClassId)
  /-- Makes the property for a field. -/
  | makeProperty (owner : ClassEntry) (field : FieldFacts) (description : String)
  /-- Collects the properties of a class and its superclasses. -/
  | collect (s : Synthesizer) (interns : s.OnlyInterns) (start : ClassId)
  /-- Lists the properties of some receiver types. -/
  | properties (s : Synthesizer) (interns : s.OnlyInterns) (files : FileRegistry)
      (receivers : List Ty) (location : Location)
  /-- Lists the properties of some receiver types with a given name. -/
  | propertiesNamed (s : Synthesizer) (interns : s.OnlyInterns) (files : FileRegistry)
      (receivers : List Ty) (location : Location) (text : String)

namespace Operation

/-- The hierarchy after an operation, whatever its answer is. -/
def apply (h : Hierarchy) : Operation → Hierarchy
  | declare d => (h.declare d).2
  | intern text => (h.query (NameM.intern text)).2
  | listNames f id texts => (h.query (f.add id texts)).2
  | exposed e _ id => (h.query (e h.classes id)).2
  | makeProperty owner field description =>
    (h.query (FieldProperty.ofField owner field description)).2
  | collect s _ start => (h.query (s.collect h.classes start).run).2
  | properties s _ files receivers location =>
    (h.query (s.properties h.classes files receivers location).run).2
  | propertiesNamed s _ files receivers location text =>
    (h.query (s.propertiesNamed h.classes files receivers location text).run).2

/-- An operation leaves the classes alone or adds the class that a declaration describes. -/
theorem classes_apply (op : Operation) (h : Hierarchy) :
    (op.apply h).classes = h.classes ∨
      ∃ (d : ClassDecl) (c : ClassEntry), d.AcceptedAs h.classes (op.apply h).names c ∧
        (op.apply h).classes = h.classes.push c := by
  cases op with
  | declare d =>
    simp only [apply, Hierarchy.declare]
    split
    · next c names hc => exact .inr ⟨d, c, ClassTable.acceptedAs_of_newEntry hc, rfl⟩
    · exact .inl rfl
  | _ => exact .inl rfl

/-- An operation changes the names by interning alone. -/
theorem names_apply (op : Operation) (h : Hierarchy) : h.names.GrowsTo (op.apply h).names := by
  cases op with
  | declare d =>
    have := h.classes.onlyInterns_newEntry d h.names
    simp only [apply, Hierarchy.declare]
    split <;> simp_all
  | intern text => exact h.names.growsTo_intern text
  | listNames f id texts => exact f.onlyInterns_add id texts h.names
  | exposed e interns id => exact interns h.classes id h.names
  | makeProperty owner field description =>
    exact FieldProperty.onlyInterns_ofField owner field description h.names
  | collect s interns start => exact s.onlyInterns_collect interns h.classes start h.names
  | properties s interns files receivers location =>
    exact s.onlyInterns_properties interns h.classes files receivers location h.names
  | propertiesNamed s interns files receivers location text =>
    exact s.onlyInterns_propertiesNamed interns h.classes files receivers location text h.names

/-- An operation forgets no class and no name. -/
theorem growsTo_apply (op : Operation) (h : Hierarchy) : h.GrowsTo (op.apply h) where
  names := op.names_apply h
  classes := by
    rcases op.classes_apply h with heq | ⟨d, c, hc, heq⟩
    · rw [heq]
      exact .refl h.classes
    · rw [heq]
      exact ClassTable.growsTo_push hc

end Operation

/-! ## Histories -/

namespace Hierarchy

/-- The hierarchy after a sequence of operations. -/
def run (h : Hierarchy) (ops : List Operation) : Hierarchy := ops.foldl Operation.apply h

@[simp]
theorem run_nil (h : Hierarchy) : h.run [] = h := rfl

@[simp]
theorem run_cons (h : Hierarchy) (op : Operation) (ops : List Operation) :
    h.run (op :: ops) = (op.apply h).run ops := rfl

/-- A hierarchy that begins with a root class of any name and has come about by operations. -/
inductive Reachable : Hierarchy → Prop where
  | ofRoot (rootName : String) : Reachable (.ofRoot rootName)
  | apply {h : Hierarchy} (reachable : Reachable h) (op : Operation) : Reachable (op.apply h)

/-- A sequence of operations forgets no class and no name. -/
theorem growsTo_run (h : Hierarchy) (ops : List Operation) : h.GrowsTo (h.run ops) := by
  induction ops generalizing h with
  | nil => exact .refl h
  | cons op ops ih => exact (op.growsTo_apply h).trans (ih (op.apply h))

/-- A sequence of operations leads from a reachable hierarchy to a reachable one. -/
theorem Reachable.run {h : Hierarchy} (hr : h.Reachable) (ops : List Operation) :
    (h.run ops).Reachable := by
  induction ops generalizing h with
  | nil => exact hr
  | cons op ops ih => exact ih (hr.apply op)

/-! ## An example -/

/-- Declares a compiled class with a field that an accessor exposes, a source class below it with a
computed property of the same name, and a class that is refused for its second field. -/
def shapesHistory : List Operation :=
  [ .declare
      { name := "Shape"
        members := .binary
          [⟨"area", .ofClass "Unit" [], []⟩, ⟨"COUNT", .primitive .int, [.static]⟩]
          [⟨"getArea", .ofClass "Unit" [], 0, false⟩] },
    .declare
      { name := "Circle"
        superclass := some ⟨1⟩
        members := .source
          [⟨"area", .unresolved "Unit", false, false, .unknown⟩,
            ⟨"radius", .primitive .double, true, true, .unknown⟩] },
    .declare
      { name := "Square"
        superclass := some ⟨1⟩
        members := .source
          [⟨"side", .primitive .double, true, true, .unknown⟩,
            ⟨"side", .primitive .double, true, true, .unknown⟩] } ]

/-- The hierarchy of two shapes below the root. -/
def shapes : Hierarchy := (ofRoot "Any").run shapesHistory

/-- A host can come to the hierarchy of shapes. -/
theorem shapes_reachable : shapes.Reachable := (Reachable.ofRoot "Any").run shapesHistory

end Hierarchy

end BackingFields
