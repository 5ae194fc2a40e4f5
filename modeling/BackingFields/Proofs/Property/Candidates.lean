import BackingFields.Proofs.Class.Chain
import BackingFields.Proofs.Hierarchy.Invariant

set_option relaxedAutoImplicit false
set_option autoImplicit false

/-!
# From fields to properties

A query turns some fields of a class into properties.  Whatever the host answers, these fields are
listed by the class, their names have texts, and the property for a field belongs to the class and
has the name of the field.  If the types and attributions of the host do not depend on names, the
property follows from the field alone.

## Main definitions

* `BackingFields.Members.candidates` — the fields that a class lists.
* `BackingFields.Reading` — types and attributions that do not depend on names.
* `BackingFields.Synthesizer.Follows` — a host answers with a reading.

## Main results

* `BackingFields.Synthesizer.mem_candidates` — the candidates of a class are among its fields.
* `BackingFields.Hierarchy.WellNamed.exists_text` — a field has a name with a text.
* `BackingFields.Synthesizer.Follows.propertyOf_eq` — the property for a field, by a reading.

## Design notes

Most results hold of every host that only interns.  A reading is needed where the properties of an
answer are told in closed form.
-/

namespace BackingFields

/-! ## Fields -/

/-- The fields that a class lists, in the order of declaration. -/
def Members.candidates : Members Name → List Candidate
  | .source fields => fields.map .source
  | .binary fields _ => fields.map .binary
  | .unloaded => []

/-- The listed fields have their names. -/
@[simp]
theorem Members.map_name_candidates (members : Members Name) :
    members.candidates.map Candidate.name = members.fieldNames := by
  cases members with
  | source fields => exact List.map_map
  | binary fields methods => exact List.map_map
  | unloaded => rfl

/-- No field is named by the empty text. -/
@[simp]
theorem Members.isFieldName_empty {ν : Type} (members : Members ν) :
    members.isFieldName "" = false := by
  cases members <;> rfl

/-- A field of a class of a well-named hierarchy has a text, and it is not empty. -/
theorem Hierarchy.WellNamed.exists_text {h : Hierarchy} (hn : h.WellNamed) {c : ClassEntry}
    (hc : h.classes.get? c.id = some c) {f : Candidate} (hf : f ∈ c.members.candidates) :
    ∃ text, h.names.text? f.name = some text ∧ text ≠ "" := by
  have hname := List.mem_map_of_mem (f := Candidate.name) hf
  rw [Members.map_name_candidates] at hname
  obtain ⟨text, htext, hvalid⟩ := (hn.namedBy_entry hc).text?_fieldName f.name hname
  refine ⟨text, htext, ?_⟩
  rintro rfl
  simp at hvalid

namespace Synthesizer

variable (s : Synthesizer) (classes : ClassTable)

/-- The candidates of a class are fields that it lists, whatever its exposure answers. -/
theorem mem_candidates {c : ClassEntry} {fields : DeclaredFields}
    (hc : c.declaredFields = .ok fields) {t : NameTable} {f : Candidate}
    (hf : f ∈ ((s.candidates classes c fields).run t).1) : f ∈ c.members.candidates := by
  rcases c.members_of_declaredFields hc with ⟨fs, hm, rfl⟩ | ⟨fs, methods, hm, rfl⟩
  · rw [hm]
    obtain ⟨g, hg, rfl⟩ := List.mem_map.mp hf
    exact List.mem_map_of_mem (List.mem_of_mem_filter hg)
  · rw [hm]
    cases fs with
    | nil => cases hf
    | cons first rest =>
      obtain ⟨g, hg, rfl⟩ := List.mem_map.mp hf
      exact List.mem_map_of_mem (List.mem_of_mem_filter hg)

/-- A property belongs to the class for whose field it is made. -/
@[simp]
theorem owner_propertyOf (visit : Visit) (field : Candidate) (names : NameTable) :
    ((s.propertyOf classes visit field).run names).1.owner = visit.entry.id :=
  rfl

/-- The facts of a field have its name. -/
@[simp]
theorem name_facts (owner : ClassEntry) (field : Candidate) (names : NameTable) :
    ((s.facts classes owner field).run names).1.name = field.name := by
  cases field <;> rfl

end Synthesizer

/-! ## Readings -/

/-- Types and attributions for the fields of compiled classes that do not depend on names. -/
structure Reading where
  /-- The meaning of a type in compiled metadata. -/
  typeOf : ClassTable → BinaryType → Ty
  /-- The attribution of a field of a compiled class. -/
  originOf : ClassEntry → BinaryField Name → Origin

namespace Reading

/-- The reading of the library: types are resolved, and fields attributed to class and name. -/
def standard : Reading where
  typeOf := ClassTable.resolve
  originOf owner field := .compiled owner.id field.name

/-- What the property for a field is made from, by a reading. -/
def facts (r : Reading) (classes : ClassTable) (owner : ClassEntry) : Candidate → FieldFacts
  | .source field => ⟨field.name, field.ty, field.isVar, field.origin⟩
  | .binary field =>
    ⟨field.name, (r.typeOf classes field.ty).starProject, !field.isFinal, r.originOf owner field⟩

variable (r : Reading) (classes : ClassTable) (owner : ClassEntry) (field : Candidate)

/-- The facts of a field have its name. -/
@[simp]
theorem name_facts : (r.facts classes owner field).name = field.name := by
  cases field <;> rfl

/-- A field may be assigned if its facts say so. -/
@[simp]
theorem isVar_facts : (r.facts classes owner field).isVar = field.isVar := by
  cases field <;> rfl

end Reading

/-- A host follows a reading if it answers with it and leaves the names alone. -/
structure Synthesizer.Follows (s : Synthesizer) (r : Reading) : Prop where
  typeOf : ∀ classes raw, s.typeOf classes raw = pure (r.typeOf classes raw)
  originOf : ∀ owner field, s.originOf owner field = pure (r.originOf owner field)

namespace Synthesizer

/-- A host that supplies neither types nor attributions follows the reading of the library. -/
theorem follows_standard (e : Exposure) (settings : Settings) :
    ({ exposure := e, settings := settings } : Synthesizer).Follows .standard :=
  ⟨fun _ _ => rfl, fun _ _ => rfl⟩

namespace Follows

variable {s : Synthesizer} {r : Reading} (h : s.Follows r)

include h

/-- A host that follows a reading only interns if its exposure does. -/
theorem onlyInterns (he : s.exposure.OnlyInterns) : s.OnlyInterns where
  exposure := he
  typeOf classes raw := by
    rw [h.typeOf]
    exact .pure _
  originOf owner field := by
    rw [h.originOf]
    exact .pure _

/-- The property for a field is made from the facts of the reading. -/
theorem propertyOf_eq (classes : ClassTable) (visit : Visit) (field : Candidate) :
    s.propertyOf classes visit field = FieldProperty.ofField visit.entry
      (r.facts classes visit.entry field) (s.description visit.fields) := by
  have hfacts : s.facts classes visit.entry field = pure (r.facts classes visit.entry field) := by
    cases field with
    | source field => rfl
    | binary field =>
      rw [facts, h.typeOf, h.originOf]
      rfl
  rw [propertyOf, hfacts, pure_bind]

end Follows

end Synthesizer

end BackingFields
