import BackingFields.Property.Scope
import BackingFields.Proofs.Name.Growth

set_option relaxedAutoImplicit false
set_option autoImplicit false

/-!
# Queries only intern

A query reads the classes and extends the names.  Parts of it are supplied by the host, which may
issue names of its own; a query only interns whenever these parts do.

## Main definitions

* `BackingFields.Exposure.OnlyInterns`, `BackingFields.Synthesizer.OnlyInterns` — an exposure, and
  all that a host supplies, changes the names by interning alone.
* `BackingFields.Exposure.BuiltIn` — the exposures of the library.

## Main results

* `BackingFields.Exposure.BuiltIn.onlyInterns` — the exposures of the library only intern.
* `BackingFields.Synthesizer.onlyInterns_collect`, `onlyInterns_properties`,
  `onlyInterns_propertiesNamed` — so do the queries built on such a host.

## Design notes

A host can do nothing to a hierarchy but issue names, so `Synthesizer.OnlyInterns` leaves no host
out.
-/

namespace BackingFields

/-! ## Exposures -/

/-- An exposure changes the names by interning alone. -/
def Exposure.OnlyInterns (e : Exposure) : Prop :=
  ∀ classes id, NameM.OnlyInterns (e classes id)

/-- The names of accessor methods are found by interning. -/
theorem Exposure.onlyInterns_accessors : Exposure.accessors.OnlyInterns :=
  fun _ _ => .bind (.internAll _) fun _ => .pure _

/-- The names that the host has listed are only read. -/
theorem Exposure.onlyInterns_fixed (f : FixedNames) : (Exposure.fixed f).OnlyInterns :=
  fun _ _ => .pure _

/-- An exposure of the library: the names of accessor methods, or names that the host has listed. -/
inductive Exposure.BuiltIn : Exposure → Prop
  | accessors : BuiltIn .accessors
  | fixed (f : FixedNames) : BuiltIn (.fixed f)

/-- The exposures of the library only intern. -/
theorem Exposure.BuiltIn.onlyInterns {e : Exposure} (h : e.BuiltIn) : e.OnlyInterns := by
  cases h with
  | accessors => exact onlyInterns_accessors
  | fixed f => exact onlyInterns_fixed f

/-- Listing names for a class interns them. -/
theorem FixedNames.onlyInterns_add (f : FixedNames) (id : ClassId) (texts : List String) :
    NameM.OnlyInterns (f.add id texts) :=
  .bind (.internAll texts) fun _ => .pure _

/-! ## Hosts -/

/-- All that a host supplies changes the names by interning alone. -/
structure Synthesizer.OnlyInterns (s : Synthesizer) : Prop where
  exposure : s.exposure.OnlyInterns
  typeOf : ∀ classes raw, NameM.OnlyInterns (s.typeOf classes raw)
  originOf : ∀ owner field, NameM.OnlyInterns (s.originOf owner field)

/-! ## Properties -/

/-- Making the setter of a field only interns. -/
theorem FieldProperty.onlyInterns_setterOf (field : FieldFacts) :
    NameM.OnlyInterns (setterOf field) := by
  unfold setterOf
  split
  · exact .bind (.intern _) fun parameter => .pure _
  · exact .pure none

/-- Making a property only interns. -/
theorem FieldProperty.onlyInterns_ofField (owner : ClassEntry) (field : FieldFacts)
    (description : String) : NameM.OnlyInterns (ofField owner field description) :=
  .bind (.display field.name) fun _ => .bind (onlyInterns_setterOf field) fun _ =>
    .bind (.intern _) fun _ => .pure _

/-- Offering a field only interns if making its property does. -/
theorem FieldMap.onlyInterns_offer (m : FieldMap) (name : Name) {make : NameM FieldProperty}
    (hmake : NameM.OnlyInterns make) : NameM.OnlyInterns (m.offer name make) := by
  unfold offer
  split
  · exact .pure m
  · exact hmake.bind fun property => .pure _

/-! ## Queries -/

namespace Synthesizer

variable {s : Synthesizer} (hs : s.OnlyInterns)

include hs

/-- Finding the facts of a field only interns. -/
theorem onlyInterns_facts (classes : ClassTable) (owner : ClassEntry) (field : Candidate) :
    NameM.OnlyInterns (s.facts classes owner field) := by
  cases field with
  | source field => exact .pure _
  | binary field =>
    exact .bind (hs.typeOf classes field.ty) fun ty =>
      .bind (hs.originOf owner field) fun origin => .pure _

/-- Making the property for a field of a visited class only interns. -/
theorem onlyInterns_propertyOf (classes : ClassTable) (visit : Visit) (field : Candidate) :
    NameM.OnlyInterns (s.propertyOf classes visit field) :=
  .bind (onlyInterns_facts hs classes visit.entry field) fun facts =>
    FieldProperty.onlyInterns_ofField visit.entry facts _

/-- Choosing the fields of a class only interns. -/
theorem onlyInterns_candidates (classes : ClassTable) (owner : ClassEntry)
    (fields : DeclaredFields) : NameM.OnlyInterns (s.candidates classes owner fields) := by
  match fields with
  | .source fields => exact .pure _
  | .binary [] => exact .pure []
  | .binary (field :: fields) =>
    exact .bind (hs.exposure classes owner.id) fun exposed => .pure _

/-- Offering the fields of a visited class only interns. -/
theorem onlyInterns_foldlM_offer (classes : ClassTable) (visit : Visit) (fields : List Candidate)
    (found : FieldMap) : NameM.OnlyInterns (fields.foldlM
      (fun (found : FieldMap) f => found.offer f.name (s.propertyOf classes visit f)) found) :=
  .foldlM
    (fun found f => found.onlyInterns_offer f.name (onlyInterns_propertyOf hs classes visit f))
    fields found

/-- Collecting from one class only interns. -/
theorem onlyInterns_collectVisit (classes : ClassTable) (found : FieldMap) (visit : Visit) :
    NameM.OnlyInterns (s.collectVisit classes found visit) :=
  .bind (onlyInterns_candidates hs classes visit.entry visit.fields) fun fields =>
    onlyInterns_foldlM_offer hs classes visit fields found

/-- Collecting from some classes one after the other only interns. -/
theorem onlyInterns_foldlM_collectVisit (classes : ClassTable) (visits : List Visit)
    (found : FieldMap) : NameM.OnlyInterns (visits.foldlM (s.collectVisit classes) found) :=
  .foldlM (onlyInterns_collectVisit hs classes) visits found

/-- Collecting from a class and its superclasses only interns. -/
theorem onlyInterns_collect (classes : ClassTable) (start : ClassId) :
    NameM.OnlyInterns (s.collect classes start).run := by
  refine .bind (onlyInterns_foldlM_collectVisit hs classes _ _) fun found => ?_
  split
  · exact .pure _
  · exact .pure _

/-- Listing the properties of some types only interns. -/
theorem onlyInterns_properties (classes : ClassTable) (files : FileRegistry) (receivers : List Ty)
    (location : Location) :
    NameM.OnlyInterns (s.properties classes files receivers location).run := by
  unfold properties
  split
  · exact .exceptBind (.exceptMapM (onlyInterns_collect hs classes) _) fun maps => .pure _
  · exact .pure _

/-- Listing the properties of a given name only interns. -/
theorem onlyInterns_propertiesNamed (classes : ClassTable) (files : FileRegistry)
    (receivers : List Ty) (location : Location) (text : String) :
    NameM.OnlyInterns (s.propertiesNamed classes files receivers location text).run :=
  .exceptBind (onlyInterns_properties hs classes files receivers location) fun _ =>
    .exceptBind (fun t => .refl t) fun _ => .pure _

end Synthesizer

end BackingFields
