import BackingFields.Class.Declaration
import BackingFields.Proofs.Name.Growth
import Mathlib.Data.List.Forall2

set_option relaxedAutoImplicit false
set_option autoImplicit false

/-!
# Declarations that are accepted

A declaration that passes every check adds one class.  Its fields carry the names that the table
has issued for their texts, pairwise different, and its other parts are those of the declaration.

## Main definitions

* `BackingFields.Members.NamedIn` — members whose field names come from a table.
* `BackingFields.ClassDecl.AcceptedAs` — the class that a declaration adds, and why it may.

## Main results

* `BackingFields.ClassTable.acceptedAs_of_newEntry` — the class made for a declaration is the one
  it describes.
* `BackingFields.ClassTable.onlyInterns_newEntry` — a declaration, accepted or not, only interns.
-/

namespace BackingFields

/-! ## Members -/

/-- The fields of a class, one by one, are those of its declaration under the names of their texts,
and no two have the same name. -/
def FieldsNamedIn {α β : Type} (names : NameTable) (isValid : String → Bool) (text : α → String)
    (withName : α → Name → β) (nameOf : β → Name) (declared : List α) (fields : List β) : Prop :=
  List.Forall₂ (fun d f => isValid (text d) = true ∧ names.find? (text d) = some (nameOf f) ∧
    f = withName d (nameOf f)) declared fields ∧ (fields.map nameOf).Nodup

/-- Whether a text may name a field of a class with these members. -/
def Members.isFieldName {ν : Type} : Members ν → String → Bool
  | .source _ => Text.isIdentifier
  | .binary _ _ => Text.isMemberName
  | .unloaded => fun _ => false

/-- The members of a class are the declared ones, their fields named by a table. -/
inductive Members.NamedIn (names : NameTable) : Members String → Members Name → Prop where
  | source {declared : List (SourceField String)} {fields : List (SourceField Name)}
      (named : FieldsNamedIn names Text.isIdentifier SourceField.name SourceField.withName
        SourceField.name declared fields) : NamedIn names (.source declared) (.source fields)
  | binary {declared : List (BinaryField String)} {fields : List (BinaryField Name)}
      {methods : List Method}
      (named : FieldsNamedIn names Text.isMemberName BinaryField.name BinaryField.withName
        BinaryField.name declared fields)
      (valid : ∀ m ∈ methods, Text.isMemberName m.name = true) :
      NamedIn names (.binary declared methods) (.binary fields methods)
  | unloaded : NamedIn names .unloaded .unloaded

/-- Every field carries the name of a valid text. -/
theorem FieldsNamedIn.exists_text {α β : Type} {names : NameTable} {isValid : String → Bool}
    {text : α → String} {withName : α → Name → β} {nameOf : β → Name} {declared : List α}
    {fields : List β} (h : FieldsNamedIn names isValid text withName nameOf declared fields) :
    ∀ n ∈ fields.map nameOf, ∃ s, names.find? s = some n ∧ isValid s = true := by
  obtain ⟨named, -⟩ := h
  induction named with
  | nil => simp
  | @cons d f _ _ hf _ ih =>
    intro n hn
    rcases List.mem_cons.mp hn with rfl | hn
    · exact ⟨text d, hf.2.1, hf.1⟩
    · exact ih n hn

namespace Members.NamedIn

variable {names names' : NameTable} {declared : Members String} {members : Members Name}

/-- No two fields have the same name. -/
theorem nodup_fieldNames (h : NamedIn names declared members) : members.fieldNames.Nodup := by
  cases h with
  | source named => exact named.2
  | binary named valid => exact named.2
  | unloaded => exact .nil

/-- Every field carries the name of a text that is valid for the representation. -/
theorem exists_text (h : NamedIn names declared members) :
    ∀ n ∈ members.fieldNames, ∃ s, names.find? s = some n ∧ members.isFieldName s = true := by
  cases h with
  | source named => exact named.exists_text
  | binary named valid => exact named.exists_text
  | unloaded => simp

/-- Every method has the name of a member. -/
theorem isMemberName_methods (h : NamedIn names declared members) :
    ∀ m ∈ members.methods, Text.isMemberName m.name = true := by
  cases h with
  | source named => simp
  | binary named valid => exact valid
  | unloaded => simp

/-- Members stay named by a table that grows. -/
theorem growsTo (h : NamedIn names declared members) (hgrow : names.GrowsTo names') :
    NamedIn names' declared members := by
  cases h with
  | source named =>
    exact .source ⟨named.1.imp fun _ _ h => ⟨h.1, hgrow.find?_eq_some h.2.1, h.2.2⟩, named.2⟩
  | binary named valid =>
    exact .binary ⟨named.1.imp fun _ _ h => ⟨h.1, hgrow.find?_eq_some h.2.1, h.2.2⟩, named.2⟩ valid
  | unloaded => exact .unloaded

end Members.NamedIn

namespace DeclareM

variable {className : String} {isValid : String → Bool}

/-- A field name is interned if it is valid, and refused if the name it gets is taken. -/
theorem run_fieldName (className : String) (isValid : String → Bool) (taken : List Name)
    (text : String) (t : NameTable) :
    (fieldName className isValid taken text).run.run t =
      if isValid text then
        (if taken.contains (t.intern text).1 then .error (.duplicateField className text)
          else .ok (t.intern text).1, (t.intern text).2)
      else (.error (.invalidFieldName className text), t) := by
  unfold fieldName
  split
  · change (ExceptT.run (if taken.contains (t.intern text).1 then _ else _) : NameM _).run
      (t.intern text).2 = _
    split <;> rfl
  · rfl

/-- Checking a field name only interns. -/
theorem onlyInterns_fieldName (className : String) (isValid : String → Bool) (taken : List Name)
    (text : String) : NameM.OnlyInterns (fieldName className isValid taken text).run := by
  intro t
  rw [run_fieldName]
  split
  · exact t.growsTo_intern text
  · exact .refl t

/-- Checking the names of fields only interns. -/
theorem onlyInterns_fields {α β : Type} (className : String) (isValid : String → Bool)
    (text : α → String) (withName : α → Name → β) (taken : List Name) (declared : List α) :
    NameM.OnlyInterns (DeclareM.fields className isValid text withName taken declared).run := by
  induction declared generalizing taken with
  | nil => exact .pure _
  | cons d declared ih =>
    refine .exceptBind (onlyInterns_fieldName className isValid taken (text d)) fun n => ?_
    exact .exceptBind (ih (n :: taken)) fun rest => .pure _

/-- An accepted field name is a valid one that the table has just issued and no earlier field
has. -/
theorem fieldName_eq_ok {taken : List Name} {text : String} {t t' : NameTable} {n : Name}
    (h : (fieldName className isValid taken text).run.run t = (.ok n, t')) :
    isValid text = true ∧ t.intern text = (n, t') ∧ n ∉ taken := by
  rw [run_fieldName] at h
  split at h
  · split at h
    · cases h
    · cases h
      simp_all
  · cases h

/-- Accepted fields carry the names of their texts, all different from each other and from those
taken before.

**Proof sketch.** Induction on the fields.  The name of the first field is found in the table from
then on, and it is among the taken names while the others are checked. -/
theorem fields_eq_ok {α β : Type} {text : α → String} {withName : α → Name → β} {nameOf : β → Name}
    (hname : ∀ a n, nameOf (withName a n) = n) {taken : List Name} {declared : List α}
    {fields : List β} {t t' : NameTable}
    (h : (DeclareM.fields className isValid text withName taken declared).run.run t =
      (.ok fields, t')) :
    FieldsNamedIn t' isValid text withName nameOf declared fields ∧
      ∀ f ∈ fields, nameOf f ∉ taken := by
  induction declared generalizing taken fields t with
  | nil =>
    cases h
    exact ⟨⟨.nil, .nil⟩, by simp⟩
  | cons d declared ih =>
    obtain ⟨n, t₁, hn, h⟩ := NameM.run_bind_eq_ok h
    obtain ⟨rest, t₂, hrest, h⟩ := NameM.run_bind_eq_ok h
    cases h
    obtain ⟨hvalid, hintern, htaken⟩ := fieldName_eq_ok hn
    obtain ⟨⟨hall, hnodup⟩, hfresh⟩ := ih hrest
    have hgrow : t₁.GrowsTo t' := (onlyInterns_fields _ _ _ _ _ _).growsTo hrest
    have hfind := t.find?_intern_self (text d)
    rw [hintern] at hfind
    refine ⟨⟨.cons ⟨hvalid, ?_, ?_⟩ hall, ?_⟩, ?_⟩
    · rw [hname]
      exact hgrow.find?_eq_some hfind
    · rw [hname]
    · rw [List.map_cons, hname, List.nodup_cons]
      refine ⟨fun hmem => ?_, hnodup⟩
      obtain ⟨f, hf, rfl⟩ := List.mem_map.mp hmem
      exact hfresh f hf List.mem_cons_self
    · intro f hf
      rcases List.mem_cons.mp hf with rfl | hf
      · rwa [hname]
      · exact fun hmem => hfresh f hf (List.mem_cons_of_mem n hmem)

end DeclareM

/-- Checking the members of a class only interns. -/
theorem Members.onlyInterns_intern (className : String) (declared : Members String) :
    NameM.OnlyInterns (declared.intern className).run := by
  cases declared with
  | source fields =>
    exact .exceptBind (DeclareM.onlyInterns_fields _ _ _ _ _ _) fun fields => .pure _
  | binary fields methods =>
    refine .exceptBind (DeclareM.onlyInterns_fields _ _ _ _ _ _) fun fields => ?_
    split
    · exact .pure _
    · exact .pure _
  | unloaded => exact .pure _

/-- Accepted members are the declared ones, their fields named by the table. -/
theorem Members.namedIn_of_intern {className : String} {declared : Members String}
    {members : Members Name} {t t' : NameTable}
    (h : (declared.intern className).run.run t = (.ok members, t')) :
    Members.NamedIn t' declared members := by
  cases declared with
  | source declared =>
    obtain ⟨fields, t₁, hfields, h⟩ := NameM.run_bind_eq_ok h
    cases h
    exact .source (DeclareM.fields_eq_ok (fun _ _ => rfl) hfields).1
  | binary declared methods =>
    obtain ⟨fields, t₁, hfields, h⟩ := NameM.run_bind_eq_ok h
    split at h
    · cases h
    · next hmethods =>
      cases h
      refine .binary (DeclareM.fields_eq_ok (fun _ _ => rfl) hfields).1 ?_
      simpa using List.find?_eq_none.mp hmethods
  | unloaded =>
    cases h
    exact .unloaded

/-! ## The class -/

/-- A class is the one that a declaration adds to a table of classes, with names from a table. -/
structure ClassDecl.AcceptedAs (d : ClassDecl) (t : ClassTable) (names : NameTable)
    (c : ClassEntry) : Prop where
  /-- The class name is a path of identifiers. -/
  isQualified : Text.isQualifiedIdentifier d.name = true
  /-- Every type parameter is an identifier. -/
  isIdentifier_typeParams : ∀ p ∈ d.typeParams, Text.isIdentifier p = true
  /-- No class has the name yet. -/
  isFree : t.named? d.name = none
  /-- The superclass is in the table. -/
  knows_superclass : (t.get? (d.superclass.getD .root)).isSome = true
  /-- There is a handle left. -/
  hasRoom : t.size < UInt32.size
  /-- The class gets the next position. -/
  id_eq : c.id = ⟨t.size.toUInt32⟩
  /-- The class carries the name of its text. -/
  find?_name : names.find? d.name = some c.name
  /-- The class carries its text. -/
  qualifiedName_eq : c.qualifiedName = d.name
  /-- The class has the declared type parameters. -/
  typeParams_eq : c.typeParams = d.typeParams
  /-- The class has the declared superclass, or else the root. -/
  superclass_eq : c.superclass = some (d.superclass.getD .root)
  /-- The class lists the declared members. -/
  members_namedIn : d.members.NamedIn names c.members

/-- The handle of an added class is the position behind the earlier classes. -/
theorem ClassDecl.AcceptedAs.index_eq {d : ClassDecl} {t : ClassTable} {names : NameTable}
    {c : ClassEntry} (h : d.AcceptedAs t names c) : c.id.index.toNat = t.size := by
  rw [h.id_eq]
  simpa using Nat.mod_eq_of_lt h.hasRoom

namespace ClassTable

/-- The checks of a declaration that concern no member all pass, or one of them fails. -/
theorem checkHead_eq_ok {t : ClassTable} {d : ClassDecl} {superclass : ClassId}
    (h : t.checkHead d = .ok superclass) :
    superclass = d.superclass.getD .root ∧ Text.isQualifiedIdentifier d.name = true ∧
      (∀ p ∈ d.typeParams, Text.isIdentifier p = true) ∧ t.named? d.name = none ∧
      (t.get? superclass).isSome = true ∧ t.size < UInt32.size := by
  unfold checkHead at h
  split at h
  · cases h
  split at h
  · cases h
  dsimp only at h
  split at h
  · cases h
  split at h
  · cases h
  split at h
  · cases h
  cases h
  simp_all [Option.isSome_iff_ne_none]

/-- Making the class of a declaration only interns. -/
theorem onlyInterns_newEntry (t : ClassTable) (d : ClassDecl) :
    NameM.OnlyInterns (t.newEntry d).run := by
  refine .exceptBind ?_ fun superclass =>
    .exceptBind (Members.onlyInterns_intern _ _) fun members =>
    .exceptBind ?_ fun name => .pure _
  · cases t.checkHead d <;> exact .pure _
  · exact .bind (.intern d.name) fun _ => .pure _

/-- The class made for a declaration is the one it describes. -/
theorem acceptedAs_of_newEntry {t : ClassTable} {d : ClassDecl} {names names' : NameTable}
    {c : ClassEntry} (h : (t.newEntry d).run.run names = (.ok c, names')) :
    d.AcceptedAs t names' c := by
  unfold newEntry at h
  cases hhead : t.checkHead d with
  | error e =>
    rw [hhead] at h
    cases h
  | ok superclass =>
    rw [hhead] at h
    obtain ⟨_, _, hok, h⟩ := NameM.run_bind_eq_ok h
    cases hok
    obtain ⟨members, names₁, hmembers, h⟩ := NameM.run_bind_eq_ok h
    cases h
    obtain ⟨rfl, hqualified, hparams, hfree, hsuper, hroom⟩ := checkHead_eq_ok hhead
    exact {
      isQualified := hqualified
      isIdentifier_typeParams := hparams
      isFree := hfree
      knows_superclass := hsuper
      hasRoom := hroom
      id_eq := rfl
      find?_name := names₁.find?_intern_self d.name
      qualifiedName_eq := rfl
      typeParams_eq := rfl
      superclass_eq := rfl
      members_namedIn :=
        (Members.namedIn_of_intern hmembers).growsTo (names₁.growsTo_intern d.name) }

end ClassTable

end BackingFields
