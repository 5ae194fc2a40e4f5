import BackingFields.Class.Table
import BackingFields.Text.Identifier

set_option relaxedAutoImplicit false
set_option autoImplicit false

/-!
# Declaring a class

A declaration is checked from the outside in: the class name, the type parameters, whether the
name is free, the superclass, then the fields from left to right and the methods.  The first
violation is the error.  Field names are interned as they are accepted, so those before the
violation stay interned; the class name is interned last.

## Main definitions

* `BackingFields.ClassDecl` — a class with its fields named by text.
* `BackingFields.ClassTable.checkHead` — the checks that concern no member.
* `BackingFields.Members.intern` — checks the members and interns the field names.
* `BackingFields.ClassTable.newEntry` — the entry of a declared class.
-/

namespace BackingFields

/-- A class to be added to a hierarchy. -/
structure ClassDecl where
  /-- The qualified name. -/
  name : String
  /-- The names of the type parameters. -/
  typeParams : List String := []
  /-- The superclass; without one the class extends the root. -/
  superclass : Option ClassId := none
  /-- What the class lists. -/
  members : Members String

/-- A computation on names that a faulty declaration ends. -/
abbrev DeclareM := ExceptT DeclarationError NameM

/-! ## Members -/

/-- Checks and interns one field name; `taken` holds the names of the fields before it. -/
def DeclareM.fieldName (className : String) (isValid : String → Bool) (taken : List Name)
    (text : String) : DeclareM Name :=
  if isValid text then do
    let name ← NameM.intern text
    if taken.contains name then throw (.duplicateField className text) else return name
  else throw (.invalidFieldName className text)

/-- Checks and interns the names of fields from left to right. -/
def DeclareM.fields {α β : Type} (className : String) (isValid : String → Bool)
    (text : α → String) (withName : α → Name → β) : List Name → List α → DeclareM (List β)
  | _, [] => return []
  | taken, field :: rest => do
    let name ← DeclareM.fieldName className isValid taken (text field)
    let rest ← DeclareM.fields className isValid text withName (name :: taken) rest
    return withName field name :: rest

/-- The same field under another name. -/
def SourceField.withName {ν μ : Type} (f : SourceField ν) (name : μ) : SourceField μ :=
  ⟨name, f.ty, f.isVar, f.hasBackingField, f.origin⟩

/-- The same field under another name. -/
def BinaryField.withName {ν μ : Type} (f : BinaryField ν) (name : μ) : BinaryField μ :=
  ⟨name, f.ty, f.modifiers⟩

/-- Checks the members of a class and interns its field names.  Source fields are identifiers;
the members of a compiled class follow the laxer rules of compiled names, and several of its
methods may share a name. -/
def Members.intern (className : String) : Members String → DeclareM (Members Name)
  | .source fields => do
    let fields ← DeclareM.fields className Text.isIdentifier SourceField.name
      SourceField.withName [] fields
    return .source fields
  | .binary fields methods => do
    let fields ← DeclareM.fields className Text.isMemberName BinaryField.name
      BinaryField.withName [] fields
    match methods.find? fun m => !Text.isMemberName m.name with
    | some m => throw (.invalidMethodName className m.name)
    | none => return .binary fields methods
  | .unloaded => return .unloaded

/-! ## The class -/

namespace ClassTable

/-- Checks all of a declaration but its members, and gives the superclass. -/
def checkHead (t : ClassTable) (d : ClassDecl) : Except DeclarationError ClassId :=
  if !Text.isQualifiedIdentifier d.name then .error (.invalidClassName d.name)
  else
    match d.typeParams.find? fun p => !Text.isIdentifier p with
    | some p => .error (.invalidTypeParam d.name p)
    | none =>
      let superclass := d.superclass.getD .root
      if (t.named? d.name).isSome then .error (.duplicateClass d.name)
      else if (t.get? superclass).isNone then .error (.unknownSuperclass d.name superclass)
      else if UInt32.size ≤ t.size then .error (.tooManyClasses d.name)
      else .ok superclass

/-- The entry of a declared class, behind the classes of the table. -/
def newEntry (t : ClassTable) (d : ClassDecl) : DeclareM ClassEntry := do
  let superclass ← MonadExcept.ofExcept (t.checkHead d)
  let members ← d.members.intern d.name
  let name ← NameM.intern d.name
  return {
    id := ⟨t.size.toUInt32⟩
    name := name
    qualifiedName := d.name
    typeParams := d.typeParams
    superclass := some superclass
    members := members }

end ClassTable

end BackingFields
