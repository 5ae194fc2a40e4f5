import BackingFields.Class.Table

set_option relaxedAutoImplicit false
set_option autoImplicit false

/-!
# Properties made from fields

A `FieldProperty` makes a raw field readable, and a mutable one assignable, from evaluated code.
It looks like an extension property of the class that declares the field.  Its symbol name is the
field name with `_field` behind it, so it never hides a real property of the field's name; what
the user sees is the field name with a description of its origin.

## Main definitions

* `BackingFields.Accessor` — the getter or setter of a property.
* `BackingFields.FieldFacts` — what a property is made from.
* `BackingFields.FieldProperty` — the property, with `FieldProperty.ofField` and
  `FieldProperty.label`.
-/

namespace BackingFields

/-! ## Traits of members -/

/-- Who may use a member. -/
inductive Visibility where
  | everywhere
  | sameModule
  | subclasses
  | sameClass
deriving DecidableEq

/-- The keyword of a visibility. -/
def Visibility.keyword : Visibility → String
  | .everywhere => "public"
  | .sameModule => "internal"
  | .subclasses => "protected"
  | .sameClass => "private"

/-- Whether a member may be overridden. -/
inductive Modality where
  | final
  | overridable
  | unimplemented
deriving DecidableEq

/-- The keyword of a modality. -/
def Modality.keyword : Modality → String
  | .final => "final"
  | .overridable => "open"
  | .unimplemented => "abstract"

/-- Whether a member was written by a user or made by a tool. -/
inductive MemberKind where
  | declaration
  | synthesized
deriving DecidableEq

/-- The text of a member kind. -/
def MemberKind.describe : MemberKind → String
  | .declaration => "declaration"
  | .synthesized => "synthesized"

/-- The two ways to use a property. -/
inductive AccessorKind where
  | getter
  | setter
deriving DecidableEq

/-- The text of an accessor kind. -/
def AccessorKind.describe : AccessorKind → String
  | .getter => "getter"
  | .setter => "setter"

/-! ## Accessors -/

/-- The parameter that takes the assigned value. -/
structure ValueParameter where
  /-- The name of the parameter. -/
  name : Name
  /-- The position among the parameters. -/
  index : Nat
  /-- The type of the assigned value. -/
  ty : Ty
  /-- What the parameter is attributed to. -/
  origin : Origin
deriving DecidableEq

/-- The getter or setter of a property. -/
structure Accessor where
  /-- Which of the two it is. -/
  kind : AccessorKind
  /-- Who may call it. -/
  visibility : Visibility
  /-- Whether it may be overridden. -/
  modality : Modality
  /-- Who made it. -/
  memberKind : MemberKind
  /-- The type of its result. -/
  returnType : Ty
  /-- The assigned value, which only a setter takes. -/
  parameter : Option ValueParameter
  /-- What it is attributed to. -/
  origin : Origin
deriving DecidableEq

/-! ## Properties -/

/-- What a property is made from: a field whose type has been resolved. -/
structure FieldFacts where
  /-- The name of the field. -/
  name : Name
  /-- The type of its value. -/
  ty : Ty
  /-- Whether it may be assigned. -/
  isVar : Bool
  /-- What it is attributed to. -/
  origin : Origin
deriving DecidableEq

namespace FieldFacts

/-- The getter of a field returns its value. -/
def getter (f : FieldFacts) : Accessor where
  kind := .getter
  visibility := .everywhere
  modality := .final
  memberKind := .synthesized
  returnType := f.ty
  parameter := none
  origin := f.origin

/-- The setter of a field takes the new value and returns nothing. -/
def setter (f : FieldFacts) (parameterName : Name) : Accessor where
  kind := .setter
  visibility := .everywhere
  modality := .final
  memberKind := .synthesized
  returnType := .primitive .void
  parameter := some ⟨parameterName, 0, f.ty, f.origin⟩
  origin := f.origin

end FieldFacts

/-- A property that gives evaluated code access to a raw field. -/
structure FieldProperty where
  /-- The class that declares the field. -/
  owner : ClassId
  /-- The name of the field, as the user sees it. -/
  fieldName : Name
  /-- The name of the property, as evaluated code writes it. -/
  name : Name
  /-- Where the field comes from, in words. -/
  description : String
  /-- Whether the property may be assigned. -/
  isVar : Bool
  /-- The type of the field. -/
  ty : Ty
  /-- The type that the property extends. -/
  receiver : Ty
  /-- The accessor that reads the field. -/
  getter : Accessor
  /-- The accessor that assigns the field, if it is mutable. -/
  setter : Option Accessor
  /-- What the property is attributed to. -/
  origin : Origin
deriving DecidableEq

namespace FieldProperty

/-- What follows the field name in the symbol name of a property. -/
def symbolSuffix : String := "_field"

/-- The name of the parameter of every setter. -/
def parameterName : String := "value"

/-- Every property may be used everywhere. -/
def visibility (_ : FieldProperty) : Visibility := .everywhere

/-- No property may be overridden. -/
def modality (_ : FieldProperty) : Modality := .final

/-- Every property is made by a tool. -/
def memberKind (_ : FieldProperty) : MemberKind := .synthesized

/-- What the user sees: the field name and, in brackets, where the field comes from. -/
def label (p : FieldProperty) (names : NameTable) : String :=
  names.display p.fieldName ++ " (" ++ p.description ++ ")"

/-- The setter of a field, if it is mutable; its parameter name is interned. -/
def setterOf (field : FieldFacts) : NameM (Option Accessor) :=
  if field.isVar then do
    let parameter ← NameM.intern parameterName
    return some (field.setter parameter)
  else return none

/-- The property for a field of a class.  The parameter name of its setter is interned before its
symbol name. -/
def ofField (owner : ClassEntry) (field : FieldFacts) (description : String) :
    NameM FieldProperty := do
  let text ← NameM.display field.name
  let setter ← setterOf field
  let name ← NameM.intern (text ++ symbolSuffix)
  return {
    owner := owner.id
    fieldName := field.name
    name := name
    description := description
    isVar := field.isVar
    ty := field.ty
    receiver := owner.defaultType.starProject
    getter := field.getter
    setter := setter
    origin := field.origin }

end FieldProperty

end BackingFields
