import BackingFields.Origin
import BackingFields.Ty.Binary

set_option relaxedAutoImplicit false
set_option autoImplicit false

/-!
# The members of a class

A class from source code lists its properties with resolved types; a compiled class lists every
field and method that its metadata holds, with types still to be looked up.  A compiled class may
also be known by name only, its metadata never loaded.

## Main definitions

* `BackingFields.SourceField`, `BackingFields.BinaryField`, `BackingFields.Method` — the members.
* `BackingFields.Modifier` — the flags of a compiled field; an enum entry is static and final.
* `BackingFields.Members` — what a class lists, by its representation.
* `BackingFields.ClassKind` — the representation alone.

## Design notes

Fields are parametric in their name: a declaration names its fields by text, a class in a table by
`BackingFields.Name`.  Methods keep their text, since they are never compared.
-/

namespace BackingFields

/-! ## Fields of source classes -/

/-- A property declared in source code. -/
structure SourceField (ν : Type) where
  /-- The name of the property. -/
  name : ν
  /-- The declared type. -/
  ty : Ty
  /-- Whether the property may be assigned. -/
  isVar : Bool
  /-- False for a computed property, which stores nothing. -/
  hasBackingField : Bool
  /-- What the property is attributed to. -/
  origin : Origin

/-! ## Fields of compiled classes -/

/-- What a compiled field is marked as. -/
inductive Modifier where
  | final
  | static
  | enumEntry
deriving DecidableEq

/-- A field listed in compiled metadata; without modifiers it is a mutable instance field. -/
structure BinaryField (ν : Type) where
  /-- The name of the field. -/
  name : ν
  /-- The type as the metadata spells it. -/
  ty : BinaryType
  /-- What the field is marked as, in any order. -/
  modifiers : List Modifier

namespace BinaryField

variable {ν : Type}

/-- Whether a field is an entry of an enum. -/
def isEnumEntry (f : BinaryField ν) : Bool := f.modifiers.contains .enumEntry

/-- Whether a field belongs to the class rather than to its instances; enum entries do. -/
def isStatic (f : BinaryField ν) : Bool := f.modifiers.contains .static || f.isEnumEntry

/-- Whether a field is never assigned again; enum entries are not. -/
def isFinal (f : BinaryField ν) : Bool := f.modifiers.contains .final || f.isEnumEntry

/-- An enum entry is static and final, whatever else it is marked as. -/
theorem isStatic_and_isFinal_of_isEnumEntry {f : BinaryField ν} (h : f.isEnumEntry = true) :
    f.isStatic = true ∧ f.isFinal = true := by
  simp [isStatic, isFinal, h]

end BinaryField

/-! ## Methods -/

/-- A method listed in compiled metadata. -/
structure Method where
  /-- The name of the method; several methods may share it. -/
  name : String
  /-- The return type as the metadata spells it. -/
  returns : BinaryType
  /-- The number of parameters. -/
  paramCount : Nat
  /-- Whether the method belongs to the class rather than to its instances. -/
  isStatic : Bool

/-! ## What a class lists -/

/-- The representations of a class. -/
inductive ClassKind where
  | source
  | binary
  | unloaded
deriving DecidableEq

/-- The text of a representation. -/
def ClassKind.describe : ClassKind → String
  | .source => "source class"
  | .binary => "binary class"
  | .unloaded => "opaque binary class"

/-- The members of a class, with fields named by `ν`. -/
inductive Members (ν : Type) where
  /-- A class from source code. -/
  | source (fields : List (SourceField ν))
  /-- A compiled class. -/
  | binary (fields : List (BinaryField ν)) (methods : List Method)
  /-- A compiled class whose metadata was never loaded. -/
  | unloaded

namespace Members

variable {ν : Type}

/-- The representation of a class with these members. -/
def kind : Members ν → ClassKind
  | source _ => .source
  | binary _ _ => .binary
  | unloaded => .unloaded

/-- The methods of a compiled class; no other class lists any. -/
def methods : Members ν → List Method
  | binary _ methods => methods
  | _ => []

/-- The names of the listed fields, in order. -/
def fieldNames : Members ν → List ν
  | source fields => fields.map SourceField.name
  | binary fields _ => fields.map BinaryField.name
  | unloaded => []

variable (fields : List (SourceField ν)) (compiled : List (BinaryField ν))
  (listed : List Method)

@[simp]
theorem kind_source : (source fields).kind = .source := rfl

@[simp]
theorem kind_binary : (binary compiled listed).kind = .binary := rfl

@[simp]
theorem kind_unloaded : (unloaded : Members ν).kind = .unloaded := rfl

@[simp]
theorem methods_source : (source fields).methods = [] := rfl

@[simp]
theorem methods_binary : (binary compiled listed).methods = listed := rfl

@[simp]
theorem methods_unloaded : (unloaded : Members ν).methods = [] := rfl

@[simp]
theorem fieldNames_source : (source fields).fieldNames = fields.map SourceField.name := rfl

@[simp]
theorem fieldNames_binary :
    (binary compiled listed).fieldNames = compiled.map BinaryField.name := rfl

@[simp]
theorem fieldNames_unloaded : (unloaded : Members ν).fieldNames = [] := rfl

end Members

end BackingFields
