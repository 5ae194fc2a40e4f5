import BackingFields.Class.Id

set_option relaxedAutoImplicit false
set_option autoImplicit false

/-!
# Resolved types

The types of fields and accessors after every class name has been looked up.  A type argument is
either a type or a star, which stands for any type.

## Main definitions

* `BackingFields.Primitive` — the built-in value types, each with its `keyword`.
* `BackingFields.Ty`, `BackingFields.TypeArg` — types and type arguments.
* `BackingFields.Ty.classId?` — the class a type is built on.

## Main results

* `BackingFields.Ty.beq_iff` — comparing two types part by part decides their equality.
-/

namespace BackingFields

/-! ## Primitive types -/

/-- The built-in value types. -/
inductive Primitive where
  | boolean
  | byte
  | char
  | short
  | int
  | long
  | float
  | double
  /-- The absence of a value, which only a method returns. -/
  | void
deriving DecidableEq

namespace Primitive

/-- The keyword of a primitive type. -/
def keyword : Primitive → String
  | boolean => "boolean"
  | byte => "byte"
  | char => "char"
  | short => "short"
  | int => "int"
  | long => "long"
  | float => "float"
  | double => "double"
  | void => "void"

/-- The primitive type with a keyword. -/
def ofKeyword? : String → Option Primitive
  | "boolean" => some boolean
  | "byte" => some byte
  | "char" => some char
  | "short" => some short
  | "int" => some int
  | "long" => some long
  | "float" => some float
  | "double" => some double
  | "void" => some void
  | _ => none

/-- Every primitive type is read back from its keyword. -/
@[simp]
theorem ofKeyword?_keyword (p : Primitive) : ofKeyword? p.keyword = some p := by
  cases p <;> rfl

end Primitive

/-! ## Types -/

mutual

/-- A resolved type. -/
inductive Ty where
  | primitive (p : Primitive)
  /-- A class with its arguments, one for each type parameter. -/
  | ofClass (id : ClassId) (args : List TypeArg)
  | array (elem : TypeArg)
  /-- A type parameter of the enclosing class. -/
  | param (name : String)
  /-- A class name that no known class has. -/
  | unresolved (name : String)

/-- A type argument. -/
inductive TypeArg where
  /-- Any type. -/
  | star
  | type (ty : Ty)

end

instance : Inhabited Ty := ⟨.primitive .void⟩

instance : Inhabited TypeArg := ⟨.star⟩

namespace Ty

/-- A class without type arguments. -/
def simple (id : ClassId) : Ty := .ofClass id []

/-- The class that a type is built on, if it is a class type. -/
def classId? : Ty → Option ClassId
  | .ofClass id _ => some id
  | _ => none

/-- Whether a type is primitive. -/
def isPrimitive : Ty → Bool
  | .primitive _ => true
  | _ => false

end Ty

/-- Whether an argument is a star. -/
def TypeArg.isStar : TypeArg → Bool
  | .star => true
  | .type _ => false

/-! ## Equality -/

mutual

/-- Compares two types part by part. -/
def Ty.beq : Ty → Ty → Bool
  | .primitive p, .primitive q => p == q
  | .ofClass c as, .ofClass d bs => c == d && TypeArg.beqList as bs
  | .array a, .array b => a.beq b
  | .param s, .param r => s == r
  | .unresolved s, .unresolved r => s == r
  | _, _ => false

/-- Compares two type arguments. -/
def TypeArg.beq : TypeArg → TypeArg → Bool
  | .star, .star => true
  | .type s, .type t => s.beq t
  | _, _ => false

/-- Compares two lists of type arguments. -/
def TypeArg.beqList : List TypeArg → List TypeArg → Bool
  | [], [] => true
  | a :: as, b :: bs => a.beq b && TypeArg.beqList as bs
  | _, _ => false

end

mutual

/-- Comparing part by part decides the equality of types. -/
@[simp]
theorem Ty.beq_iff : ∀ s t : Ty, s.beq t = true ↔ s = t
  | .primitive p, t => by cases t <;> simp [Ty.beq]
  | .ofClass c as, t => by cases t <;> simp [Ty.beq, TypeArg.beqList_iff as]
  | .array a, t => by cases t <;> simp [Ty.beq, TypeArg.beq_iff a]
  | .param s, t => by cases t <;> simp [Ty.beq]
  | .unresolved s, t => by cases t <;> simp [Ty.beq]

/-- Comparing part by part decides the equality of type arguments. -/
@[simp]
theorem TypeArg.beq_iff : ∀ a b : TypeArg, a.beq b = true ↔ a = b
  | .star, b => by cases b <;> simp [TypeArg.beq]
  | .type s, b => by cases b <;> simp [TypeArg.beq, Ty.beq_iff s]

/-- Comparing part by part decides the equality of lists of type arguments. -/
@[simp]
theorem TypeArg.beqList_iff : ∀ as bs : List TypeArg, TypeArg.beqList as bs = true ↔ as = bs
  | [], bs => by cases bs <;> simp [TypeArg.beqList]
  | a :: as, bs => by
    cases bs <;> simp [TypeArg.beqList, TypeArg.beq_iff a, TypeArg.beqList_iff as]

end

instance : DecidableEq Ty := fun s t => decidable_of_iff _ (Ty.beq_iff s t)

instance : DecidableEq TypeArg := fun a b => decidable_of_iff _ (TypeArg.beq_iff a b)

end BackingFields
