import BackingFields.Ty.Resolution

set_option relaxedAutoImplicit false
set_option autoImplicit false

/-!
# What occurs in a type

Types nest through the arguments of classes and the elements of arrays, so a fact about a type
concerns whatever occurs in it at any depth.  A class reference is resolved together with its
arguments, which may be the given ones or stars.

## Main definitions

* `BackingFields.Ty.parts` — the types that occur in a resolved type.
* `BackingFields.BinaryType.classNames` — the class names that occur in a type of compiled metadata.
* `BackingFields.ClassTable.argumentsOf` — the arguments that a class reference means.

## Main results

* `BackingFields.Ty.induction`, `BackingFields.BinaryType.induction` — what holds of a type if it
  holds of its arguments or of its element holds of every type.
* `BackingFields.ClassTable.resolve_ofClass`, `BackingFields.ClassTable.length_argumentsOf` — what a
  class reference means, with an argument for each type parameter.
-/

namespace BackingFields

/-! ## Induction -/

/-- What holds of a resolved type whenever it holds of the types among its arguments, or of its
element, holds of every resolved type. -/
@[elab_as_elim]
theorem Ty.induction {motive : Ty → Prop} (primitive : ∀ p, motive (.primitive p))
    (ofClass : ∀ id args, (∀ ty, .type ty ∈ args → motive ty) → motive (.ofClass id args))
    (array : ∀ elem, (∀ ty, elem = .type ty → motive ty) → motive (.array elem))
    (param : ∀ name, motive (.param name)) (unresolved : ∀ name, motive (.unresolved name))
    (ty : Ty) : motive ty := by
  refine @Ty.rec motive (fun arg => ∀ ty, arg = .type ty → motive ty)
    (fun args => ∀ ty, .type ty ∈ args → motive ty) primitive ofClass array param unresolved nofun
    ?_ nofun ?_ ty
  · rintro ty hty _ ⟨⟩
    exact hty
  · intro arg args harg hargs ty hty
    rcases List.mem_cons.mp hty with heq | hmem
    · exact harg ty heq.symm
    · exact hargs ty hmem

/-- What holds of a type of compiled metadata whenever it holds of its arguments, or of its element,
holds of every such type. -/
@[elab_as_elim]
theorem BinaryType.induction {motive : BinaryType → Prop} (primitive : ∀ p, motive (.primitive p))
    (ofClass : ∀ name args, (∀ b ∈ args, motive b) → motive (.ofClass name args))
    (array : ∀ elem, motive elem → motive (.array elem)) (typeVar : ∀ name, motive (.typeVar name))
    (wildcard : motive .wildcard) (b : BinaryType) : motive b := by
  refine @BinaryType.rec motive (fun args => ∀ b ∈ args, motive b) primitive ofClass array typeVar
    wildcard nofun ?_ b
  intro arg args harg hargs b hb
  rcases List.mem_cons.mp hb with rfl | hmem
  · exact harg
  · exact hargs b hmem

/-! ## Parts of resolved types -/

mutual

/-- The types that occur in a resolved type at any depth, itself included. -/
def Ty.parts : Ty → List Ty
  | .ofClass id args => .ofClass id args :: TypeArg.partsOfList args
  | .array elem => .array elem :: elem.parts
  | ty => [ty]

/-- The types that occur in a type argument; there is none in a star. -/
def TypeArg.parts : TypeArg → List Ty
  | .star => []
  | .type ty => ty.parts

/-- The types that occur in any of some type arguments. -/
def TypeArg.partsOfList : List TypeArg → List Ty
  | [] => []
  | arg :: args => arg.parts ++ TypeArg.partsOfList args

end

/-- What occurs in a list of arguments occurs in one of them that is a type. -/
@[simp]
theorem TypeArg.mem_partsOfList {u : Ty} {args : List TypeArg} :
    u ∈ partsOfList args ↔ ∃ ty, .type ty ∈ args ∧ u ∈ ty.parts := by
  induction args with
  | nil => simp [partsOfList]
  | cons arg args ih =>
    rw [partsOfList, List.mem_append, ih]
    cases arg with
    | star => simp [parts]
    | type ty => simp [parts, or_and_right, exists_or]

/-- A class type occurs in itself, and so does what occurs in its arguments. -/
@[simp]
theorem Ty.mem_parts_ofClass {u : Ty} {id : ClassId} {args : List TypeArg} :
    u ∈ (ofClass id args).parts ↔
      u = .ofClass id args ∨ ∃ ty, .type ty ∈ args ∧ u ∈ ty.parts := by
  rw [parts, List.mem_cons, TypeArg.mem_partsOfList]

/-- An array type occurs in itself, and so does what occurs in its element. -/
@[simp]
theorem Ty.mem_parts_array {u : Ty} {elem : TypeArg} :
    u ∈ (array elem).parts ↔ u = .array elem ∨ ∃ ty, elem = .type ty ∧ u ∈ ty.parts := by
  cases elem <;> simp [parts, TypeArg.parts]

@[simp]
theorem Ty.mem_parts_primitive {u : Ty} {p : Primitive} :
    u ∈ (primitive p).parts ↔ u = .primitive p := by
  simp [parts]

@[simp]
theorem Ty.mem_parts_param {u : Ty} {name : String} :
    u ∈ (param name).parts ↔ u = .param name := by
  simp [parts]

@[simp]
theorem Ty.mem_parts_unresolved {u : Ty} {name : String} :
    u ∈ (unresolved name).parts ↔ u = .unresolved name := by
  simp [parts]

/-! ## Class names in compiled metadata -/

mutual

/-- The class names that occur in a type of compiled metadata at any depth. -/
def BinaryType.classNames : BinaryType → List String
  | .ofClass name args => name :: BinaryType.classNamesOfList args
  | .array elem => elem.classNames
  | _ => []

/-- The class names that occur in any of some types of compiled metadata. -/
def BinaryType.classNamesOfList : List BinaryType → List String
  | [] => []
  | b :: bs => b.classNames ++ BinaryType.classNamesOfList bs

end

/-- The class names in a list of types are those in one of them. -/
@[simp]
theorem BinaryType.mem_classNamesOfList {name : String} {bs : List BinaryType} :
    name ∈ classNamesOfList bs ↔ ∃ b ∈ bs, name ∈ b.classNames := by
  induction bs with
  | nil => simp [classNamesOfList]
  | cons b bs ih => simp [classNamesOfList, ih]

/-! ## Arguments of class references -/

namespace ClassTable

variable {t : ClassTable}

/-- The arguments that a reference to a class means: those that it gives, if there is one for each
type parameter, and stars otherwise. -/
def argumentsOf (t : ClassTable) (id : ClassId) (args : List BinaryType) : List TypeArg :=
  if args.length = t.arity id then args.map t.resolveArg else List.replicate (t.arity id) .star

/-- A class reference means the class of its name, or nothing if there is none. -/
theorem resolve_ofClass (t : ClassTable) (name : String) (args : List BinaryType) :
    t.resolve (.ofClass name args) =
      (t.named? name).elim (.unresolved name) fun id => .ofClass id (t.argumentsOf id args) := by
  rw [resolve]
  cases t.named? name with
  | none => rfl
  | some id =>
    simp only [Option.elim_some, argumentsOf, resolveArgs_eq_map]
    split <;> rfl

/-- There is an argument for each type parameter. -/
@[simp]
theorem length_argumentsOf (t : ClassTable) (id : ClassId) (args : List BinaryType) :
    (t.argumentsOf id args).length = t.arity id := by
  unfold argumentsOf
  split
  · rwa [List.length_map]
  · rw [List.length_replicate]

/-- An argument is a type exactly if it is given as one, not as a wildcard. -/
@[simp]
theorem resolveArg_eq_type_iff {b : BinaryType} {ty : Ty} :
    t.resolveArg b = .type ty ↔ b ≠ .wildcard ∧ t.resolve b = ty := by
  cases b <;> simp [resolveArg, BinaryType.asArgument]

/-- The types among the arguments are those that given arguments mean. -/
theorem exists_of_type_mem_argumentsOf {id : ClassId} {args : List BinaryType} {ty : Ty}
    (h : .type ty ∈ t.argumentsOf id args) : ∃ b ∈ args, t.resolve b = ty := by
  unfold argumentsOf at h
  split at h
  · obtain ⟨b, hb, harg⟩ := List.mem_map.mp h
    exact ⟨b, hb, (resolveArg_eq_type_iff.mp harg).2⟩
  · cases List.eq_of_mem_replicate h

end ClassTable

end BackingFields
