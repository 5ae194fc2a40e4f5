import BackingFields.Proofs.Ty.Soundness

set_option relaxedAutoImplicit false
set_option autoImplicit false

/-!
# What star projection keeps

Star projection maps every type to one without concrete arguments and leaves such a type alone.
Nothing of the arguments in compiled metadata survives it: whether they are right, too few, too many
or of no use since their class is missing, the projected type is that of the bare class name.  All
that survives of the element of an array is a primitive type.

## Main definitions

* `BackingFields.Ty.arguments` — the arguments of a class type.
* `BackingFields.BinaryType.erased` — a type of compiled metadata without the arguments of its
  class.

## Main results

* `BackingFields.Ty.isStarProjected_iff` — which types are star-projected.
* `BackingFields.Ty.isStarProjected_starProject`, `BackingFields.Ty.starProject_eq_self_iff` — these
  are the projected types and those that projection leaves alone.
* `BackingFields.ClassTable.starProject_resolve_erased` — up to its arguments a type means what its
  erasure means.
* `BackingFields.ClassTable.projected_resolve` — the laws of projection together.

## Design notes

The element of a projected array depends only on whether it is primitive, by
`BackingFields.ClassTable.starElement_resolveArg_congr`.  So it is the same in all tables of classes
and with all arguments, which needs no induction on the element.
-/

namespace BackingFields

/-! ## Star-projected types -/

/-- An argument is told to be a star exactly if it is the star. -/
@[simp]
theorem TypeArg.isStar_iff {arg : TypeArg} : arg.isStar = true ↔ arg = .star := by
  cases arg <;> simp [isStar]

/-- The element of a projected array is a star unless it is primitive. -/
@[simp]
theorem TypeArg.starElement_eq_star_iff {arg : TypeArg} :
    arg.starElement = .star ↔ ∀ p, arg ≠ .type (.primitive p) := by
  cases arg with
  | star => simp [starElement]
  | type ty => cases ty <;> simp [starElement]

namespace Ty

/-- The arguments of a class type; other types have none. -/
def arguments : Ty → List TypeArg
  | .ofClass _ args => args
  | _ => []

/-- A type is told to be primitive exactly if it is one of the primitive types. -/
@[simp]
theorem isPrimitive_iff {ty : Ty} : ty.isPrimitive = true ↔ ∃ p, ty = .primitive p := by
  cases ty <;> simp [isPrimitive]

/-- A type is star-projected exactly if all its arguments are stars and, in an array, the element is
no concrete type but a primitive one. -/
theorem isStarProjected_iff {ty : Ty} :
    ty.isStarProjected = true ↔
      (∀ arg ∈ ty.arguments, arg = .star) ∧
        ∀ elem, ty = .array (.type elem) → ∃ p, elem = .primitive p := by
  cases ty with
  | ofClass id args => simp [isStarProjected, arguments]
  | array elem => cases elem <;> simp [isStarProjected, arguments]
  | _ => simp [isStarProjected, arguments]

/-- Projection puts a star in the place of each argument. -/
@[simp]
theorem arguments_starProject (ty : Ty) :
    ty.starProject.arguments = List.replicate ty.arguments.length .star := by
  cases ty with
  | ofClass id args => exact List.map_const'
  | _ => rfl

/-- A projected type is star-projected. -/
@[simp]
theorem isStarProjected_starProject (ty : Ty) : ty.starProject.isStarProjected = true := by
  rw [isStarProjected_iff]
  constructor
  · intro arg harg
    rw [arguments_starProject] at harg
    exact List.eq_of_mem_replicate harg
  · intro elem heq
    cases ty with
    | array arg =>
      cases arg with
      | star => cases heq
      | type ty =>
        cases ty with
        | primitive p =>
          cases heq
          exact ⟨p, rfl⟩
        | _ => cases heq
    | _ => cases heq

/-- Projection leaves exactly the star-projected types alone. -/
@[simp]
theorem starProject_eq_self_iff {ty : Ty} : ty.starProject = ty ↔ ty.isStarProjected = true := by
  constructor
  · intro h
    rw [← h]
    exact isStarProjected_starProject ty
  · intro h
    obtain ⟨hargs, helem⟩ := isStarProjected_iff.mp h
    cases ty with
    | ofClass _ args =>
      have hstars : args.map (fun _ => TypeArg.star) = args.map id :=
        List.map_congr_left fun arg harg => (hargs arg harg).symm
      rw [starProject, hstars, List.map_id]
    | array arg =>
      cases arg with
      | star => rfl
      | type elem =>
        obtain ⟨p, rfl⟩ := helem elem rfl
        rfl
    | _ => rfl

end Ty

/-! ## Erasure -/

namespace BinaryType

/-- The type without the arguments of the class that it is built on.  An array is built on what its
element is built on. -/
def erased : BinaryType → BinaryType
  | .ofClass name _ => .ofClass name []
  | .array elem => .array elem.erased
  | b => b

/-- Erasure keeps primitive types apart from all others. -/
@[simp]
theorem erased_eq_primitive_iff {b : BinaryType} {p : Primitive} :
    b.erased = .primitive p ↔ b = .primitive p := by
  cases b <;> simp [erased]

end BinaryType

namespace ClassTable

variable {t : ClassTable}

/-! ## Projected types of compiled metadata -/

/-- Up to type arguments, a class reference means the class of its name, or nothing if there is
none. -/
theorem starProject_resolve_ofClass (t : ClassTable) (name : String) (args : List BinaryType) :
    (t.resolve (.ofClass name args)).starProject =
      match t.named? name with
      | none => .unresolved name
      | some id => .ofClass id (List.replicate (t.arity id) .star) := by
  rw [resolve_ofClass]
  cases t.named? name with
  | none => rfl
  | some id =>
    have hstars := List.map_const' (l := t.argumentsOf id args) (b := TypeArg.star)
    rw [length_argumentsOf] at hstars
    exact congrArg (Ty.ofClass id) hstars

/-- An array is projected through its element. -/
theorem starProject_resolve_array (t : ClassTable) (elem : BinaryType) :
    (t.resolve (.array elem)).starProject = .array (t.resolveArg elem).starElement := by
  rw [resolve_array, Ty.starProject]

/-- An argument means a primitive type exactly if it is this type. -/
theorem resolveArg_eq_primitive_iff {b : BinaryType} {p : Primitive} :
    t.resolveArg b = .type (.primitive p) ↔ b = .primitive p := by
  rw [resolveArg_eq_type_iff]
  cases b with
  | ofClass name args =>
    rw [resolve_ofClass]
    cases t.named? name <;> simp
  | _ => simp

/-- The element of a projected array is a star unless the metadata has a primitive one. -/
theorem starElement_resolveArg_eq_star_iff {b : BinaryType} :
    (t.resolveArg b).starElement = .star ↔ ∀ p, b ≠ .primitive p := by
  simp only [TypeArg.starElement_eq_star_iff, ne_eq, resolveArg_eq_primitive_iff]

/-- Elements of arrays that are the same primitive type, or none both, are the same in projected
arrays. -/
theorem starElement_resolveArg_congr (t t' : ClassTable) {b b' : BinaryType}
    (h : ∀ p, b = .primitive p ↔ b' = .primitive p) :
    (t.resolveArg b).starElement = (t'.resolveArg b').starElement := by
  by_cases hprimitive : ∃ p, b = .primitive p
  · obtain ⟨p, rfl⟩ := hprimitive
    rw [(h p).mp rfl]
    rfl
  · have hb : ∀ p, b ≠ .primitive p := not_exists.mp hprimitive
    have hb' : ∀ p, b' ≠ .primitive p := fun p heq => hb p ((h p).mpr heq)
    rw [starElement_resolveArg_eq_star_iff.mpr hb, starElement_resolveArg_eq_star_iff.mpr hb']

/-- Up to its type arguments, a type means what its erasure means. -/
theorem starProject_resolve_erased (t : ClassTable) (b : BinaryType) :
    (t.resolve b.erased).starProject = (t.resolve b).starProject := by
  cases b with
  | ofClass name args =>
    rw [BinaryType.erased, starProject_resolve_ofClass, starProject_resolve_ofClass]
  | array elem =>
    rw [BinaryType.erased, starProject_resolve_array, starProject_resolve_array,
      starElement_resolveArg_congr t t fun _ => BinaryType.erased_eq_primitive_iff]
  | _ => rfl

/-! ## The laws together -/

/-- **Star projection is a projection and depends on erasures only.**

* A type is star-projected exactly if all its arguments are stars and, in an array, the element is a
  star or primitive.
* The projection of a type is star-projected, and it is the type itself exactly if this is
  star-projected; so a second projection changes nothing.
* Projection keeps the class that a type is built on and the number of its arguments.
* In any table of classes, what a type of compiled metadata means has the same projection as what
  its erasure means, and what an array means is projected to an array of a star exactly if its
  element is not primitive. -/
theorem projected_resolve (t : ClassTable) :
    (∀ ty : Ty,
      (ty.isStarProjected = true ↔ (∀ arg ∈ ty.arguments, arg = .star) ∧
        ∀ elem, ty = .array (.type elem) → ∃ p, elem = .primitive p) ∧
      ty.starProject.isStarProjected = true ∧
      (ty.starProject = ty ↔ ty.isStarProjected = true) ∧
      ty.starProject.starProject = ty.starProject ∧
      ty.starProject.classId? = ty.classId? ∧
      ty.starProject.arguments.length = ty.arguments.length) ∧
    (∀ b : BinaryType, (t.resolve b.erased).starProject = (t.resolve b).starProject) ∧
    ∀ elem : BinaryType,
      (t.resolve (.array elem)).starProject = .array .star ↔ ∀ p, elem ≠ .primitive p := by
  refine ⟨fun ty => ?_, t.starProject_resolve_erased, fun elem => ?_⟩
  · have hprojected := ty.isStarProjected_starProject
    have hlength : ty.starProject.arguments.length = ty.arguments.length := by
      rw [Ty.arguments_starProject, List.length_replicate]
    exact ⟨Ty.isStarProjected_iff, hprojected, Ty.starProject_eq_self_iff,
      Ty.starProject_eq_self_iff.mpr hprojected, ty.classId?_starProject, hlength⟩
  · rw [starProject_resolve_array, Ty.array.injEq]
    exact starElement_resolveArg_eq_star_iff

end ClassTable

/-- A box of a lid is not star-projected, but its projection is what a raw box means; and an array
of such boxes is projected to an array of a star. -/
theorem Hierarchy.boxes_projected_resolve :
    let t := boxes.classes
    let b : BinaryType := .ofClass "Box" [.ofClass "Lid" []]
    (t.resolve b).isStarProjected = false ∧
      (t.resolve b).starProject = t.resolve (.ofClass "Box" []) ∧
      (t.resolve (.array b)).starProject = .array .star := by
  intro t b
  obtain ⟨hty, herased, harray⟩ := ClassTable.projected_resolve t
  obtain ⟨-, -, hfixed, -⟩ := hty (t.resolve b.erased)
  have hraw : (t.resolve b.erased).isStarProjected = true := by
    decide +kernel
  refine ⟨by decide +kernel, ?_, (harray b).mpr nofun⟩
  rw [← herased b]
  exact hfixed.mpr hraw

end BackingFields
