import BackingFields.Proofs.Hierarchy.Invariant
import BackingFields.Proofs.Ty.Occurrence

set_option relaxedAutoImplicit false
set_option autoImplicit false

/-!
# Resolved types fit their classes

Compiled metadata may refer to classes that nobody has declared, leave out arguments or give too
many, and put wildcards anywhere.  Whatever it says, the type that it resolves to fits the table of
classes in all of its parts.

## Main definitions

* `BackingFields.ClassTable.Fits` — what a table asks of a type, its arguments left aside.

## Main results

* `BackingFields.ClassTable.WellFormed.fits_of_mem_parts_resolve` — every part of a resolved type
  fits a well-formed table.
* `BackingFields.Hierarchy.Reachable.fits_resolve` — so it does in every hierarchy.
-/

namespace BackingFields

namespace ClassTable

variable {t : ClassTable}

/-! ## Types that fit -/

/-- What a table asks of a type, its arguments left aside: a class type belongs to a class of the
table and has an argument for each of its type parameters, and an unresolved name is that of no
class. -/
def Fits (t : ClassTable) : Ty → Prop
  | .ofClass id args => ∃ c, t.get? id = some c ∧ args.length = c.typeParams.length
  | .unresolved name => t.named? name = none
  | _ => True

/-- Every part of a resolved type fits a well-formed table.

**Proof sketch.** Induction on the type.  A name that the index knows leads to a class, and the
arguments are as many as its type parameters, whether they are the given ones or stars.  The root,
which a wildcard stands for, has no type parameters. -/
theorem WellFormed.fits_of_mem_parts_resolve (ht : t.WellFormed) (b : BinaryType) :
    ∀ u ∈ (t.resolve b).parts, t.Fits u := by
  induction b using BinaryType.induction with
  | primitive p => simp [Fits]
  | typeVar name => simp [Fits]
  | wildcard =>
    obtain ⟨name, qualifiedName, hroot⟩ := ht.root
    intro u hu
    obtain rfl : u = .ofClass .root [] := by
      simpa using hu
    exact ⟨_, hroot, rfl⟩
  | array elem ih =>
    intro u hu
    rw [resolve_array, Ty.mem_parts_array] at hu
    rcases hu with rfl | ⟨ty, harg, hu⟩
    · trivial
    · obtain ⟨-, rfl⟩ := resolveArg_eq_type_iff.mp harg
      exact ih u hu
  | ofClass name args ih =>
    intro u hu
    rw [resolve_ofClass] at hu
    cases hname : t.named? name with
    | none =>
      rw [hname] at hu
      obtain rfl : u = .unresolved name := by
        simpa using hu
      exact hname
    | some id =>
      rw [hname, Option.elim_some, Ty.mem_parts_ofClass] at hu
      rcases hu with rfl | ⟨ty, hty, hu⟩
      · obtain ⟨c, hc, -⟩ := ht.named?_eq_some_iff.mp hname
        refine ⟨c, hc, ?_⟩
        rw [length_argumentsOf, arity, hc]
        rfl
      · obtain ⟨b, hb, rfl⟩ := exists_of_type_mem_argumentsOf hty
        exact ih b hb u hu

end ClassTable

namespace Hierarchy

variable {h : Hierarchy}

/-- **Resolved types fit.**  Whatever compiled metadata says, in the type that it means every class
type, at any depth, belongs to a class of the hierarchy and has as many arguments as this class has
type parameters, and every unresolved name is that of no class. -/
theorem Reachable.fits_resolve (hr : h.Reachable) (b : BinaryType) :
    ∀ u ∈ (h.classes.resolve b).parts,
      (∀ id args, u = .ofClass id args →
        ∃ c, h.classes.get? id = some c ∧ args.length = c.typeParams.length) ∧
      ∀ name, u = .unresolved name → h.classes.named? name = none := by
  intro u hu
  have hfits := hr.wellFormed_classes.fits_of_mem_parts_resolve b u hu
  constructor
  · rintro id args rfl
    exact hfits
  · rintro name rfl
    exact hfits

/-- The hierarchy of a generic box below the root. -/
def boxes : Hierarchy :=
  (ofRoot "Any").run [.declare { name := "Box", typeParams := ["T"], members := .binary [] [] }]

/-- A host can come to the hierarchy of boxes. -/
theorem boxes_reachable : boxes.Reachable := (Reachable.ofRoot "Any").run _

/-- In a box of an array of raw boxes the inner box gets its one argument, and in a box of lids, of
which nothing is known, the lid stays unresolved. -/
theorem boxes_fits_resolve :
    let nested : BinaryType := .ofClass "Box" [.array (.ofClass "Box" [])]
    let unknown : BinaryType := .ofClass "Box" [.ofClass "Lid" [.wildcard]]
    .ofClass ⟨1⟩ [.star] ∈ (boxes.classes.resolve nested).parts ∧
      (∃ c, boxes.classes.get? ⟨1⟩ = some c ∧ 1 = c.typeParams.length) ∧
      .unresolved "Lid" ∈ (boxes.classes.resolve unknown).parts ∧
      boxes.classes.named? "Lid" = none := by
  intro nested unknown
  have hnested : .ofClass ⟨1⟩ [.star] ∈ (boxes.classes.resolve nested).parts := by
    decide +kernel
  have hunknown : .unresolved "Lid" ∈ (boxes.classes.resolve unknown).parts := by
    decide +kernel
  exact ⟨hnested, (Reachable.fits_resolve boxes_reachable nested _ hnested).1 _ _ rfl, hunknown,
    (Reachable.fits_resolve boxes_reachable unknown _ hunknown).2 _ rfl⟩

end Hierarchy

end BackingFields
