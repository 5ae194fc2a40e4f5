import BackingFields.Proofs.Hierarchy.Listing
import BackingFields.Proofs.Ty.Growth
import BackingFields.Proofs.Ty.Soundness

set_option relaxedAutoImplicit false
set_option autoImplicit false

/-!
# Declarations refine resolved types

Classes that are declared later can only make a resolved type more precise: a name that was
unresolved may become a class type, and nothing else in the type changes.  With the class its given
arguments appear, which were left out before, so the type may grow in depth.

## Main definitions

* `BackingFields.Ty.RefinedBy` — what some declarations make of a type.

## Main results

* `BackingFields.Hierarchy.named?_run_iff` — a name leads to the class that it led to before, or to
  one that has been declared since.
* `BackingFields.ClassTable.refinedBy_resolve` — a later table resolves a type to a refinement.
* `BackingFields.Hierarchy.Reachable.refined_resolve` — how the type that compiled metadata means
  changes in the history of a hierarchy.
-/

namespace BackingFields

/-! ## Refinement -/

mutual

/-- What becomes of a type when some classes are declared under some handles: an unresolved name of
one of them becomes a type of this class, with an argument for each of its type parameters, any
other unresolved name stays, and all else in the type, at every depth, is as before. -/
inductive Ty.RefinedBy (declared : List (ClassDecl × ClassId)) : Ty → Ty → Prop
  | primitive (p : Primitive) : Ty.RefinedBy declared (.primitive p) (.primitive p)
  | param (name : String) : Ty.RefinedBy declared (.param name) (.param name)
  | ofClass (id : ClassId) {args args' : List TypeArg}
      (h : List.Forall₂ (TypeArg.RefinedBy declared) args args') :
      Ty.RefinedBy declared (.ofClass id args) (.ofClass id args')
  | array {elem elem' : TypeArg} (h : TypeArg.RefinedBy declared elem elem') :
      Ty.RefinedBy declared (.array elem) (.array elem')
  | kept (name : String) (missing : ∀ d id, (d, id) ∈ declared → d.name ≠ name) :
      Ty.RefinedBy declared (.unresolved name) (.unresolved name)
  | resolved {d : ClassDecl} {id : ClassId} {args : List TypeArg} (since : (d, id) ∈ declared)
      (h : args.length = d.typeParams.length) :
      Ty.RefinedBy declared (.unresolved d.name) (.ofClass id args)

/-- What becomes of a type argument when some classes are declared: a star stays a star. -/
inductive TypeArg.RefinedBy (declared : List (ClassDecl × ClassId)) : TypeArg → TypeArg → Prop
  | star : TypeArg.RefinedBy declared .star .star
  | type {ty ty' : Ty} (h : Ty.RefinedBy declared ty ty') :
      TypeArg.RefinedBy declared (.type ty) (.type ty')

end

section

variable {declared : List (ClassDecl × ClassId)}

/-- A type among some arguments becomes a type among those that they become. -/
theorem TypeArg.RefinedBy.exists_mem {args args' : List TypeArg}
    (h : List.Forall₂ (TypeArg.RefinedBy declared) args args') {ty : Ty} (hty : .type ty ∈ args) :
    ∃ ty', .type ty' ∈ args' ∧ ty.RefinedBy declared ty' := by
  induction h with
  | nil => cases hty
  | cons harg _ ih =>
    rcases List.mem_cons.mp hty with rfl | hmem
    · cases harg with
      | type h => exact ⟨_, List.mem_cons_self, h⟩
    · obtain ⟨ty', hty', h⟩ := ih hmem
      exact ⟨ty', List.mem_cons_of_mem _ hty', h⟩

/-- An unresolved name that no declaration has still occurs in what a type becomes. -/
theorem Ty.RefinedBy.mem_parts {name : String}
    (missing : ∀ d id, (d, id) ∈ declared → d.name ≠ name) {ty ty' : Ty} (h : ty.RefinedBy declared ty') (hmem : .unresolved name ∈ ty.parts) :
    .unresolved name ∈ ty'.parts := by
  induction ty using Ty.induction generalizing ty' with
  | primitive p => simp at hmem
  | param r => simp at hmem
  | unresolved r =>
    obtain rfl : name = r := by
      simpa using hmem
    cases h with
    | kept _ _ => exact hmem
    | resolved since _ => exact absurd rfl (missing _ _ since)
  | array elem ih =>
    cases h with
    | array helem =>
      rw [mem_parts_array] at hmem ⊢
      obtain heq | ⟨ty, rfl, hmem⟩ := hmem
      · cases heq
      · cases helem with
        | type h => exact .inr ⟨_, rfl, ih ty rfl h hmem⟩
  | ofClass id args ih =>
    cases h with
    | ofClass _ hargs =>
      rw [mem_parts_ofClass] at hmem ⊢
      obtain heq | ⟨ty, hty, hmem⟩ := hmem
      · cases heq
      · obtain ⟨ty', hty', h⟩ := TypeArg.RefinedBy.exists_mem hargs hty
        exact .inr ⟨ty', hty', ih ty hty h hmem⟩

end

/-! ## Tables -/

namespace ClassTable

variable {t t' : ClassTable} {declared : List (ClassDecl × ClassId)}

/-- A table arises from another when some classes are declared under some handles. -/
structure ExtendedBy (t : ClassTable) (declared : List (ClassDecl × ClassId)) (t' : ClassTable) :
    Prop where
  /-- What was known stays known. -/
  growsTo : t.GrowsTo t'
  /-- A name leads where it led before, or to the class declared under it. -/
  named?_eq_some_iff : ∀ {name : String} {id : ClassId}, t'.named? name = some id ↔
    t.named? name = some id ∨ ∃ d, (d, id) ∈ declared ∧ d.name = name
  /-- A declared class had a name that was missing. -/
  named?_eq_none : ∀ {d : ClassDecl} {id : ClassId}, (d, id) ∈ declared → t.named? d.name = none
  /-- A declared class has the declared type parameters. -/
  arity_eq : ∀ {d : ClassDecl} {id : ClassId}, (d, id) ∈ declared →
    t'.arity id = d.typeParams.length

/-- A name that was missing is still missing exactly if no class has been declared under it. -/
theorem ExtendedBy.named?_eq_none_iff (h : t.ExtendedBy declared t') {name : String}
    (hname : t.named? name = none) :
    t'.named? name = none ↔ ∀ d id, (d, id) ∈ declared → d.name ≠ name := by
  rw [Option.eq_none_iff_forall_ne_some]
  simp only [ne_eq, h.named?_eq_some_iff, hname, reduceCtorEq, false_or, not_exists, not_and]
  exact forall_comm

/-- A type argument means a refinement of what it meant if the type does. -/
theorem refinedBy_resolveArg {b : BinaryType}
    (h : (t.resolve b).RefinedBy declared (t'.resolve b)) :
    (t.resolveArg b).RefinedBy declared (t'.resolveArg b) := by
  cases b with
  | wildcard => exact .star
  | _ => exact .type h

/-- **Later tables refine types.**  What a type of compiled metadata means in a table that arises by
declarations is what they make of what it meant before.

**Proof sketch.** Induction on the type.  A class that was known has kept its handle and its type
parameters, so its arguments are the given ones, or stars, in both tables.  A name that was not
known is still missing, or leads to a declared class. -/
theorem refinedBy_resolve (ht : t.WellFormed) (hext : t.ExtendedBy declared t') (b : BinaryType) :
    (t.resolve b).RefinedBy declared (t'.resolve b) := by
  induction b using BinaryType.induction with
  | primitive p => exact .primitive p
  | typeVar name => exact .param name
  | wildcard => exact .ofClass .root .nil
  | array elem ih => exact .array (refinedBy_resolveArg ih)
  | ofClass name args ih =>
    rw [resolve_ofClass, resolve_ofClass]
    cases hold : t.named? name with
    | some id =>
      obtain ⟨c, hc, -⟩ := ht.named?_eq_some_iff.mp hold
      rw [hext.growsTo.named?_eq_some hold]
      refine .ofClass id ?_
      rw [argumentsOf, argumentsOf, hext.growsTo.arity_eq hc]
      split
      · rw [List.forall₂_map_left_iff, List.forall₂_map_right_iff, List.forall₂_same]
        exact fun b hb => refinedBy_resolveArg (ih b hb)
      · refine List.forall₂_same.mpr fun arg harg => ?_
        rw [List.eq_of_mem_replicate harg]
        exact .star
    | none =>
      cases hnew : t'.named? name with
      | none => exact .kept name ((hext.named?_eq_none_iff hold).mp hnew)
      | some id =>
        rcases hext.named?_eq_some_iff.mp hnew with hid | ⟨d, hd, rfl⟩
        · rw [hold] at hid
          cases hid
        · exact .resolved hd ((t'.length_argumentsOf id args).trans (hext.arity_eq hd))

/-- A type whose class names were all known means what it meant before. -/
theorem resolve_eq_of_known (ht : t.WellFormed) (hgrow : t.GrowsTo t') {b : BinaryType}
    (hknown : ∀ name ∈ b.classNames, (t.named? name).isSome = true) :
    t'.resolve b = t.resolve b := by
  induction b using BinaryType.induction with
  | array elem ih => rw [resolve, resolve, ih hknown]
  | ofClass name args ih =>
    obtain ⟨id, hid⟩ := Option.isSome_iff_exists.mp (hknown name List.mem_cons_self)
    obtain ⟨c, hc, -⟩ := ht.named?_eq_some_iff.mp hid
    have hargs : ∀ b ∈ args, t'.resolveArg b = t.resolveArg b := by
      intro b hb
      have hknownArg : ∀ name ∈ b.classNames, (t.named? name).isSome = true := fun name hname =>
        hknown name (List.mem_cons_of_mem _ (BinaryType.mem_classNamesOfList.mpr ⟨b, hb, hname⟩))
      rw [resolveArg, resolveArg, ih b hb hknownArg]
    rw [resolve_ofClass, resolve_ofClass, hid, hgrow.named?_eq_some hid, Option.elim_some,
      Option.elim_some, argumentsOf, argumentsOf, hgrow.arity_eq hc, List.map_congr_left hargs]
  | _ => rfl

end ClassTable

/-! ## Histories -/

/-- After an operation a name leads where it led before, or to the class that has been declared
under it. -/
theorem Operation.named?_apply_iff (op : Operation) (h : Hierarchy) {name : String} {id : ClassId} :
    (op.apply h).classes.named? name = some id ↔
      h.classes.named? name = some id ∨ ∃ d, (d, id) ∈ op.accepted h ∧ d.name = name := by
  rcases op.accepted_cases h with ⟨hnone, heq⟩ | ⟨d, c, hone, hc, heq⟩
  · simp [hnone, heq]
  · rw [heq, ClassTable.named?_push, hc.qualifiedName_eq, hone]
    by_cases hname : d.name = name
    · subst hname
      simp [hc.isFree, eq_comm]
    · simp [hname]

namespace Hierarchy

variable {h : Hierarchy}

/-- After a sequence of operations a name leads where it led before, or to the class that has been
declared under it. -/
theorem named?_run_iff (h : Hierarchy) (ops : List Operation) {name : String} {id : ClassId} :
    (h.run ops).classes.named? name = some id ↔
      h.classes.named? name = some id ∨ ∃ d, (d, id) ∈ h.accepted ops ∧ d.name = name := by
  induction ops generalizing h with
  | nil => simp [accepted]
  | cons op ops ih =>
    rw [run_cons, ih, op.named?_apply_iff, accepted, or_assoc]
    simp only [List.mem_append, or_and_right, exists_or]

/-- A class that has been declared in a history has a name that was missing in the beginning. -/
theorem named?_eq_none_of_mem_accepted {d : ClassDecl} {id : ClassId} {ops : List Operation}
    (hd : (d, id) ∈ h.accepted ops) : h.classes.named? d.name = none := by
  induction ops generalizing h with
  | nil => cases hd
  | cons op ops ih =>
    rcases List.mem_append.mp hd with hfirst | hlater
    · rcases op.accepted_cases h with ⟨hnone, -⟩ | ⟨d', c, hone, hc, -⟩
      · rw [hnone] at hfirst
        cases hfirst
      · rw [hone, List.mem_singleton] at hfirst
        cases hfirst
        exact hc.isFree
    · by_contra hknown
      obtain ⟨id', hid'⟩ := Option.ne_none_iff_exists'.mp hknown
      have hnone := ih hlater
      rw [(op.growsTo_apply h).classes.named?_eq_some hid'] at hnone
      cases hnone

/-- A class that has been declared in a history has the declared type parameters in the end. -/
theorem arity_run {d : ClassDecl} {id : ClassId} {ops : List Operation}
    (hd : (d, id) ∈ h.accepted ops) : (h.run ops).classes.arity id = d.typeParams.length := by
  induction ops generalizing h with
  | nil => cases hd
  | cons op ops ih =>
    rcases List.mem_append.mp hd with hfirst | hlater
    · rcases op.accepted_cases h with ⟨hnone, -⟩ | ⟨d', c, hone, hc, heq⟩
      · rw [hnone] at hfirst
        cases hfirst
      · rw [hone, List.mem_singleton] at hfirst
        cases hfirst
        have hget : (op.apply h).classes.get? c.id = some c := by
          rw [heq, ClassTable.get?_push, if_pos hc.index_eq]
        have hlast := ((op.apply h).growsTo_run ops).classes.get?_eq_some hget
        rw [← hc.typeParams_eq]
        exact congrArg (Option.elim · 0 ClassEntry.arity) hlast
    · exact ih hlater

/-- The classes after a sequence of operations arise by the declarations that were accepted. -/
theorem extendedBy_run (h : Hierarchy) (ops : List Operation) :
    h.classes.ExtendedBy (h.accepted ops) (h.run ops).classes where
  growsTo := (h.growsTo_run ops).classes
  named?_eq_some_iff := h.named?_run_iff ops
  named?_eq_none := named?_eq_none_of_mem_accepted
  arity_eq := arity_run

/-- **How resolved types change.**  What compiled metadata means after further operations is what it
meant before, with some unresolved names replaced by types of the classes that have been declared
under them since; such a name stays exactly if it is still missing.  So the type is the same if all
class names in the metadata were known.

**Proof sketch.** The classes arise by the accepted declarations, and a later table refines the
type.  A name that is still missing is kept wherever it occurs, and one that is found occurs no
more, since the later type fits the later table. -/
theorem Reachable.refined_resolve (hr : h.Reachable) (ops : List Operation) (b : BinaryType) :
    let before := h.classes.resolve b
    let after := (h.run ops).classes.resolve b
    before.RefinedBy (h.accepted ops) after ∧
      (∀ name, h.classes.named? name = none → ((h.run ops).classes.named? name = none ↔
        ∀ d id, (d, id) ∈ h.accepted ops → d.name ≠ name)) ∧
      (∀ d id, (d, id) ∈ h.accepted ops → h.classes.named? d.name = none ∧
        (h.run ops).classes.named? d.name = some id) ∧
      (∀ name, .unresolved name ∈ before.parts →
        (.unresolved name ∈ after.parts ↔ (h.run ops).classes.named? name = none)) ∧
      ((∀ name ∈ b.classNames, (h.classes.named? name).isSome = true) → after = before) := by
  intro before after
  have hclasses := hr.wellFormed_classes
  have hext := h.extendedBy_run ops
  have hrefined : before.RefinedBy (h.accepted ops) after :=
    ClassTable.refinedBy_resolve hclasses hext b
  refine ⟨hrefined, fun name hname => hext.named?_eq_none_iff hname, fun d id hd => ?_, ?_,
    ClassTable.resolve_eq_of_known hclasses hext.growsTo⟩
  · exact ⟨hext.named?_eq_none hd, hext.named?_eq_some_iff.mpr (.inr ⟨d, hd, rfl⟩)⟩
  · intro name hbefore
    have hname : h.classes.named? name = none :=
      hclasses.fits_of_mem_parts_resolve b _ hbefore
    constructor
    · exact fun hafter => (hr.run ops).wellFormed_classes.fits_of_mem_parts_resolve b _ hafter
    · exact fun hmissing => hrefined.mem_parts ((hext.named?_eq_none_iff hname).mp hmissing) hbefore

/-- A box of a lid becomes more precise when the lid is declared: the box in the lid, which had been
left out, appears with a star. -/
theorem boxes_refined_resolve :
    let lid : Operation := .declare { name := "Lid", typeParams := ["T"], members := .unloaded }
    let b : BinaryType := .ofClass "Box" [.ofClass "Lid" [.ofClass "Box" []]]
    let before := boxes.classes.resolve b
    let after := (boxes.run [lid]).classes.resolve b
    before = .ofClass ⟨1⟩ [.type (.unresolved "Lid")] ∧
      after = .ofClass ⟨1⟩ [.type (.ofClass ⟨2⟩ [.type (.ofClass ⟨1⟩ [.star])])] ∧
      before.RefinedBy (boxes.accepted [lid]) after ∧ .unresolved "Lid" ∉ after.parts := by
  intro lid b before after
  obtain ⟨hrefined, -, -, hsurvives, -⟩ := Reachable.refined_resolve boxes_reachable [lid] b
  have hbefore : .unresolved "Lid" ∈ before.parts := by
    decide +kernel
  have hdeclared : (boxes.run [lid]).classes.named? "Lid" ≠ none := by
    decide +kernel
  exact ⟨by decide +kernel, by decide +kernel, hrefined,
    fun hafter => hdeclared ((hsurvives "Lid" hbefore).mp hafter)⟩

end Hierarchy

end BackingFields
