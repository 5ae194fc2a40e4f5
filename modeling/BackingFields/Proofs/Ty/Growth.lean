import BackingFields.Proofs.Class.WellFormed
import BackingFields.Proofs.Ty.Projection
import Mathlib.Data.List.Nodup

set_option relaxedAutoImplicit false
set_option autoImplicit false

/-!
# How the type of a compiled field changes

The type of a compiled field is looked up anew by every query, and what it means up to its type
arguments depends on the classes in one way only: a class that was missing may have been declared
since.

## Main definitions

* `BackingFields.ClassTable.DeclaredSince` — a field refers to a class that has been declared since.
* `BackingFields.ClassTable.RetypedSince` — what becomes of the type of a field.

## Main results

* `BackingFields.ClassTable.retypedSince_starProject` — this is what becomes of it.
-/

namespace BackingFields.ClassTable

variable {t t' : ClassTable}

/-! ## Projected types -/

/-- Up to type arguments, a type that is no class reference means the same in all tables. -/
theorem starProject_resolve_congr (t t' : ClassTable) {b : BinaryType}
    (hb : ∀ name args, b ≠ .ofClass name args) :
    (t.resolve b).starProject = (t'.resolve b).starProject := by
  cases b with
  | ofClass name args => exact absurd rfl (hb name args)
  | array elem =>
    rw [starProject_resolve_array, starProject_resolve_array,
      starElement_resolveArg_congr t t' fun _ => Iff.rfl]
  | _ => rfl

/-- A class keeps the number of its type parameters. -/
theorem GrowsTo.arity_eq (h : t.GrowsTo t') {id : ClassId} {c : ClassEntry}
    (hc : t.get? id = some c) : t'.arity id = t.arity id := by
  rw [arity, arity, hc, h.get?_eq_some hc]

/-! ## Types of fields -/

/-- A compiled field of a table refers to a class that the table lacks and that a later one has
under this handle. -/
def DeclaredSince (t t' : ClassTable) (owner : ClassId) (field : Name) (name : String)
    (id : ClassId) : Prop :=
  ∃ (c : ClassEntry) (fields : List (BinaryField Name)) (methods : List Method)
    (f : BinaryField Name) (args : List BinaryType), t.get? owner = some c ∧
      c.members = .binary fields methods ∧ f ∈ fields ∧ f.name = field ∧
      f.ty = .ofClass name args ∧ t.named? name = none ∧ t'.named? name = some id

/-- What becomes of the type of a field from one table to a later one: a reference to a class that
has been declared since is resolved, with a star for each type parameter, and any other type stays
as it is. -/
inductive RetypedSince (t t' : ClassTable) (owner : ClassId) (field : Name) : Ty → Ty → Prop
  | same (ty : Ty) (unchanged : ∀ name id, ¬ t.DeclaredSince t' owner field name id) :
      RetypedSince t t' owner field ty ty
  | resolved {name : String} {id : ClassId} (since : t.DeclaredSince t' owner field name id) :
      RetypedSince t t' owner field (.unresolved name)
        (.ofClass id (List.replicate (t'.arity id) .star))

/-- The fields of a source class keep their types. -/
theorem retypedSince_of_source {owner : ClassId} {c : ClassEntry}
    {fields : List (SourceField Name)} (hc : t.get? owner = some c)
    (hm : c.members = .source fields) (field : Name) (ty : Ty) :
    t.RetypedSince t' owner field ty ty := by
  refine .same ty fun name id ⟨c', fields', methods, f, args, hc', hm', _⟩ => ?_
  rw [hc] at hc'
  cases hc'
  rw [hm] at hm'
  cases hm'

/-- A field of a compiled class refers to a class that has been declared since exactly if its type
is a reference to this class, which was missing before and is known now.

**Proof sketch.** A field with the same name in the same class is the same field. -/
theorem WellFormed.declaredSince_iff (ht : t.WellFormed) {owner : ClassId} {c : ClassEntry}
    {fields : List (BinaryField Name)} {methods : List Method} {f : BinaryField Name}
    (hc : t.get? owner = some c) (hm : c.members = .binary fields methods) (hf : f ∈ fields)
    {name : String} {id : ClassId} :
    t.DeclaredSince t' owner f.name name id ↔
      (∃ args, f.ty = .ofClass name args) ∧ t.named? name = none ∧ t'.named? name = some id := by
  constructor
  · rintro ⟨c', fields', methods', f', args, hc', hm', hf', hname, hty, hmissing, hknown⟩
    obtain rfl : c = c' := Option.some.inj (hc.symm.trans hc')
    rw [hm] at hm'
    cases hm'
    have hnodup := (ht.wellFormed_entry hc).nodup_fieldNames
    rw [hm, Members.fieldNames] at hnodup
    obtain rfl := List.inj_on_of_nodup_map hnodup hf' hf hname
    exact ⟨⟨args, hty⟩, hmissing, hknown⟩
  · rintro ⟨⟨args, hty⟩, hmissing, hknown⟩
    exact ⟨c, fields, methods, f, args, hc, hm, hf, rfl, hty, hmissing, hknown⟩

/-- The projected type of a compiled field changes only if its class has been declared since.

**Proof sketch.** If the class that the field refers to was known before, it has kept its handle and
its type parameters.  If it is missing still, the name stays. -/
theorem retypedSince_starProject (ht : t.WellFormed) (hgrow : t.GrowsTo t') {owner : ClassId}
    {c : ClassEntry} {fields : List (BinaryField Name)} {methods : List Method}
    {f : BinaryField Name} (hc : t.get? owner = some c) (hm : c.members = .binary fields methods)
    (hf : f ∈ fields) :
    t.RetypedSince t' owner f.name (t.resolve f.ty).starProject (t'.resolve f.ty).starProject := by
  by_cases hclass : ∃ name args, f.ty = .ofClass name args
  · obtain ⟨name, args, hty⟩ := hclass
    have hself {name' : String} {id : ClassId} (h : t.DeclaredSince t' owner f.name name' id) :
        t.named? name = none ∧ t'.named? name = some id := by
      obtain ⟨⟨args', hty'⟩, h⟩ := (ht.declaredSince_iff hc hm hf).mp h
      rw [hty] at hty'
      cases hty'
      exact h
    rw [hty, starProject_resolve_ofClass, starProject_resolve_ofClass]
    cases hold : t.named? name with
    | some id =>
      obtain ⟨c', hc', -⟩ := ht.named?_eq_some_iff.mp hold
      rw [hgrow.named?_eq_some hold]
      dsimp only
      rw [hgrow.arity_eq hc']
      refine .same _ fun name' id' h => ?_
      rw [hold] at hself
      cases (hself h).1
    | none =>
      cases hnew : t'.named? name with
      | none =>
        refine .same _ fun name' id' h => ?_
        rw [hnew] at hself
        cases (hself h).2
      | some id => exact .resolved ((ht.declaredSince_iff hc hm hf).mpr ⟨⟨args, hty⟩, hold, hnew⟩)
  · rw [starProject_resolve_congr t t' fun name args hty => hclass ⟨name, args, hty⟩]
    refine .same _ fun name id h => ?_
    obtain ⟨⟨args, hty⟩, -⟩ := (ht.declaredSince_iff hc hm hf).mp h
    exact hclass ⟨name, args, hty⟩

end BackingFields.ClassTable
