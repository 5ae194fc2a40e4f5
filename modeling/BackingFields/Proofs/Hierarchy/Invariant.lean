import BackingFields.Proofs.Class.WellFormed
import BackingFields.Proofs.Hierarchy.History

set_option relaxedAutoImplicit false
set_option autoImplicit false

/-!
# What holds in every hierarchy

The classes, the index from qualified names to handles and the table of names stay in step under
every operation, whether it succeeds or fails.

## Main definitions

* `BackingFields.ClassEntry.NamedBy` — the name of a class and those of its fields have the right
  texts.
* `BackingFields.Hierarchy.WellNamed` — this holds of all classes.

## Main results

* `BackingFields.Hierarchy.Reachable.wellFormed_classes` — the classes of every hierarchy that a
  host can come to are well-formed.
* `BackingFields.Hierarchy.Reachable.wellNamed` — so are its names, while there are few enough.
* `BackingFields.Hierarchy.Reachable.invariant` — both, with what follows for superclasses,
  qualified names and flags.

## Design notes

Handles and superclasses are right whatever the number of names is.  The texts are not: a name is an
index of 32 bits, which is why the two parts of the invariant are kept apart.
-/

namespace BackingFields

/-! ## Names -/

/-- The name of a class has the text of its qualified name, and the name of each field a text that
the representation of the class allows. -/
structure ClassEntry.NamedBy (names : NameTable) (c : ClassEntry) : Prop where
  text?_name : names.text? c.name = some c.qualifiedName
  text?_fieldName : ∀ n ∈ c.members.fieldNames,
    ∃ s, names.text? n = some s ∧ c.members.isFieldName s = true

/-- The names of a class keep their texts. -/
theorem ClassEntry.NamedBy.growsTo {names names' : NameTable} {c : ClassEntry}
    (h : c.NamedBy names) (hgrow : names.GrowsTo names') : c.NamedBy names' where
  text?_name := hgrow.text?_eq_some h.text?_name
  text?_fieldName n hn := by
    obtain ⟨s, hs, hvalid⟩ := h.text?_fieldName n hn
    exact ⟨s, hgrow.text?_eq_some hs, hvalid⟩

/-- The names of a class that a declaration adds have the declared texts. -/
theorem ClassDecl.AcceptedAs.namedBy {d : ClassDecl} {t : ClassTable} {names : NameTable}
    {c : ClassEntry} (h : d.AcceptedAs t names c) (hnames : names.Consistent) :
    c.NamedBy names where
  text?_name := by
    rw [h.qualifiedName_eq]
    exact (hnames _ _).mp h.find?_name
  text?_fieldName n hn := by
    obtain ⟨s, hs, hvalid⟩ := h.members_namedIn.exists_text n hn
    exact ⟨s, (hnames _ _).mp hs, hvalid⟩

namespace Hierarchy

/-- The names of a hierarchy belong to the texts of its classes and their fields. -/
structure WellNamed (h : Hierarchy) : Prop where
  /-- Names and texts are inverse to each other. -/
  consistent : h.names.Consistent
  /-- Every class and every field has the right name. -/
  namedBy_entry : ∀ {i : Nat} {c : ClassEntry}, h.classes.entries[i]? = some c →
    c.NamedBy h.names

variable {h : Hierarchy}

/-- The hierarchy that holds a root class alone is well-named. -/
theorem wellNamed_ofRoot (rootName : String) : (ofRoot rootName).WellNamed := by
  have hconsistent : (ofRoot rootName).names.Consistent :=
    NameTable.consistent_empty.intern (by decide) rootName
  refine ⟨hconsistent, fun {i c} hc => ?_⟩
  have hc : #[ClassTable.rootEntry (NameTable.empty.intern rootName).1 rootName][i]? = some c := hc
  simp only [List.getElem?_toArray, List.getElem?_singleton] at hc
  split at hc
  · cases hc
    exact ⟨(hconsistent _ _).mp (NameTable.empty.find?_intern_self rootName), by
      simp [ClassTable.rootEntry, Members.fieldNames]⟩
  · cases hc

/-- An operation keeps a hierarchy well-named while there are at most `2 ^ 32` names. -/
theorem WellNamed.apply (hn : h.WellNamed) (op : Operation)
    (hsize : (op.apply h).names.size ≤ UInt32.size) : (op.apply h).WellNamed := by
  have hgrow := op.names_apply h
  have hconsistent := hgrow.consistent hn.consistent hsize
  refine ⟨hconsistent, ?_⟩
  rcases op.classes_apply h with heq | ⟨d, c, hc, heq⟩
  · rw [heq]
    exact fun hc => (hn.namedBy_entry hc).growsTo hgrow
  · rw [heq]
    exact ClassTable.forall_entries_push (P := fun _ c => c.NamedBy (op.apply h).names)
      (fun _ _ hc => (hn.namedBy_entry hc).growsTo hgrow) (hc.namedBy hconsistent) _ _

/-- The classes of every hierarchy that a host can come to are well-formed. -/
theorem Reachable.wellFormed_classes (hr : h.Reachable) : h.classes.WellFormed := by
  induction hr with
  | ofRoot rootName => exact ClassTable.wellFormed_ofRoot _ rootName
  | @apply h _ op ih =>
    rcases op.classes_apply h with heq | ⟨d, c, hc, heq⟩
    · rwa [heq]
    · rw [heq]
      exact ih.push hc

/-- Every hierarchy that a host can come to is well-named while there are at most `2 ^ 32` names. -/
theorem Reachable.wellNamed (hr : h.Reachable) (hsize : h.names.size ≤ UInt32.size) :
    h.WellNamed := by
  induction hr with
  | ofRoot rootName => exact wellNamed_ofRoot rootName
  | @apply h _ op ih => exact (ih (Nat.le_trans (op.names_apply h).size_le hsize)).apply op hsize

/-! ## The invariant -/

/-- **The invariant of a hierarchy.**  Classes and names fit together; only the root, which comes
first, has no superclass; no two classes share a qualified name; and the flags of a compiled field
are those that its modifiers set one by one, so that an enum entry is static and final.

**Proof sketch.** The first two parts are what every operation keeps.  The root has no superclass by
its shape and any other class has one.  Two classes of one name are both found under it, hence at
one position. -/
theorem Reachable.invariant (hr : h.Reachable) (hsize : h.names.size < UInt32.size) :
    h.classes.WellFormed ∧ h.WellNamed ∧
      (∀ (i : Nat) (c : ClassEntry), h.classes.entries[i]? = some c →
        (c.superclass = none ↔ i = 0)) ∧
      (∀ (i j : Nat) (c c' : ClassEntry), h.classes.entries[i]? = some c →
        h.classes.entries[j]? = some c' → c.qualifiedName = c'.qualifiedName → i = j) ∧
      (∀ (i : Nat) (c : ClassEntry) (fields : List (BinaryField Name)) (methods : List Method),
        h.classes.entries[i]? = some c → c.members = .binary fields methods → ∀ f ∈ fields,
        f.flags = f.modifiers.foldl FieldFlags.mark .plain ∧
          (f.isEnumEntry = true → f.isStatic = true ∧ f.isFinal = true)) := by
  have hclasses := hr.wellFormed_classes
  refine ⟨hclasses, hr.wellNamed (Nat.le_of_lt hsize), fun i c hc => ⟨fun hnone => ?_, ?_⟩,
    fun i j c c' hc hc' hname => ?_, fun i c fields methods _ _ f _ => ⟨f.flags_eq_foldl,
    BinaryField.isStatic_and_isFinal_of_isEnumEntry⟩⟩
  · by_contra hi
    obtain ⟨s, hs, -⟩ := hclasses.superclass_lt hc (Nat.pos_of_ne_zero hi)
    rw [hs] at hnone
    cases hnone
  · rintro rfl
    obtain ⟨name, qualifiedName, hroot⟩ := hclasses.root
    rw [hroot] at hc
    cases hc
    rfl
  · have hfound := hclasses.named?_of_entry hc
    rw [hname, hclasses.named?_of_entry hc'] at hfound
    rw [← hclasses.index_eq hc, ← hclasses.index_eq hc', Option.some_inj.mp hfound]

/-- The example hierarchy satisfies the invariant, although a declaration of its history fails after
having interned a field. -/
theorem shapes_invariant : shapes.names.size < UInt32.size ∧ shapes.classes.WellFormed ∧
    shapes.WellNamed := by
  have hsize : shapes.names.size < UInt32.size := by decide +kernel
  obtain ⟨hclasses, hnames, -⟩ := Reachable.invariant shapes_reachable hsize
  exact ⟨hsize, hclasses, hnames⟩

end Hierarchy

end BackingFields
