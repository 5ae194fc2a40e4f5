import BackingFields.Proofs.Hierarchy.Listing

set_option relaxedAutoImplicit false
set_option autoImplicit false

/-!
# Declarations that are refused

A refused declaration adds no class, and no later declaration can tell that it was tried.  All that
it leaves behind are the texts of the fields that were accepted before the fault: none if the fault
concerns no member, those before the field at fault, or those of all fields if a method is at fault.

## Main definitions

* `BackingFields.ClassDecl.RefusedAfter` — the fields that are accepted before each kind of fault.

## Main results

* `BackingFields.ClassTable.refusedAfter_of_verdict` — a refused declaration leaves these fields.
* `BackingFields.Hierarchy.Reachable.refused_declare` — all that a refused declaration does.

## Design notes

The name of the class is interned behind its members, so a refused declaration does not intern it.
A field may have the same text, though, and then the text is known if this field was accepted.
-/

namespace BackingFields

/-- A declaration is refused for a fault after the fields with some texts have been accepted. -/
inductive ClassDecl.RefusedAfter (d : ClassDecl) : List String → DeclarationError → Prop where
  | className : RefusedAfter d [] (.invalidClassName d.name)
  | typeParam (param : String) : RefusedAfter d [] (.invalidTypeParam d.name param)
  | duplicateClass : RefusedAfter d [] (.duplicateClass d.name)
  | superclass (id : ClassId) : RefusedAfter d [] (.unknownSuperclass d.name id)
  | noRoom : RefusedAfter d [] (.tooManyClasses d.name)
  /-- The first field that is invalid or a repetition is invalid. -/
  | invalidField {before after : List String} {text : String}
      (split : d.members.fieldNames = before ++ text :: after)
      (valid : ∀ s ∈ before, d.members.isFieldName s = true) (distinct : before.Nodup)
      (invalid : d.members.isFieldName text = false) :
      RefusedAfter d before (.invalidFieldName d.name text)
  /-- The first field that is invalid or a repetition repeats an earlier one. -/
  | duplicateField {before after : List String} {text : String}
      (split : d.members.fieldNames = before ++ text :: after)
      (valid : ∀ s ∈ before, d.members.isFieldName s = true) (distinct : before.Nodup)
      (repeated : text ∈ before) :
      RefusedAfter d before (.duplicateField d.name text)
  /-- No field is invalid or a repetition, but a method is invalid. -/
  | invalidMethod {method : Method}
      (valid : ∀ s ∈ d.members.fieldNames, d.members.isFieldName s = true)
      (distinct : d.members.fieldNames.Nodup) (mem : method ∈ d.members.methods)
      (invalid : Text.isMemberName method.name = false) :
      RefusedAfter d d.members.fieldNames (.invalidMethodName d.name method.name)

/-- A check of a declaration that concerns no member fails before any field is accepted. -/
theorem ClassTable.refusedAfter_of_checkHead {t : ClassTable} {d : ClassDecl} {e : DeclarationError}
    (h : t.checkHead d = .error e) : d.RefusedAfter [] e := by
  unfold checkHead at h
  split at h
  · cases h
    exact .className
  split at h
  · cases h
    exact .typeParam _
  dsimp only at h
  split at h
  · cases h
    exact .duplicateClass
  split at h
  · cases h
    exact .superclass _
  split at h
  · cases h
    exact .noRoom
  · cases h

/-- The members of a declaration are refused after the fields that the scan has accepted. -/
theorem Members.refusedAfter_of_fault? {d : ClassDecl} {e : DeclarationError}
    (h : d.members.fault? d.name = some e) : d.RefusedAfter d.members.scan.1 e := by
  have hspec := sift_spec d.members.isFieldName [] d.members.fieldNames
  rw [← scan] at hspec
  obtain ⟨haccepted, hdistinct, hnone, hsome⟩ := hspec
  have hvalid : ∀ s ∈ d.members.scan.1, d.members.isFieldName s = true :=
    fun s hs => (haccepted s hs).1
  unfold fault? at h
  cases hscan : d.members.scan.2 with
  | some s =>
    rw [hscan] at h
    obtain ⟨⟨rest, hsplit⟩, hrepeated⟩ := hsome s hscan
    rw [Option.map_some, Option.some_or, Option.some_inj] at h
    subst h
    unfold DeclarationError.ofField
    cases hs : d.members.isFieldName s with
    | false => exact .invalidField hsplit hvalid hdistinct hs
    | true =>
      rcases hrepeated hs with hmem | hmem
      · cases hmem
      · exact .duplicateField hsplit hvalid hdistinct hmem
  | none =>
    rw [hscan] at h
    rw [Option.map_none, Option.none_or, Option.map_eq_some_iff] at h
    obtain ⟨method, hmethod, rfl⟩ := h
    rw [← hnone hscan] at hvalid hdistinct ⊢
    have hinvalid := List.find?_some hmethod
    exact .invalidMethod hvalid hdistinct (List.mem_of_find?_eq_some hmethod)
      (by simpa using hinvalid)

/-- A refused declaration leaves the fields that were accepted before its fault. -/
theorem ClassTable.refusedAfter_of_verdict {t : ClassTable} {d : ClassDecl} {e : DeclarationError}
    (h : t.verdict d = .error e) : d.RefusedAfter (t.residue d) e := by
  unfold verdict at h
  unfold residue
  cases hhead : t.checkHead d with
  | error e' =>
    rw [hhead] at h
    cases h
    exact refusedAfter_of_checkHead hhead
  | ok superclass =>
    rw [hhead] at h
    have h : (d.members.fault? d.name).elim (Except.ok (⟨t.size.toUInt32⟩ : ClassId)) Except.error =
      Except.error e := h
    cases hfault : d.members.fault? d.name with
    | none =>
      rw [hfault] at h
      cases h
    | some e' =>
      rw [hfault] at h
      cases h
      dsimp only
      rw [Option.isNone_some, if_neg Bool.false_ne_true, List.append_nil]
      exact Members.refusedAfter_of_fault? hfault

namespace Hierarchy

variable {h : Hierarchy} {d : ClassDecl} {e : DeclarationError}

/-- **What a refused declaration does.**  It leaves the classes as they are, and stores the texts of
the fields that it had accepted before the fault, as far as they are new, behind the others.  So the
class name is known afterwards only if it was known before or is the text of such a field.  Whatever
a host asks from then on, every declaration has the outcome that it would have had without the
refused one.

**Proof sketch.** A declaration ends with its verdict and leaves its residue.  With the same classes
the hierarchy lists the same declarations as before, so the same operations accept the same
declarations on top of it, and hierarchies that list the same declarations pass the same verdict. -/
theorem Reachable.refused_declare (hr : h.Reachable) (he : (h.declare d).1 = .error e)
    (hsize : (h.declare d).2.names.size < UInt32.size) :
    let after := (h.declare d).2
    after.classes = h.classes ∧
      (∃ accepted, d.RefusedAfter accepted e ∧ after.names = h.names.internAll accepted ∧
        after.names.texts.toList = h.names.texts.toList ++ h.names.newTexts accepted ∧
        (after.names.find? d.name = none ↔ h.names.find? d.name = none ∧ d.name ∉ accepted)) ∧
      ∀ (ops : List Operation) (d' : ClassDecl),
        ((h.run ops).declare d').2.names.size < UInt32.size →
        ((after.run ops).declare d').2.names.size < UInt32.size →
        ((after.run ops).declare d').1 = ((h.run ops).declare d').1 := by
  intro after
  have hclasses : after.classes = h.classes := classes_declare_of_error he
  have hgrow : h.names.GrowsTo after.names := (Operation.declare d).names_apply h
  have hn := (hr.wellNamed (Nat.le_trans hgrow.size_le (Nat.le_of_lt hsize))).consistent
  obtain ⟨hverdict, hresidue⟩ := declare_eq hn (Nat.le_of_lt hsize)
  refine ⟨hclasses, ⟨h.classes.residue d, ?_, hresidue, ?_, ?_⟩, ?_⟩
  · rw [he] at hverdict
    exact ClassTable.refusedAfter_of_verdict hverdict.symm
  · rw [← NameTable.toList_texts_internAll, ← hresidue]
  · rw [← NameTable.find?_internAll_eq_none_iff, ← hresidue]
  · intro ops d' hlt hlt'
    have hr' : after.Reachable := hr.apply (.declare d)
    obtain ⟨rootName, decls, hl⟩ := hr.exists_lists
    have hl' : after.Lists rootName decls := by
      have hnone : (Operation.declare d).accepted h = [] := by
        simp [Operation.accepted, he]
      have := hl.apply (.declare d)
      rwa [hnone, List.map_nil, List.append_nil] at this
    have hle := Nat.le_trans ((Operation.declare d').names_apply (h.run ops)).size_le
      (Nat.le_of_lt hlt)
    have hle' := Nat.le_trans ((Operation.declare d').names_apply (after.run ops)).size_le
      (Nat.le_of_lt hlt')
    have haccepted := hl.accepted_eq hl' hr hr' ops hle hle'
    have hlater := hl'.run ops
    rw [haccepted] at hlater
    have ha := (hl.run ops).alike hlater (hr.run ops).wellFormed_classes
      (hr'.run ops).wellFormed_classes
    exact ha.fst_declare_eq ((hr.run ops).wellNamed hle).consistent
      ((hr'.run ops).wellNamed hle').consistent (Nat.le_of_lt hlt) (Nat.le_of_lt hlt')

/-- A ring that has two fields of one name is refused after its first two fields.  Of these only the
second is new, and the ring that is declared next gets the handle that it would have had anyway. -/
theorem shapes_refused_declare :
    let faulty : ClassDecl :=
      { name := "Ring"
        members := .binary (["radius", "hole", "hole"].map fun s => ⟨s, .primitive .int, []⟩) [] }
    let ring : ClassDecl := { name := "Ring", superclass := some ⟨1⟩, members := .unloaded }
    let after := (shapes.declare faulty).2
    (shapes.declare faulty).1 = .error (.duplicateField "Ring" "hole") ∧
      after.classes = shapes.classes ∧
      (∃ accepted, faulty.RefusedAfter accepted (.duplicateField "Ring" "hole") ∧
        after.names = shapes.names.internAll accepted) ∧
      after.names.texts.toList = shapes.names.texts.toList ++ ["hole"] ∧
      (after.declare ring).1 = (shapes.declare ring).1 ∧ (shapes.declare ring).1 = .ok ⟨3⟩ := by
  intro faulty ring after
  have he : (shapes.declare faulty).1 = .error (.duplicateField "Ring" "hole") := by decide +kernel
  obtain ⟨hclasses, ⟨accepted, hrefused, hnames, -⟩, hlater⟩ :=
    Reachable.refused_declare shapes_reachable he (by decide +kernel)
  exact ⟨he, hclasses, ⟨accepted, hrefused, hnames⟩, by decide +kernel,
    hlater [] ring (by decide +kernel) (by decide +kernel), by decide +kernel⟩

end Hierarchy

end BackingFields
