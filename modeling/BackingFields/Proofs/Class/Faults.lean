import BackingFields.Proofs.Class.Verdict
import BackingFields.Proofs.Class.WellFormed

set_option relaxedAutoImplicit false
set_option autoImplicit false

/-!
# The faults of a declaration

A declaration may break several rules at once, and only one of its faults is reported.  Here all of
them are listed, each by the texts of the declaration and the classes of the table alone; the one
that is reported is the first of the list.

## Main definitions

* `BackingFields.Members.fieldFaults`, `BackingFields.Members.methodFaults` — the faults of the
  members of a declaration, from left to right.
* `BackingFields.ClassDecl.faults` — all faults of a declaration, in the order of the checks.
* `BackingFields.ClassDecl.Admissible` — the declaration keeps every rule.

## Main results

* `BackingFields.ClassDecl.verdict_eq` — the verdict is the first fault, if there is any.
* `BackingFields.ClassDecl.faults_eq_nil_iff` — a declaration without faults keeps every rule.

## Design notes

The rules speak of the classes in the table, not of its index of qualified names, and compare fields
by their texts, not by the names that these get.
-/

namespace BackingFields

/-! ## Members -/

namespace Members

/-- What is wrong with a field behind some others: it is invalid, or else it repeats one of them. -/
def fieldFault? (className : String) (isValid : String → Bool) (earlier : List String)
    (text : String) : Option DeclarationError :=
  if !isValid text then some (.invalidFieldName className text)
  else if text ∈ earlier then some (.duplicateField className text)
  else none

/-- The faults of the fields, each compared with all fields before it. -/
def fieldFaults (className : String) (m : Members String) : List DeclarationError :=
  m.fieldNames.zipIdx.filterMap fun (text, i) =>
    fieldFault? className m.isFieldName (m.fieldNames.take i) text

/-- The faults of the methods. -/
def methodFaults (className : String) (m : Members String) : List DeclarationError :=
  (m.methods.filter fun method => !Text.isMemberName method.name).map fun method =>
    .invalidMethodName className method.name

/-- The first fault of some fields behind others is that of the field which the scan refuses, if the
scan has seen the others.

**Proof sketch.** Induction on the fields.  The fields before the first fault are those that the
scan accepts, so it has seen just them. -/
theorem head?_filterMap_fieldFault? (className : String) (isValid : String → Bool)
    {earlier seen : List String} (hseen : ∀ s, s ∈ seen ↔ s ∈ earlier) (texts : List String) :
    ((texts.zipIdx earlier.length).filterMap fun (text, i) =>
      fieldFault? className isValid ((earlier ++ texts).take i) text).head? =
        (sift isValid seen texts).2.map (.ofField className isValid) := by
  induction texts generalizing earlier seen with
  | nil => rfl
  | cons s texts ih =>
    have hsplit : earlier ++ s :: texts = (earlier ++ [s]) ++ texts := by simp
    have hrest := @ih (earlier ++ [s]) (s :: seen) (by simp [hseen, or_comm])
    rw [← hsplit, List.length_append, List.length_singleton] at hrest
    rw [List.zipIdx_cons, List.filterMap_cons]
    dsimp only
    rw [List.take_left, sift]
    by_cases hs : isValid s = true ∧ s ∉ earlier
    · have hfine : fieldFault? className isValid earlier s = none := by
        simp [fieldFault?, hs]
      have haccepted : (isValid s && !seen.contains s) = true := by
        simpa [hseen] using hs
      rw [hfine, if_pos haccepted]
      exact hrest
    · have hfault :
          fieldFault? className isValid earlier s = some (.ofField className isValid s) := by
        cases hvalid : isValid s <;> simp_all [fieldFault?, DeclarationError.ofField]
      have hrefused : ¬(isValid s && !seen.contains s) = true := by
        simpa [hseen] using hs
      rw [hfault, if_neg hrefused]
      rfl

/-- The first fault among the fields is that of the field which the scan refuses. -/
theorem head?_fieldFaults (className : String) (m : Members String) :
    (m.fieldFaults className).head? = m.scan.2.map (.ofField className m.isFieldName) :=
  @head?_filterMap_fieldFault? className m.isFieldName [] [] (fun _ => Iff.rfl) m.fieldNames

/-- The first fault among the members is the first of all of them. -/
theorem fault?_eq_head? (className : String) (m : Members String) :
    m.fault? className = (m.fieldFaults className ++ m.methodFaults className).head? := by
  rw [List.head?_append, head?_fieldFaults, methodFaults, List.head?_map, List.head?_filter]
  rfl

/-- The scan refuses no field exactly if all are valid and distinct, and then it accepts all. -/
theorem scan_refuses_none_iff (m : Members String) :
    (m.scan.2 = none ↔ (∀ s ∈ m.fieldNames, m.isFieldName s = true) ∧ m.fieldNames.Nodup) ∧
      (m.scan.2 = none → m.scan.1 = m.fieldNames) := by
  have hspec := sift_spec m.isFieldName [] m.fieldNames
  rw [← scan] at hspec
  obtain ⟨haccepted, hdistinct, hnone, hsome⟩ := hspec
  refine ⟨⟨fun hscan => ?_, ?_⟩, fun hscan => (hnone hscan).symm⟩
  · rw [hnone hscan]
    exact ⟨fun s hs => (haccepted s hs).1, hdistinct⟩
  · rintro ⟨hvalid, hnodup⟩
    by_contra hscan
    obtain ⟨s, hs⟩ := Option.ne_none_iff_exists'.mp hscan
    obtain ⟨⟨rest, hsplit⟩, hrepeated⟩ := hsome s hs
    rw [hsplit] at hvalid hnodup
    have hmem : s ∈ m.scan.1 := by
      simpa using hrepeated (hvalid s (by simp))
    exact (List.nodup_append.mp hnodup).2.2 s hmem s List.mem_cons_self rfl

/-- There is no fault among the members exactly if the fields are valid and distinct and the methods
are valid. -/
theorem fault?_eq_none_iff (className : String) (m : Members String) :
    m.fault? className = none ↔
      (∀ s ∈ m.fieldNames, m.isFieldName s = true) ∧ m.fieldNames.Nodup ∧
        ∀ method ∈ m.methods, Text.isMemberName method.name = true := by
  rw [fault?, Option.or_eq_none_iff, Option.map_eq_none_iff, Option.map_eq_none_iff,
    m.scan_refuses_none_iff.1, List.find?_eq_none, and_assoc]
  simp

end Members

/-! ## Declarations -/

/-- Whether a class of a table has a qualified name. -/
def ClassTable.declares (t : ClassTable) (qualifiedName : String) : Bool :=
  t.entries.any fun c => c.qualifiedName == qualifiedName

/-- A table declares the qualified names of its classes. -/
theorem ClassTable.declares_iff {t : ClassTable} {qualifiedName : String} :
    t.declares qualifiedName = true ↔ ∃ c ∈ t.entries, c.qualifiedName = qualifiedName := by
  rw [declares, Array.any_eq_true']
  simp only [beq_iff_eq]

/-- The index of qualified names knows exactly the names of the classes. -/
theorem ClassTable.WellFormed.isSome_named? {t : ClassTable} (ht : t.WellFormed)
    (qualifiedName : String) : (t.named? qualifiedName).isSome = t.declares qualifiedName := by
  rw [Bool.eq_iff_iff, declares_iff, Option.isSome_iff_exists]
  constructor
  · rintro ⟨id, hid⟩
    obtain ⟨c, hc, hname⟩ := ht.named?_eq_some_iff.mp hid
    exact ⟨c, Array.mem_of_getElem? hc, hname⟩
  · rintro ⟨c, hc, rfl⟩
    obtain ⟨i, hi⟩ := Array.getElem?_of_mem hc
    exact ⟨c.id, ht.named?_of_entry hi⟩

namespace ClassDecl

variable {t : ClassTable} {d : ClassDecl}

/-- The faults of a declaration that concern no member. -/
def headFaults (t : ClassTable) (d : ClassDecl) : List DeclarationError :=
  (if Text.isQualifiedIdentifier d.name then [] else [.invalidClassName d.name]) ++
    (d.typeParams.filter fun p => !Text.isIdentifier p).map (.invalidTypeParam d.name) ++
    (if t.declares d.name then [.duplicateClass d.name] else []) ++
    (if (t.get? (d.superclass.getD .root)).isSome then []
      else [.unknownSuperclass d.name (d.superclass.getD .root)])

/-- All faults of a declaration, in the order of the checks. -/
def faults (t : ClassTable) (d : ClassDecl) : List DeclarationError :=
  d.headFaults t ++ (d.members.fieldFaults d.name ++ d.members.methodFaults d.name)

/-- A declaration keeps every rule. -/
structure Admissible (t : ClassTable) (d : ClassDecl) : Prop where
  /-- The class name is a path of identifiers. -/
  isQualified : Text.isQualifiedIdentifier d.name = true
  /-- No class has the name yet. -/
  isFree : ∀ c ∈ t.entries, c.qualifiedName ≠ d.name
  /-- Every type parameter is an identifier. -/
  isIdentifier_typeParams : ∀ p ∈ d.typeParams, Text.isIdentifier p = true
  /-- The superclass, or else the root, is in the table. -/
  knows_superclass : ∃ c, t.get? (d.superclass.getD .root) = some c
  /-- Every field has a name that the representation allows. -/
  isFieldName_fields : ∀ s ∈ d.members.fieldNames, d.members.isFieldName s = true
  /-- No two fields have the same name. -/
  nodup_fieldNames : d.members.fieldNames.Nodup
  /-- Every method has the name of a member; several may have the same. -/
  isMemberName_methods : ∀ m ∈ d.members.methods, Text.isMemberName m.name = true

/-- The checks that concern no member fail with the first fault that concerns none. -/
theorem checkHead_eq (ht : t.WellFormed) (hsize : t.size < UInt32.size) (d : ClassDecl) :
    t.checkHead d = ((d.headFaults t).head?).elim (.ok (d.superclass.getD .root)) .error := by
  have hroom : ¬ UInt32.size ≤ t.size := by omega
  unfold ClassTable.checkHead
  rw [headFaults, List.head?_append, List.head?_append, List.head?_append, List.head?_map,
    List.head?_filter, ht.isSome_named?]
  dsimp only
  rw [if_neg hroom]
  cases Text.isQualifiedIdentifier d.name with
  | false => rfl
  | true =>
    cases d.typeParams.find? fun p => !Text.isIdentifier p with
    | some p => rfl
    | none =>
      cases t.declares d.name with
      | true => rfl
      | false => cases t.get? (d.superclass.getD .root) <;> rfl

/-- The verdict on a declaration is its first fault, or the next handle if it has none. -/
theorem verdict_eq (ht : t.WellFormed) (hsize : t.size < UInt32.size) (d : ClassDecl) :
    t.verdict d = ((d.faults t).head?).elim (.ok ⟨t.size.toUInt32⟩) .error := by
  rw [ClassTable.verdict, checkHead_eq ht hsize, faults, List.head?_append,
    Members.fault?_eq_head?]
  cases (d.headFaults t).head? <;> rfl

/-- An accepted declaration interns the texts of all its fields and, behind them, its name. -/
theorem residue_eq_of_verdict_eq_ok {id : ClassId} (h : t.verdict d = .ok id) :
    t.residue d = d.members.fieldNames ++ [d.name] := by
  unfold ClassTable.verdict at h
  unfold ClassTable.residue
  cases hhead : t.checkHead d with
  | error e =>
    rw [hhead] at h
    cases h
  | ok superclass =>
    rw [hhead] at h
    cases hfault : d.members.fault? d.name with
    | some e =>
      rw [hfault] at h
      cases h
    | none =>
      obtain ⟨hvalid, hnodup, -⟩ := (d.members.fault?_eq_none_iff d.name).mp hfault
      have hscan := d.members.scan_refuses_none_iff.1.mpr ⟨hvalid, hnodup⟩
      dsimp only
      rw [Option.isNone_none, if_pos rfl, d.members.scan_refuses_none_iff.2 hscan]

/-- A declaration without faults keeps every rule, and one with faults breaks some. -/
theorem faults_eq_nil_iff : d.faults t = [] ↔ d.Admissible t := by
  have hhead : d.headFaults t = [] ↔ Text.isQualifiedIdentifier d.name = true ∧
      (∀ p ∈ d.typeParams, Text.isIdentifier p = true) ∧
      (∀ c ∈ t.entries, c.qualifiedName ≠ d.name) ∧
      ∃ c, t.get? (d.superclass.getD .root) = some c := by
    simp [headFaults, ClassTable.declares_iff, Option.isSome_iff_exists]
  rw [faults, List.append_eq_nil_iff, hhead, ← List.head?_eq_none_iff, ← Members.fault?_eq_head?,
    Members.fault?_eq_none_iff]
  constructor
  · rintro ⟨⟨hqualified, hparams, hfree, hsuper⟩, hvalid, hdistinct, hmethods⟩
    exact ⟨hqualified, hfree, hparams, hsuper, hvalid, hdistinct, hmethods⟩
  · rintro ⟨hqualified, hfree, hparams, hsuper, hvalid, hdistinct, hmethods⟩
    exact ⟨⟨hqualified, hparams, hfree, hsuper⟩, hvalid, hdistinct, hmethods⟩

end ClassDecl

end BackingFields
