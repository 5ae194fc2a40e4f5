import BackingFields.Proofs.Class.Growth

set_option relaxedAutoImplicit false
set_option autoImplicit false

/-!
# What holds in every table of classes

The classes of a table and the index from qualified names to handles are two pieces of state that
nothing checks against each other.  They stay in step because a class is only added when its
declaration has passed every check.

## Main definitions

* `BackingFields.FieldFlags` — the flags of a compiled field as its modifiers set them one by one.
* `BackingFields.ClassEntry.WellFormed` — what holds of one class by itself.
* `BackingFields.ClassTable.WellFormed` — positions, handles, superclasses and qualified names fit.

## Main results

* `BackingFields.ClassTable.wellFormed_ofRoot`, `BackingFields.ClassTable.WellFormed.push` — a table
  begins well-formed, and an accepted class keeps it so.
-/

namespace BackingFields

/-! ## Flags of compiled fields -/

/-- The flags of a compiled field. -/
structure FieldFlags where
  isFinal : Bool
  isStatic : Bool
  isEnumEntry : Bool
deriving DecidableEq

namespace FieldFlags

/-- A field without modifiers is a mutable instance field. -/
def plain : FieldFlags := ⟨false, false, false⟩

/-- A modifier sets its flag; that of an enum entry sets the other two as well. -/
def mark (flags : FieldFlags) : Modifier → FieldFlags
  | .final => { flags with isFinal := true }
  | .static => { flags with isStatic := true }
  | .enumEntry => ⟨true, true, true⟩

/-- The flags after some modifiers: each is set by its own modifier or by an enum entry, or was set
before. -/
theorem foldl_mark (flags : FieldFlags) (modifiers : List Modifier) :
    modifiers.foldl mark flags =
      { isFinal := flags.isFinal || modifiers.contains .final || modifiers.contains .enumEntry
        isStatic := flags.isStatic || modifiers.contains .static || modifiers.contains .enumEntry
        isEnumEntry := flags.isEnumEntry || modifiers.contains .enumEntry } := by
  induction modifiers generalizing flags with
  | nil => simp
  | cons modifier modifiers ih =>
    rw [List.foldl_cons, ih]
    cases modifier <;> simp [mark, Bool.or_comm, Bool.or_left_comm]

end FieldFlags

/-- The flags of a compiled field. -/
def BinaryField.flags {ν : Type} (f : BinaryField ν) : FieldFlags :=
  ⟨f.isFinal, f.isStatic, f.isEnumEntry⟩

/-- The flags of a field are those that its modifiers set one by one. -/
theorem BinaryField.flags_eq_foldl {ν : Type} (f : BinaryField ν) :
    f.flags = f.modifiers.foldl FieldFlags.mark .plain := by
  rw [FieldFlags.foldl_mark]
  simp [flags, FieldFlags.plain, isFinal, isStatic, isEnumEntry]

/-! ## One class -/

/-- What holds of one class by itself. -/
structure ClassEntry.WellFormed (c : ClassEntry) : Prop where
  /-- The name of any class but the root is a path of identifiers. -/
  isQualified : c.id ≠ .root → Text.isQualifiedIdentifier c.qualifiedName = true
  /-- Every type parameter is an identifier. -/
  isIdentifier_typeParams : ∀ p ∈ c.typeParams, Text.isIdentifier p = true
  /-- Every method has the name of a member. -/
  isMemberName_methods : ∀ m ∈ c.members.methods, Text.isMemberName m.name = true
  /-- No two fields have the same name. -/
  nodup_fieldNames : c.members.fieldNames.Nodup

/-- The root class is well-formed under any name. -/
theorem ClassTable.wellFormed_rootEntry (name : Name) (qualifiedName : String) :
    (rootEntry name qualifiedName).WellFormed where
  isQualified h := absurd rfl h
  isIdentifier_typeParams := by simp [rootEntry]
  isMemberName_methods := by simp [rootEntry]
  nodup_fieldNames := .nil

/-- A class that a declaration adds is well-formed. -/
theorem ClassDecl.AcceptedAs.wellFormed {d : ClassDecl} {t : ClassTable} {names : NameTable}
    {c : ClassEntry} (h : d.AcceptedAs t names c) : c.WellFormed where
  isQualified _ := by
    rw [h.qualifiedName_eq]
    exact h.isQualified
  isIdentifier_typeParams := by
    rw [h.typeParams_eq]
    exact h.isIdentifier_typeParams
  isMemberName_methods := h.members_namedIn.isMemberName_methods
  nodup_fieldNames := h.members_namedIn.nodup_fieldNames

/-! ## All classes -/

/-- Handles of one position are equal. -/
theorem ClassId.eq_of_toNat_index_eq {id id' : ClassId}
    (h : id.index.toNat = id'.index.toNat) : id = id' := by
  cases id
  cases id'
  simpa [UInt32.toNat_inj] using h

namespace ClassTable

/-- Positions, handles, superclasses and qualified names of a table fit together. -/
structure WellFormed (t : ClassTable) : Prop where
  /-- The class at a position has the handle of the position. -/
  index_eq : ∀ {i : Nat} {c : ClassEntry}, t.entries[i]? = some c → c.id.index.toNat = i
  /-- The first class is the root. -/
  root : ∃ name qualifiedName, t.entries[0]? = some (rootEntry name qualifiedName)
  /-- Any other class has a superclass, and it was declared earlier. -/
  superclass_lt : ∀ {i : Nat} {c : ClassEntry}, t.entries[i]? = some c → 0 < i →
    ∃ s, c.superclass = some s ∧ s.index.toNat < i
  /-- A qualified name leads to the class that has it. -/
  named?_eq_some_iff : ∀ {qualifiedName : String} {id : ClassId},
    t.named? qualifiedName = some id ↔ ∃ c, t.get? id = some c ∧ c.qualifiedName = qualifiedName
  /-- Every class is well-formed by itself. -/
  wellFormed_entry : ∀ {i : Nat} {c : ClassEntry}, t.entries[i]? = some c → c.WellFormed

variable {t : ClassTable} {c : ClassEntry}

/-- The class with a handle has the handle. -/
theorem WellFormed.get?_id (h : t.WellFormed) {i : Nat} (hc : t.entries[i]? = some c) :
    t.get? c.id = some c := by
  rw [get?, h.index_eq hc]
  exact hc

/-- The class at the position of a handle has this handle. -/
theorem WellFormed.id_eq (h : t.WellFormed) {id : ClassId} (hc : t.get? id = some c) : c.id = id :=
  ClassId.eq_of_toNat_index_eq (h.index_eq hc)

/-- The qualified name of a class leads to its handle. -/
theorem WellFormed.named?_of_entry (h : t.WellFormed) {i : Nat} (hc : t.entries[i]? = some c) :
    t.named? c.qualifiedName = some c.id :=
  h.named?_eq_some_iff.mpr ⟨c, h.get?_id hc, rfl⟩

/-- A class added behind the others is found at the position behind theirs. -/
@[simp]
theorem getElem?_entries_push (t : ClassTable) (c : ClassEntry) (i : Nat) :
    (t.push c).entries[i]? = if i = t.size then some c else t.entries[i]? :=
  Array.getElem?_push

/-- What holds of the earlier classes and of an added one, each at its position, holds of all. -/
theorem forall_entries_push {P : Nat → ClassEntry → Prop}
    (h : ∀ i c', t.entries[i]? = some c' → P i c') (hc : P t.size c) :
    ∀ i c', (t.push c).entries[i]? = some c' → P i c' := by
  intro i c' hc'
  rw [getElem?_entries_push] at hc'
  split at hc'
  · next hi =>
    cases hc'
    rwa [hi]
  · exact h i c' hc'

/-- Qualified names still lead to the classes that have them when a class is added at the next
position under a name that is free.

**Proof sketch.** The name of the added class leads to it, and to no earlier class because it was
free.  Any other name leads where it led before, which is not the new position. -/
theorem named?_push_eq_some_iff (hfree : t.named? c.qualifiedName = none)
    (hindex : c.id.index.toNat = t.size)
    (h : ∀ {qualifiedName id}, t.named? qualifiedName = some id ↔
      ∃ c', t.get? id = some c' ∧ c'.qualifiedName = qualifiedName)
    (qualifiedName : String) (id : ClassId) :
    (t.push c).named? qualifiedName = some id ↔
      ∃ c', (t.push c).get? id = some c' ∧ c'.qualifiedName = qualifiedName := by
  have hid : id.index.toNat = t.size ↔ c.id = id := by
    rw [← hindex]
    exact ⟨fun h => (ClassId.eq_of_toNat_index_eq h).symm, fun h => by rw [h]⟩
  rw [named?_push, get?_push]
  by_cases hname : c.qualifiedName = qualifiedName
  · subst hname
    rw [if_pos rfl, Option.some_inj]
    constructor
    · rintro rfl
      exact ⟨c, if_pos hindex, rfl⟩
    · rintro ⟨c', hc', hname⟩
      split at hc'
      · next hi => exact hid.mp hi
      · rw [h.mpr ⟨c', hc', hname⟩] at hfree
        cases hfree
  · rw [if_neg hname, h]
    constructor
    · rintro ⟨c', hc', rfl⟩
      exact ⟨c', by rw [if_neg (Nat.ne_of_lt (lt_size_of_get?_eq_some hc'))]; exact hc', rfl⟩
    · rintro ⟨c', hc', rfl⟩
      split at hc'
      · cases hc'
        exact absurd rfl hname
      · exact ⟨c', hc', rfl⟩

/-- The table that holds the root alone is well-formed. -/
theorem wellFormed_ofRoot (name : Name) (qualifiedName : String) :
    (ofRoot name qualifiedName).WellFormed := by
  -- the root is the class added to a table without classes
  let empty : ClassTable := ⟨#[], ∅⟩
  have hnone : ∀ (i : Nat) (c : ClassEntry), empty.entries[i]? ≠ some c := by simp [empty]
  refine {
    index_eq := forall_entries_push (t := empty) (P := fun i c => c.id.index.toNat = i)
      (fun i c h => absurd h (hnone i c)) rfl _ _
    root := ⟨name, qualifiedName, rfl⟩
    superclass_lt := forall_entries_push (t := empty)
      (P := fun i c => 0 < i → ∃ s, c.superclass = some s ∧ s.index.toNat < i)
      (fun i c h => absurd h (hnone i c)) ?_ _ _
    named?_eq_some_iff := named?_push_eq_some_iff (t := empty) ?_ rfl ?_ _ _
    wellFormed_entry := forall_entries_push (t := empty) (P := fun _ c => c.WellFormed)
      (fun i c h => absurd h (hnone i c)) (wellFormed_rootEntry name qualifiedName) _ _ }
  · exact fun h => absurd h (Nat.lt_irrefl 0)
  · simp [empty, named?]
  · simp [empty, named?, get?]

/-- Adding an accepted class keeps a table well-formed. -/
theorem WellFormed.push {d : ClassDecl} {names : NameTable} (h : t.WellFormed)
    (hc : d.AcceptedAs t names c) : (t.push c).WellFormed where
  index_eq := forall_entries_push (fun _ _ => h.index_eq) hc.index_eq _ _
  root := by
    obtain ⟨name, qualifiedName, hroot⟩ := h.root
    refine ⟨name, qualifiedName, ?_⟩
    have hpos : 0 < t.size := (Array.getElem?_eq_some_iff.mp hroot).1
    rw [getElem?_entries_push, if_neg (Nat.ne_of_lt hpos)]
    exact hroot
  superclass_lt := by
    refine forall_entries_push (fun _ _ => h.superclass_lt) (fun _ => ?_) _ _
    obtain ⟨c', hc'⟩ := Option.isSome_iff_exists.mp hc.knows_superclass
    exact ⟨_, hc.superclass_eq, lt_size_of_get?_eq_some hc'⟩
  named?_eq_some_iff := by
    refine named?_push_eq_some_iff ?_ hc.index_eq h.named?_eq_some_iff _ _
    rw [hc.qualifiedName_eq]
    exact hc.isFree
  wellFormed_entry := forall_entries_push (fun _ _ => h.wellFormed_entry) hc.wellFormed _ _

end ClassTable

end BackingFields
