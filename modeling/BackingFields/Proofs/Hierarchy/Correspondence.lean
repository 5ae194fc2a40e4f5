import BackingFields.Proofs.Class.Chain
import BackingFields.Proofs.Hierarchy.Listing
import BackingFields.Proofs.Ty.Growth

set_option relaxedAutoImplicit false
set_option autoImplicit false

/-!
# What hierarchies that are alike agree on

Two hierarchies with the same classes up to names cannot be told apart by climbing them, by looking
up types in them, or by comparing the names of their fields, since names of the same text are equal
in both or in neither.

## Main definitions

* `BackingFields.NameTable.SameText` — two names, each in its table, have the same text.
* `BackingFields.Climb.Alike` — two climbs have the same fault and visit the same classes, up to
  names.

## Main results

* `BackingFields.NameTable.biUnique_sameText` — having the same text is one-to-one.
* `BackingFields.Hierarchy.Alike.climb` — climbs of hierarchies that are alike are alike.
* `BackingFields.Hierarchy.Alike.starProject_resolve_eq` — a type means the same in both, up to its
  arguments.
-/

namespace BackingFields

/-! ## Names of the same text -/

namespace NameTable

variable {t t' u u' : NameTable} {n n' : Name} {s : String}

/-- Two names, each in its table, have the same text. -/
def SameText (t t' : NameTable) (n n' : Name) : Prop :=
  ∃ s, t.text? n = some s ∧ t'.text? n' = some s

/-- Names of the same text keep it. -/
theorem SameText.growsTo (h : t.SameText t' n n') (hgrow : t.GrowsTo u) (hgrow' : t'.GrowsTo u') :
    u.SameText u' n n' := by
  obtain ⟨s, hs, hs'⟩ := h
  exact ⟨s, hgrow.text?_eq_some hs, hgrow'.text?_eq_some hs'⟩

/-- The names of one text in two tables have the same text. -/
theorem sameText_of_find? (ht : t.Consistent) (ht' : t'.Consistent) (hn : t.find? s = some n)
    (hn' : t'.find? s = some n') : t.SameText t' n n' :=
  ⟨s, (ht s n).mp hn, (ht' s n').mp hn'⟩

/-- Having the same text is one-to-one on the names of two consistent tables. -/
theorem biUnique_sameText (ht : t.Consistent) (ht' : t'.Consistent) :
    Relator.BiUnique (t.SameText t') := by
  constructor
  · rintro n m k ⟨s, hn, hk⟩ ⟨r, hm, hk'⟩
    rw [hk, Option.some_inj] at hk'
    subst hk'
    rw [← ht] at hn hm
    rw [hn] at hm
    exact Option.some_inj.mp hm
  · rintro n m k ⟨s, hn, hm⟩ ⟨r, hn', hk⟩
    rw [hn, Option.some_inj] at hn'
    subst hn'
    rw [← ht'] at hm hk
    rw [hm] at hk
    exact Option.some_inj.mp hk

/-- A name is among some names exactly if the name of the same text is among those of the same
texts. -/
theorem SameText.contains_eq (ht : t.Consistent) (ht' : t'.Consistent) (h : t.SameText t' n n')
    {taken taken' : List Name} (htaken : List.Forall₂ (t.SameText t') taken taken') :
    taken'.contains n' = taken.contains n := by
  rw [Bool.eq_iff_iff, List.contains_iff_mem, List.contains_iff_mem]
  exact (List.rel_mem (biUnique_sameText ht ht') h htaken).symm

end NameTable

/-! ## Fields -/

/-- The fields of two classes that one list of declared fields describes are the declared ones, each
under the two names of its text. -/
theorem FieldsNamedIn.forall₂ {α β : Type} {names names' : NameTable} {isValid : String → Bool}
    {text : α → String} {withName : α → Name → β} {nameOf : β → Name} {declared : List α}
    {fields fields' : List β} (h : FieldsNamedIn names isValid text withName nameOf declared fields)
    (h' : FieldsNamedIn names' isValid text withName nameOf declared fields') :
    List.Forall₂ (fun f f' => ∃ d, names.find? (text d) = some (nameOf f) ∧
      names'.find? (text d) = some (nameOf f') ∧ f = withName d (nameOf f) ∧
      f' = withName d (nameOf f')) fields fields' := by
  obtain ⟨named, -⟩ := h
  obtain ⟨named', -⟩ := h'
  induction named generalizing fields' with
  | nil =>
    cases named'
    exact .nil
  | @cons d f _ _ hf _ ih =>
    cases named' with
    | cons hf' named' => exact .cons ⟨d, hf.2.1, hf'.2.1, hf.2.2, hf'.2.2⟩ (ih named')

namespace Members.NamedIn

variable {names : NameTable} {declared : Members String} {members : Members Name}

/-- Members have the representation of the declared ones. -/
theorem kind_eq (h : NamedIn names declared members) : members.kind = declared.kind := by
  cases h <;> rfl

/-- Members have the declared methods. -/
theorem methods_eq (h : NamedIn names declared members) : members.methods = declared.methods := by
  cases h <;> rfl

end Members.NamedIn

/-! ## Classes -/

namespace ClassEntry.Alike

variable {names names' : NameTable} {c c' : ClassEntry}

/-- Classes that are the same up to names have the same representation. -/
theorem kind_eq (h : c.Alike names names' c') : c'.kind = c.kind := by
  obtain ⟨declared, hnamed, hnamed'⟩ := h.members_namedIn
  rw [kind, kind, hnamed.kind_eq, hnamed'.kind_eq]

/-- Classes that are the same up to names have the same methods. -/
theorem methods_eq (h : c.Alike names names' c') : c'.members.methods = c.members.methods := by
  obtain ⟨declared, hnamed, hnamed'⟩ := h.members_namedIn
  rw [hnamed.methods_eq, hnamed'.methods_eq]

/-- Classes that are the same up to names have the same type. -/
theorem defaultType_eq (h : c.Alike names names' c') : c'.defaultType = c.defaultType := by
  rw [defaultType, defaultType, h.id_eq, h.typeParams_eq]

/-- Classes that are the same up to names both list their fields, or fail to in the same way. -/
theorem declaredFields_cases (h : c.Alike names names' c') :
    (∃ fault, c.declaredFields = .error fault ∧ c'.declaredFields = .error fault) ∨
      ∃ fields fields', c.declaredFields = .ok fields ∧ c'.declaredFields = .ok fields' := by
  have hsame : c'.isUnloaded = c.isUnloaded := by
    rw [isUnloaded, isUnloaded, h.kind_eq]
  cases hc : c.isUnloaded with
  | true =>
    rw [hc] at hsame
    rw [c.declaredFields_of_isUnloaded hc, c'.declaredFields_of_isUnloaded hsame,
      h.qualifiedName_eq]
    exact .inl ⟨_, rfl, rfl⟩
  | false =>
    rw [hc] at hsame
    obtain ⟨fields, hfields⟩ := c.exists_declaredFields hc
    obtain ⟨fields', hfields'⟩ := c'.exists_declaredFields hsame
    exact .inr ⟨fields, fields', hfields, hfields'⟩

end ClassEntry.Alike

/-- Two climbs have the same fault and visit the same classes, up to names. -/
structure Climb.Alike (names names' : NameTable) (climb climb' : Climb) : Prop where
  visited : List.Forall₂ (ClassEntry.Alike names names') (climb.visited.map Visit.entry)
    (climb'.visited.map Visit.entry)
  fault_eq : climb'.fault = climb.fault

namespace Hierarchy.Alike

variable {h h' : Hierarchy} (ha : h.Alike h')

include ha

/-! ## Climbs -/

/-- A class is displayed in the same way. -/
theorem display_eq (id : ClassId) : h'.classes.display id = h.classes.display id := by
  unfold ClassTable.display
  rcases ha.get?_cases id with ⟨hnone, hnone'⟩ | ⟨c, c', hc, hc', hcc⟩
  · rw [hnone, hnone']
  · rw [hc, hc', Option.elim_some, Option.elim_some, hcc.qualifiedName_eq]

/-- A class has the same superclass. -/
theorem properSuperclass?_eq (id : ClassId) :
    h'.classes.properSuperclass? id = h.classes.properSuperclass? id := by
  unfold ClassTable.properSuperclass?
  rcases ha.get?_cases id with ⟨hnone, hnone'⟩ | ⟨c, c', hc, hc', hcc⟩
  · rw [hnone, hnone']
  · rw [hc, hc', Option.bind_some, Option.bind_some, hcc.superclass_eq]

/-- A class is visited in both hierarchies, or in neither and for the same reason. -/
theorem visit_cases (id : ClassId) :
    (∃ fault, h.classes.visit id = .error fault ∧ h'.classes.visit id = .error fault) ∨
      ∃ v v', h.classes.visit id = .ok v ∧ h'.classes.visit id = .ok v' ∧
        v.entry.Alike h.names h'.names v'.entry := by
  unfold ClassTable.visit
  rcases ha.get?_cases id with ⟨hnone, hnone'⟩ | ⟨c, c', hc, hc', hcc⟩
  · rw [hnone, hnone']
    exact .inl ⟨_, rfl, rfl⟩
  · rw [hc, hc']
    rcases hcc.declaredFields_cases with ⟨fault, hfault, hfault'⟩ | ⟨fs, fs', hfs, hfs'⟩
    · exact .inl ⟨fault, by simp [hfault, Except.map], by simp [hfault', Except.map]⟩
    · exact .inr ⟨⟨c, fs⟩, ⟨c', fs'⟩, by simp [hfs, Except.map], by simp [hfs', Except.map], hcc⟩

/-- Climbing on from a class is the same in hierarchies that are alike. -/
theorem climbFrom (tooDeep : ResolveError) (left : Nat) (next : Option ClassId) :
    (h.classes.climbFrom tooDeep left next).Alike h.names h'.names
      (h'.classes.climbFrom tooDeep left next) := by
  induction left generalizing next with
  | zero =>
    cases next with
    | none => exact ⟨.nil, rfl⟩
    | some id => exact ⟨.nil, rfl⟩
  | succ left ih =>
    cases next with
    | none => exact ⟨.nil, rfl⟩
    | some id =>
      have hrest := ih (h.classes.properSuperclass? id)
      rw [ClassTable.climbFrom, ClassTable.climbFrom, ha.properSuperclass?_eq]
      rcases ha.visit_cases id with ⟨fault, hfault, hfault'⟩ | ⟨v, v', hv, hv', hvv⟩
      · rw [hfault, hfault']
        exact ⟨.nil, rfl⟩
      · rw [hv, hv']
        exact ⟨.cons hvv hrest.visited, hrest.fault_eq⟩

/-- Climbs of hierarchies that are alike are alike. -/
theorem climb (limit : Nat) (start : ClassId) :
    (h.classes.climb limit start).Alike h.names h'.names (h'.classes.climb limit start) := by
  unfold ClassTable.climb
  rw [ha.display_eq]
  exact ha.climbFrom _ limit _

/-! ## Types -/

/-- A class has the same number of type parameters. -/
theorem arity_eq (id : ClassId) : h'.classes.arity id = h.classes.arity id := by
  unfold ClassTable.arity
  rcases ha.get?_cases id with ⟨hnone, hnone'⟩ | ⟨c, c', hc, hc', hcc⟩
  · rw [hnone, hnone']
  · rw [hc, hc', Option.elim_some, Option.elim_some, ClassEntry.arity, ClassEntry.arity,
      hcc.typeParams_eq]

/-- A type means the same, up to its arguments. -/
theorem starProject_resolve_eq (b : BinaryType) :
    (h'.classes.resolve b).starProject = (h.classes.resolve b).starProject := by
  cases b with
  | ofClass name args =>
    rw [ClassTable.starProject_resolve_ofClass, ClassTable.starProject_resolve_ofClass,
      ha.named?_eq]
    simp only [ha.arity_eq]
  | _ => exact ClassTable.starProject_resolve_congr _ _ (by simp)

end Hierarchy.Alike

end BackingFields
