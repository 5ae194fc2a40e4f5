import BackingFields.Proofs.Class.Verdict
import BackingFields.Proofs.Hierarchy.Invariant

set_option relaxedAutoImplicit false
set_option autoImplicit false

/-!
# What a history leaves behind

The classes of a hierarchy are its root and those of the declarations that were accepted, in their
order.  Nothing else that a host has asked in between can be seen in them but the names that they
carry.  Two hierarchies with the same accepted declarations are therefore alike: they have the same
classes up to names, and pass the same verdict on every further declaration.

## Main definitions

* `BackingFields.Hierarchy.accepted` — the accepted declarations of a history, with their handles.
* `BackingFields.Hierarchy.Lists` — the classes are those of a list of declarations.
* `BackingFields.Hierarchy.Alike` — two hierarchies have the same classes up to names.

## Main results

* `BackingFields.Operation.accepted_cases` — an operation accepts one declaration, or adds no class.
* `BackingFields.Hierarchy.Lists.run` — a history adds the classes of its accepted declarations.
* `BackingFields.Hierarchy.Lists.alike` — the list determines the classes up to names.
* `BackingFields.Hierarchy.Lists.accepted_eq` — hierarchies with one list accept the same.
-/

namespace BackingFields

/-! ## Outcomes of declarations -/

namespace Hierarchy

variable {h : Hierarchy} {d : ClassDecl}

/-- A declaration ends with its verdict and leaves its residue, while names and texts are inverse to
each other. -/
theorem declare_eq (hnames : h.names.Consistent)
    (hsize : (h.declare d).2.names.size ≤ UInt32.size) :
    (h.declare d).1 = h.classes.verdict d ∧
      (h.declare d).2.names = h.names.internAll (h.classes.residue d) := by
  have hnew := h.classes.run_newEntry d hnames
  unfold declare at hsize ⊢
  cases hrun : (h.classes.newEntry d).run.run h.names with
  | mk outcome names =>
    rw [hrun] at hnew hsize
    cases outcome with
    | ok c =>
      obtain ⟨htable, houtcome⟩ := hnew hsize
      exact ⟨houtcome, htable⟩
    | error e =>
      obtain ⟨htable, houtcome⟩ := hnew hsize
      exact ⟨houtcome, htable⟩

/-- An accepted declaration adds the class that it describes. -/
theorem exists_of_declare_eq_ok {id : ClassId} (hok : (h.declare d).1 = .ok id) :
    ∃ c, c.id = id ∧ d.AcceptedAs h.classes (h.declare d).2.names c ∧
      (h.declare d).2.classes = h.classes.push c := by
  unfold declare at hok ⊢
  split at hok
  · next c names hrun =>
    cases hok
    exact ⟨c, rfl, ClassTable.acceptedAs_of_newEntry hrun, rfl⟩
  · cases hok

end Hierarchy

/-! ## Accepted declarations -/

/-- The declaration that an operation adds a class for, with the handle of the class. -/
def Operation.accepted (h : Hierarchy) : Operation → List (ClassDecl × ClassId)
  | .declare d =>
    match (h.declare d).1 with
    | .ok id => [(d, id)]
    | .error _ => []
  | _ => []

/-- The accepted declarations of a sequence of operations, with the handles of their classes. -/
def Hierarchy.accepted (h : Hierarchy) : List Operation → List (ClassDecl × ClassId)
  | [] => []
  | op :: ops => op.accepted h ++ (op.apply h).accepted ops

/-- An operation accepts no declaration and leaves the classes alone, or it accepts one and adds the
class that this describes. -/
theorem Operation.accepted_cases (op : Operation) (h : Hierarchy) :
    (op.accepted h = [] ∧ (op.apply h).classes = h.classes) ∨
      ∃ d c, op.accepted h = [(d, c.id)] ∧ d.AcceptedAs h.classes (op.apply h).names c ∧
        (op.apply h).classes = h.classes.push c := by
  cases op with
  | declare d =>
    cases hd : (h.declare d).1 with
    | error e =>
      refine .inl ⟨?_, Hierarchy.classes_declare_of_error hd⟩
      simp [accepted, hd]
    | ok id =>
      obtain ⟨c, rfl, hc, hpush⟩ := Hierarchy.exists_of_declare_eq_ok hd
      refine .inr ⟨d, c, ?_, hc, hpush⟩
      simp [accepted, hd]
  | _ => exact .inl ⟨rfl, rfl⟩

/-- Handles are issued in the order of the accepted declarations, from the next free position on. -/
theorem Hierarchy.accepted_eq_zipIdx (h : Hierarchy) (ops : List Operation) :
    h.accepted ops = (((h.accepted ops).map Prod.fst).zipIdx h.classes.size).map fun (d, i) =>
      (d, ⟨i.toUInt32⟩) := by
  induction ops generalizing h with
  | nil => rfl
  | cons op ops ih =>
    have hrest := ih (op.apply h)
    rw [accepted]
    rcases op.accepted_cases h with ⟨hnone, heq⟩ | ⟨d, c, hone, hc, heq⟩
    · rw [heq] at hrest
      rw [hnone, List.nil_append]
      exact hrest
    · have hsize : (op.apply h).classes.size = h.classes.size + 1 := by
        rw [heq]
        exact Array.size_push c
      rw [hsize] at hrest
      rw [hone, List.cons_append, List.nil_append, List.map_cons, List.zipIdx_cons, List.map_cons,
        ← hrest, hc.id_eq]

/-! ## Classes of declarations -/

/-- A class is the one that a declaration describes, its fields named by a table of names. -/
structure ClassDecl.Describes (d : ClassDecl) (names : NameTable) (c : ClassEntry) : Prop where
  qualifiedName_eq : c.qualifiedName = d.name
  typeParams_eq : c.typeParams = d.typeParams
  superclass_eq : c.superclass = some (d.superclass.getD .root)
  members_namedIn : d.members.NamedIn names c.members

/-- A declaration describes the class that it adds. -/
theorem ClassDecl.AcceptedAs.describes {d : ClassDecl} {t : ClassTable} {names : NameTable}
    {c : ClassEntry} (h : d.AcceptedAs t names c) : d.Describes names c :=
  ⟨h.qualifiedName_eq, h.typeParams_eq, h.superclass_eq, h.members_namedIn⟩

/-- A class stays described when the names grow. -/
theorem ClassDecl.Describes.growsTo {d : ClassDecl} {names names' : NameTable} {c : ClassEntry}
    (h : d.Describes names c) (hgrow : names.GrowsTo names') : d.Describes names' c :=
  ⟨h.qualifiedName_eq, h.typeParams_eq, h.superclass_eq, h.members_namedIn.growsTo hgrow⟩

namespace Hierarchy

variable {h h' : Hierarchy} {rootName : String} {decls : List ClassDecl}

/-- The classes of a hierarchy are a root of some name and, behind it, those that some declarations
describe. -/
structure Lists (h : Hierarchy) (rootName : String) (decls : List ClassDecl) : Prop where
  size_eq : h.classes.size = decls.length + 1
  root : ∃ name, h.classes.entries[0]? = some (ClassTable.rootEntry name rootName)
  describes : ∀ {i : Nat} {d : ClassDecl}, decls[i]? = some d →
    ∃ c, h.classes.entries[i + 1]? = some c ∧ d.Describes h.names c

/-- A new hierarchy lists no declarations. -/
theorem lists_ofRoot (rootName : String) : (ofRoot rootName).Lists rootName [] :=
  ⟨rfl, ⟨_, rfl⟩, fun hd => by cases hd⟩

/-- An operation lists the declaration that it accepts behind the others. -/
theorem Lists.apply (hl : h.Lists rootName decls) (op : Operation) :
    (op.apply h).Lists rootName (decls ++ (op.accepted h).map Prod.fst) := by
  have hgrow := op.names_apply h
  obtain ⟨name, hroot⟩ := hl.root
  rcases op.accepted_cases h with ⟨hnone, heq⟩ | ⟨d, c, hone, hc, heq⟩
  · rw [hnone, List.map_nil, List.append_nil]
    refine ⟨by rw [heq]; exact hl.size_eq, ⟨name, by rw [heq]; exact hroot⟩, fun hd => ?_⟩
    obtain ⟨c, hc, hdesc⟩ := hl.describes hd
    exact ⟨c, by rw [heq]; exact hc, hdesc.growsTo hgrow⟩
  · rw [hone, List.map_singleton]
    refine ⟨?_, ⟨name, ?_⟩, fun {i d'} hd => ?_⟩
    · rw [heq, List.length_append, List.length_singleton, ← hl.size_eq]
      exact Array.size_push c
    · rw [heq, ClassTable.getElem?_entries_push, hl.size_eq, if_neg (Nat.succ_ne_zero _).symm]
      exact hroot
    · rw [heq, ClassTable.getElem?_entries_push, hl.size_eq]
      rcases Nat.lt_trichotomy i decls.length with hlt | rfl | hgt
      · rw [List.getElem?_append_left hlt] at hd
        obtain ⟨c', hc', hdesc⟩ := hl.describes hd
        exact ⟨c', by rw [if_neg (by omega)]; exact hc', hdesc.growsTo hgrow⟩
      · rw [List.getElem?_concat_length, Option.some_inj] at hd
        exact ⟨c, if_pos rfl, hd ▸ hc.describes⟩
      · rw [List.getElem?_eq_none (by rw [List.length_append, List.length_singleton]; omega)] at hd
        cases hd

/-- A sequence of operations lists the declarations that it accepts behind the others. -/
theorem Lists.run (hl : h.Lists rootName decls) (ops : List Operation) :
    (h.run ops).Lists rootName (decls ++ (h.accepted ops).map Prod.fst) := by
  induction ops generalizing h decls with
  | nil =>
    rw [accepted, List.map_nil, List.append_nil]
    exact hl
  | cons op ops ih =>
    rw [accepted, List.map_append, ← List.append_assoc]
    exact ih (hl.apply op)

/-- Every hierarchy that a host can come to lists some declarations. -/
theorem Reachable.exists_lists (hr : h.Reachable) : ∃ rootName decls, h.Lists rootName decls := by
  induction hr with
  | ofRoot rootName => exact ⟨rootName, [], lists_ofRoot rootName⟩
  | apply hr op ih =>
    obtain ⟨rootName, decls, hl⟩ := ih
    exact ⟨rootName, _, hl.apply op⟩

end Hierarchy

/-! ## Hierarchies that are alike -/

/-- Two classes are the same up to the names that two tables have issued: there is one list of
members that describes both. -/
structure ClassEntry.Alike (names names' : NameTable) (c c' : ClassEntry) : Prop where
  id_eq : c'.id = c.id
  qualifiedName_eq : c'.qualifiedName = c.qualifiedName
  typeParams_eq : c'.typeParams = c.typeParams
  superclass_eq : c'.superclass = c.superclass
  members_namedIn : ∃ declared : Members String,
    declared.NamedIn names c.members ∧ declared.NamedIn names' c'.members

/-- Two classes with one handle that one declaration describes are the same up to names. -/
theorem ClassDecl.Describes.alike {d : ClassDecl} {names names' : NameTable} {c c' : ClassEntry}
    (h : d.Describes names c) (h' : d.Describes names' c') (hid : c'.id = c.id) :
    c.Alike names names' c' where
  id_eq := hid
  qualifiedName_eq := by rw [h.qualifiedName_eq, h'.qualifiedName_eq]
  typeParams_eq := by rw [h.typeParams_eq, h'.typeParams_eq]
  superclass_eq := by rw [h.superclass_eq, h'.superclass_eq]
  members_namedIn := ⟨d.members, h.members_namedIn, h'.members_namedIn⟩

namespace Hierarchy

variable {h h' : Hierarchy} {rootName : String} {decls : List ClassDecl}

/-- Two hierarchies have the same classes up to names. -/
structure Alike (h h' : Hierarchy) : Prop where
  size_eq : h'.classes.size = h.classes.size
  get? : ∀ id, Option.Rel (ClassEntry.Alike h.names h'.names) (h.classes.get? id)
    (h'.classes.get? id)
  named?_eq : ∀ qualifiedName, h'.classes.named? qualifiedName = h.classes.named? qualifiedName

/-- Two hierarchies that list the same declarations are alike.

**Proof sketch.** Either handle is that of the root, or of the class of one declaration in both
hierarchies, or of no class in either.  A qualified name leads to the class that has it, and this is
at the same position in both. -/
theorem Lists.alike (hl : h.Lists rootName decls) (hl' : h'.Lists rootName decls)
    (hclasses : h.classes.WellFormed) (hclasses' : h'.classes.WellFormed) : h.Alike h' := by
  have hget : ∀ id, Option.Rel (ClassEntry.Alike h.names h'.names) (h.classes.get? id)
      (h'.classes.get? id) := by
    intro id
    unfold ClassTable.get?
    cases hi : id.index.toNat with
    | zero =>
      obtain ⟨name, hroot⟩ := hl.root
      obtain ⟨name', hroot'⟩ := hl'.root
      rw [hroot, hroot']
      exact .some ⟨rfl, rfl, rfl, rfl, .source [], .source ⟨.nil, .nil⟩, .source ⟨.nil, .nil⟩⟩
    | succ i =>
      cases hd : decls[i]? with
      | some d =>
        obtain ⟨c, hc, hdesc⟩ := hl.describes hd
        obtain ⟨c', hc', hdesc'⟩ := hl'.describes hd
        have hid : c'.id = c.id :=
          ClassId.eq_of_toNat_index_eq ((hclasses'.index_eq hc').trans (hclasses.index_eq hc).symm)
        rw [hc, hc']
        exact .some (hdesc.alike hdesc' hid)
      | none =>
        have hle : decls.length ≤ i := List.getElem?_eq_none_iff.mp hd
        rw [Array.getElem?_eq_none, Array.getElem?_eq_none]
        · exact .none
        · have := hl'.size_eq
          unfold ClassTable.size at this
          omega
        · have := hl.size_eq
          unfold ClassTable.size at this
          omega
  refine ⟨by rw [hl.size_eq, hl'.size_eq], hget, fun qualifiedName => Option.ext fun id => ?_⟩
  rw [hclasses.named?_eq_some_iff, hclasses'.named?_eq_some_iff]
  have hrel := hget id
  revert hrel
  generalize h.classes.get? id = found
  generalize h'.classes.get? id = found'
  rintro (⟨hc⟩ | _)
  · simp [hc.qualifiedName_eq]
  · simp

/-- A handle has no class in either of two hierarchies that are alike, or two classes that are the
same up to names. -/
theorem Alike.get?_cases (ha : h.Alike h') (id : ClassId) :
    (h.classes.get? id = none ∧ h'.classes.get? id = none) ∨
      ∃ c c', h.classes.get? id = some c ∧ h'.classes.get? id = some c' ∧
        c.Alike h.names h'.names c' := by
  have hrel := ha.get? id
  revert hrel
  generalize h.classes.get? id = found
  generalize h'.classes.get? id = found'
  rintro (@⟨c, c', hc⟩ | _)
  · exact .inr ⟨c, c', rfl, rfl, hc⟩
  · exact .inl ⟨rfl, rfl⟩

/-- Hierarchies that are alike pass the same verdict on every declaration. -/
theorem Alike.verdict_eq (ha : h.Alike h') (d : ClassDecl) :
    h'.classes.verdict d = h.classes.verdict d := by
  have hmissing : ∀ id, (h'.classes.get? id).isNone = (h.classes.get? id).isNone := by
    intro id
    rcases ha.get?_cases id with ⟨hnone, hnone'⟩ | ⟨c, c', hc, hc', -⟩
    · rw [hnone, hnone']
    · rw [hc, hc']
      rfl
  have hhead : h'.classes.checkHead d = h.classes.checkHead d := by
    unfold ClassTable.checkHead
    rw [ha.named?_eq, ha.size_eq]
    simp only [hmissing]
  rw [ClassTable.verdict, ClassTable.verdict, hhead, ha.size_eq]

/-- Declaring a class in hierarchies that are alike has the same outcome, as long as all of their
names fit. -/
theorem Alike.fst_declare_eq (ha : h.Alike h') (hn : h.names.Consistent) (hn' : h'.names.Consistent)
    {d : ClassDecl} (hsize : (h.declare d).2.names.size ≤ UInt32.size)
    (hsize' : (h'.declare d).2.names.size ≤ UInt32.size) :
    (h'.declare d).1 = (h.declare d).1 := by
  rw [(declare_eq hn hsize).1, (declare_eq hn' hsize').1, ha.verdict_eq]

/-- Histories of the same operations accept the same declarations if they begin with hierarchies
that list the same ones. -/
theorem Lists.accepted_eq (hl : h.Lists rootName decls) (hl' : h'.Lists rootName decls)
    (hr : h.Reachable) (hr' : h'.Reachable) (ops : List Operation)
    (hsize : (h.run ops).names.size ≤ UInt32.size)
    (hsize' : (h'.run ops).names.size ≤ UInt32.size) : h'.accepted ops = h.accepted ops := by
  induction ops generalizing h h' decls with
  | nil => rfl
  | cons op ops ih =>
    have hfirst : op.accepted h' = op.accepted h := by
      have ha := hl.alike hl' hr.wellFormed_classes hr'.wellFormed_classes
      have hle := Nat.le_trans ((op.apply h).growsTo_run ops).names.size_le hsize
      have hle' := Nat.le_trans ((op.apply h').growsTo_run ops).names.size_le hsize'
      have hn := (hr.wellNamed (Nat.le_trans (op.names_apply h).size_le hle)).consistent
      have hn' := (hr'.wellNamed (Nat.le_trans (op.names_apply h').size_le hle')).consistent
      cases op with
      | declare d =>
        have houtcome := ha.fst_declare_eq hn hn' hle hle'
        simp only [Operation.accepted, houtcome]
      | _ => rfl
    have hnext := hl'.apply op
    rw [hfirst] at hnext
    rw [accepted, accepted, hfirst,
      ih (hl.apply op) hnext (hr.apply op) (hr'.apply op) hsize hsize']

end Hierarchy

end BackingFields
