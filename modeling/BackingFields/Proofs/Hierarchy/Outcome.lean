import BackingFields.Proofs.Class.Faults
import BackingFields.Proofs.Hierarchy.Listing

set_option relaxedAutoImplicit false
set_option autoImplicit false

/-!
# The outcome of a declaration

A declaration is accepted exactly if it keeps every rule, and otherwise refused for its first fault.
An accepted one adds a class from which it can be read back, and changes nothing else but what its
name leads to.

## Main definitions

* `BackingFields.ClassEntry.read` — the declaration that a class stands for.

## Main results

* `BackingFields.ClassDecl.AcceptedAs.read_eq` — an added class stands for its declaration.
* `BackingFields.Hierarchy.Reachable.outcome_declare` — when a declaration is accepted, why it is
  refused, and what it adds.
-/

namespace BackingFields

/-! ## Reading a class back -/

/-- The same members with their fields renamed. -/
def Members.rename {ν μ : Type} (f : ν → μ) : Members ν → Members μ
  | .source fields => .source (fields.map fun field => field.withName (f field.name))
  | .binary fields methods =>
    .binary (fields.map fun field => field.withName (f field.name)) methods
  | .unloaded => .unloaded

/-- The declaration that a class stands for, its fields named by the texts of a table. -/
def ClassEntry.read (names : NameTable) (c : ClassEntry) : ClassDecl where
  name := c.qualifiedName
  typeParams := c.typeParams
  superclass := c.superclass
  members := c.members.rename names.display

/-- Fields under the names of their texts are the declared ones once the texts are read back. -/
theorem FieldsNamedIn.map_eq {α β : Type} {names : NameTable} {isValid : String → Bool}
    {text : α → String} {withName : α → Name → β} {nameOf : β → Name} {declared : List α}
    {fields : List β} (h : FieldsNamedIn names isValid text withName nameOf declared fields)
    (hnames : names.Consistent) (withText : β → String → α)
    (hback : ∀ a n, withText (withName a n) (text a) = a) :
    (fields.map fun f => withText f (names.display (nameOf f))) = declared := by
  obtain ⟨named, -⟩ := h
  induction named with
  | nil => rfl
  | @cons d f _ _ hf _ ih =>
    obtain ⟨-, hfind, hname⟩ := hf
    have hdisplay : names.display (nameOf f) = text d :=
      NameTable.display_of_text?_eq_some ((hnames _ _).mp hfind)
    rw [List.map_cons, ih, hdisplay, hname, hback]

/-- Members whose fields are named by a table are the declared ones once the texts are read back. -/
theorem Members.NamedIn.rename_eq {names : NameTable} {declared : Members String}
    {members : Members Name} (h : NamedIn names declared members) (hnames : names.Consistent) :
    members.rename names.display = declared := by
  cases h with
  | source named =>
    exact congrArg Members.source (named.map_eq hnames SourceField.withName fun _ _ => rfl)
  | binary named valid =>
    exact congrArg (Members.binary · _) (named.map_eq hnames BinaryField.withName fun _ _ => rfl)
  | unloaded => rfl

/-- An added class stands for its declaration, with the superclass made explicit. -/
theorem ClassDecl.AcceptedAs.read_eq {d : ClassDecl} {t : ClassTable} {names : NameTable}
    {c : ClassEntry} (h : d.AcceptedAs t names c) (hnames : names.Consistent) :
    c.read names = { d with superclass := some (d.superclass.getD .root) } := by
  rw [ClassEntry.read, h.qualifiedName_eq, h.typeParams_eq, h.superclass_eq,
    h.members_namedIn.rename_eq hnames]

namespace Hierarchy

variable {h : Hierarchy}

/-- **The outcome of a declaration.**  While there is a handle left and the names fit their width, a
declaration is accepted exactly if it keeps every rule, and otherwise refused for the first of its
faults.  If it is accepted, the class that it stands for is added under the next handle; its name
leads to this class, and every other handle and name leads where it led before.  The names are
extended by those of its fields and, behind them, its own.

**Proof sketch.** A declaration ends with its verdict, which is the first of its faults.  An
accepted one adds a class whose fields carry the names of their texts, so that reading these back
gives the declared members. -/
theorem Reachable.outcome_declare (hr : h.Reachable) (d : ClassDecl)
    (hclasses : h.classes.size < UInt32.size)
    (hnames : (h.declare d).2.names.size ≤ UInt32.size) :
    let after := (h.declare d).2
    ((∃ id, (h.declare d).1 = .ok id) ↔ d.Admissible h.classes) ∧
      (∀ e, (h.declare d).1 = .error e ↔ (d.faults h.classes).head? = some e) ∧
      ∀ id, (h.declare d).1 = .ok id →
        id.index.toNat = h.classes.size ∧
          (∃ c, c.id = id ∧ after.names.text? c.name = some d.name ∧
            c.read after.names = { d with superclass := some (d.superclass.getD .root) } ∧
            ∀ i, after.classes.get? i = if i = id then some c else h.classes.get? i) ∧
          (∀ name, after.classes.named? name =
            if name = d.name then some id else h.classes.named? name) ∧
          after.classes.size = h.classes.size + 1 ∧
          after.names = h.names.internAll (d.members.fieldNames ++ [d.name]) := by
  intro after
  have hwf := hr.wellFormed_classes
  have hgrow : h.names.GrowsTo after.names := (Operation.declare d).names_apply h
  have hn := (hr.wellNamed (Nat.le_trans hgrow.size_le hnames)).consistent
  obtain ⟨hverdict, hresidue⟩ := declare_eq hn hnames
  have houtcome := hverdict.trans (ClassDecl.verdict_eq hwf hclasses d)
  refine ⟨?_, ?_, fun id hok => ?_⟩
  · rw [← ClassDecl.faults_eq_nil_iff, ← List.head?_eq_none_iff, houtcome]
    cases (d.faults h.classes).head? <;> simp
  · intro e
    rw [houtcome]
    cases (d.faults h.classes).head? <;> simp
  · obtain ⟨c, rfl, hc, hpush⟩ := exists_of_declare_eq_ok hok
    have hconsistent : after.names.Consistent := hgrow.consistent hn hnames
    have hat (i : ClassId) : i.index.toNat = h.classes.size ↔ i = c.id := by
      rw [← hc.index_eq]
      exact ⟨ClassId.eq_of_toNat_index_eq, fun hi => by rw [hi]⟩
    refine ⟨hc.index_eq, ⟨c, rfl, (hconsistent _ _).mp hc.find?_name, hc.read_eq hconsistent, ?_⟩,
      ?_, ?_, ?_⟩
    · intro i
      rw [hpush, ClassTable.get?_push]
      simp only [hat]
    · intro name
      rw [hpush, ClassTable.named?_push, hc.qualifiedName_eq]
      simp only [eq_comm]
    · rw [hpush]
      exact Array.size_push c
    · rw [← ClassDecl.residue_eq_of_verdict_eq_ok (hverdict.symm.trans hok)]
      exact hresidue

/-- A ring with a field whose text is interned already is accepted and keeps every rule.  One that
repeats a field, has an invalid one behind it and an invalid method is refused for the
repetition. -/
theorem shapes_outcome_declare :
    let ring : ClassDecl :=
      { name := "Ring"
        superclass := some ⟨2⟩
        members := .source
          [⟨"hole", .primitive .double, true, true, .unknown⟩,
            ⟨"area", .primitive .double, false, false, .unknown⟩] }
    let faulty : ClassDecl :=
      { name := "Ring"
        members := .binary (["hole", "hole", "a.b"].map fun s => ⟨s, .primitive .int, []⟩)
          [⟨"<init>", .primitive .void, 0, false⟩] }
    ring.Admissible shapes.classes ∧
      (shapes.declare ring).2.classes.named? "Ring" = some ⟨3⟩ ∧
      (shapes.declare ring).2.classes.named? "Circle" = some ⟨2⟩ ∧
      faulty.faults shapes.classes = [.duplicateField "Ring" "hole", .invalidFieldName "Ring" "a.b",
        .invalidMethodName "Ring" "<init>"] ∧
      (shapes.declare faulty).1 = .error (.duplicateField "Ring" "hole") := by
  intro ring faulty
  have hok : (shapes.declare ring).1 = .ok ⟨3⟩ := by decide +kernel
  have hfaults : faulty.faults shapes.classes = [.duplicateField "Ring" "hole",
      .invalidFieldName "Ring" "a.b", .invalidMethodName "Ring" "<init>"] := by decide +kernel
  obtain ⟨haccepted, -, hadded⟩ :=
    Reachable.outcome_declare shapes_reachable ring (by decide +kernel) (by decide +kernel)
  obtain ⟨-, hrefused, -⟩ :=
    Reachable.outcome_declare shapes_reachable faulty (by decide +kernel) (by decide +kernel)
  obtain ⟨-, -, hnamed, -⟩ := hadded ⟨3⟩ hok
  refine ⟨haccepted.mp ⟨⟨3⟩, hok⟩, hnamed "Ring", ?_, hfaults, ?_⟩
  · rw [hnamed "Circle"]
    decide +kernel
  · rw [hrefused, hfaults, List.head?_cons]

end Hierarchy

end BackingFields
