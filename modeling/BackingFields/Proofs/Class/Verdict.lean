import BackingFields.Proofs.Class.Acceptance

set_option relaxedAutoImplicit false
set_option autoImplicit false

/-!
# What becomes of a declaration

A declaration is checked while its field names are interned, and fields are compared by the names
they get.  While names and texts are inverse to each other, none of this depends on what else has
been interned: the outcome follows from the texts of the declaration and from the classes, and the
texts that stay interned are those of the fields before the first fault.

## Main definitions

* `BackingFields.Members.sift` — the field texts before the first that is refused, and that one.
* `BackingFields.Members.fault?` — the first fault among the members of a declaration.
* `BackingFields.ClassTable.verdict` — the handle of a declared class, or the first fault.
* `BackingFields.ClassTable.residue` — the texts that a declaration interns, accepted or not.

## Main results

* `BackingFields.Members.sift_spec` — the fields before a refused one are valid and distinct.
* `BackingFields.ClassTable.run_newEntry` — a declaration ends with its verdict and leaves its
  residue.
-/

namespace BackingFields

/-! ## Fields before the first fault -/

namespace Members

/-- The texts of the fields that are accepted from left to right, and the first that is refused
because it is invalid or repeats an earlier one; `seen` holds the texts of the fields before. -/
def sift (isValid : String → Bool) :
    List String → List String → List String × Option String
  | _, [] => ([], none)
  | seen, s :: rest =>
    if isValid s && !seen.contains s then
      (s :: (sift isValid (s :: seen) rest).1, (sift isValid (s :: seen) rest).2)
    else ([], some s)

/-- The accepted fields are valid, differ from each other and from the fields before, and end the
list or come right before the first field of which one of this fails. -/
theorem sift_spec (isValid : String → Bool) (seen texts : List String) :
    (∀ s ∈ (sift isValid seen texts).1, isValid s = true ∧ s ∉ seen) ∧
      (sift isValid seen texts).1.Nodup ∧
      ((sift isValid seen texts).2 = none → texts = (sift isValid seen texts).1) ∧
      ∀ s, (sift isValid seen texts).2 = some s →
        (∃ rest, texts = (sift isValid seen texts).1 ++ s :: rest) ∧
          (isValid s = true → s ∈ seen ∨ s ∈ (sift isValid seen texts).1) := by
  induction texts generalizing seen with
  | nil => simp [sift]
  | cons s texts ih =>
    by_cases hs : isValid s = true ∧ s ∉ seen
    · obtain ⟨hvalid, hnodup, hnone, hsome⟩ := ih (s :: seen)
      have hcons : sift isValid seen (s :: texts) =
          (s :: (sift isValid (s :: seen) texts).1, (sift isValid (s :: seen) texts).2) := by
        simp [sift, hs]
      rw [hcons]
      refine ⟨?_, ?_, fun hrefused => congrArg (s :: ·) (hnone hrefused), ?_⟩
      · intro r hr
        rcases List.mem_cons.mp hr with rfl | hr
        · exact hs
        · exact ⟨(hvalid r hr).1, fun hmem => (hvalid r hr).2 (List.mem_cons_of_mem s hmem)⟩
      · refine List.nodup_cons.mpr ⟨fun hmem => ?_, hnodup⟩
        exact (hvalid s hmem).2 List.mem_cons_self
      · intro r hrefused
        obtain ⟨⟨rest, hsplit⟩, hearlier⟩ := hsome r hrefused
        refine ⟨⟨rest, congrArg (s :: ·) hsplit⟩, fun hr => ?_⟩
        rcases hearlier hr with hmem | hmem
        · rcases List.mem_cons.mp hmem with rfl | hmem
          · exact .inr List.mem_cons_self
          · exact .inl hmem
        · exact .inr (List.mem_cons_of_mem s hmem)
    · have hstop : sift isValid seen (s :: texts) = ([], some s) := by
        simp only [sift]
        rw [if_neg (by simpa using hs)]
      rw [hstop]
      refine ⟨by simp, .nil, fun hnone => (by cases hnone), fun r hrefused => ?_⟩
      obtain rfl : s = r := Option.some_inj.mp hrefused
      refine ⟨⟨texts, rfl⟩, fun hvalid => .inl ?_⟩
      by_contra hmem
      exact hs ⟨hvalid, hmem⟩

end Members

/-- Why a class may not have a field of this name: it is invalid, or else it repeats another. -/
def DeclarationError.ofField (className : String) (isValid : String → Bool) (text : String) :
    DeclarationError :=
  if isValid text then .duplicateField className text else .invalidFieldName className text

/-! ## Names of the fields before -/

/-- A table has issued some names for some texts, one for each. -/
def NameTable.Issued (t : NameTable) (texts : List String) (names : List Name) : Prop :=
  texts.map t.find? = names.map some

namespace NameTable.Issued

variable {t : NameTable} {seen : List String} {taken : List Name}

/-- No names are those of no texts. -/
theorem nil (t : NameTable) : t.Issued [] [] := rfl

/-- Each of the texts has one of the names. -/
theorem exists_name (h : t.Issued seen taken) {s : String} (hs : s ∈ seen) :
    ∃ n ∈ taken, t.find? s = some n := by
  have hmem : t.find? s ∈ taken.map some := h ▸ List.mem_map_of_mem hs
  obtain ⟨n, hn, hfind⟩ := List.mem_map.mp hmem
  exact ⟨n, hn, hfind.symm⟩

/-- Each of the names belongs to one of the texts. -/
theorem exists_text (h : t.Issued seen taken) {n : Name} (hn : n ∈ taken) :
    ∃ s ∈ seen, t.find? s = some n := by
  have hmem : some n ∈ seen.map t.find? := h ▸ List.mem_map_of_mem hn
  exact List.mem_map.mp hmem

/-- One more text has the name that is issued for it. -/
theorem intern (h : t.Issued seen taken) (s : String) :
    (t.intern s).2.Issued (s :: seen) ((t.intern s).1 :: taken) := by
  have hold : seen.map (t.intern s).2.find? = seen.map t.find? := by
    refine List.map_congr_left fun r hr => ?_
    obtain ⟨n, -, hn⟩ := h.exists_name hr
    rw [hn, (t.growsTo_intern s).find?_eq_some hn]
  unfold Issued at h ⊢
  rw [List.map_cons, List.map_cons, hold, h, find?_intern_self]

/-- The name of a text is among the names exactly when the text is among the texts.

**Proof sketch.** A text seen before keeps its name.  Conversely, if the text has the name of
another one that was seen before, then both are the text of this name. -/
theorem contains_eq (h : t.Issued seen taken) {s : String} (hc : (t.intern s).2.Consistent) :
    taken.contains (t.intern s).1 = seen.contains s := by
  rw [Bool.eq_iff_iff, List.contains_iff_mem, List.contains_iff_mem]
  constructor
  · intro hn
    obtain ⟨r, hr, hfind⟩ := h.exists_text hn
    have htext := (hc _ _).mp ((t.growsTo_intern s).find?_eq_some hfind)
    rw [(hc _ _).mp (t.find?_intern_self s), Option.some_inj] at htext
    rwa [htext]
  · intro hs
    obtain ⟨n, hn, hfind⟩ := h.exists_name hs
    rwa [intern_of_find?_eq_some hfind]

end NameTable.Issued

namespace DeclareM

variable {α β : Type}

/-- A computation that fails exactly with a fault has no fault if it has a value. -/
theorem fault_eq_none {outcome : Except DeclarationError α} {fault : Option DeclarationError}
    (h : ∀ e, outcome = .error e ↔ fault = some e) {a : α} (ha : outcome = .ok a) :
    fault = none := by
  rw [Option.eq_none_iff_forall_ne_some]
  intro e he
  rw [(h e).mpr he] at ha
  cases ha

/-- The fields behind the first one are checked if that is accepted, with its name taken. -/
theorem run_fields_cons (className : String) (isValid : String → Bool) (text : α → String)
    (withName : α → Name → β) (taken : List Name) (d : α) (declared : List α) (t : NameTable) :
    (DeclareM.fields className isValid text withName taken (d :: declared)).run.run t =
      let n := (t.intern (text d)).1
      let t' := (t.intern (text d)).2
      let rest := (DeclareM.fields className isValid text withName (n :: taken) declared).run.run t'
      if isValid (text d) then
        if taken.contains n then (.error (.duplicateField className (text d)), t')
        else (rest.1.map (withName d n :: ·), rest.2)
      else (.error (.invalidFieldName className (text d)), t) := by
  rw [DeclareM.fields, NameM.run_exceptBind, run_fieldName]
  cases isValid (text d) with
  | false => rfl
  | true =>
    dsimp only
    simp only [if_true]
    cases taken.contains (t.intern (text d)).1 with
    | true => rfl
    | false =>
      simp only [Bool.false_eq_true, if_false, NameM.run_exceptBind]
      cases (DeclareM.fields className isValid text withName ((t.intern (text d)).1 :: taken)
        declared).run.run (t.intern (text d)).2 with
      | mk outcome t'' => cases outcome <;> rfl

/-- Checking fields interns the texts that are accepted and fails for the one that is refused.

**Proof sketch.** Induction on the fields.  The name of a valid field is taken exactly when its text
was seen before; in that case the text is known and interning it once more adds nothing. -/
theorem run_fields {className : String} {isValid : String → Bool} {text : α → String}
    {withName : α → Name → β} {seen : List String} {taken : List Name} {t : NameTable}
    (hseen : t.Issued seen taken) (ht : t.Consistent) (declared : List α)
    (hsize : ((DeclareM.fields className isValid text withName taken declared).run.run t).2.size ≤
      UInt32.size) :
    let run := (DeclareM.fields className isValid text withName taken declared).run.run t
    let scan := Members.sift isValid seen (declared.map text)
    run.2 = t.internAll scan.1 ∧
      ∀ e, run.1 = .error e ↔ scan.2.map (.ofField className isValid) = some e := by
  induction declared generalizing seen taken t with
  | nil => exact ⟨rfl, fun e => ⟨nofun, nofun⟩⟩
  | cons d declared ih =>
    rw [run_fields_cons] at hsize ⊢
    rw [List.map_cons, Members.sift]
    cases hvalid : isValid (text d) with
    | false => simp [hvalid, DeclarationError.ofField, NameTable.internAll]
    | true =>
      simp only [hvalid, if_true, Bool.true_and] at hsize ⊢
      -- whichever way the test of the name goes, the table holds its text afterwards
      have hle : (t.intern (text d)).2.size ≤ UInt32.size := by
        refine Nat.le_trans ?_ hsize
        split
        · exact Nat.le_refl _
        · exact (onlyInterns_fields _ _ _ _ _ _ _).size_le
      have hc := (t.growsTo_intern (text d)).consistent ht hle
      rw [hseen.contains_eq hc] at hsize ⊢
      cases hs : seen.contains (text d) with
      | true =>
        obtain ⟨n, -, hn⟩ := hseen.exists_name (List.contains_iff_mem.mp hs)
        simp [NameTable.intern_of_find?_eq_some hn, NameTable.internAll, DeclarationError.ofField,
          hvalid]
      | false =>
        simp only [hs, Bool.false_eq_true, if_false] at hsize
        obtain ⟨htable, houtcome⟩ := ih (hseen.intern (text d)) hc hsize
        simp only [Bool.false_eq_true, if_false, Bool.not_false, if_true, NameM.map_eq_error_iff]
        exact ⟨htable, houtcome⟩

end DeclareM

/-! ## Members -/

namespace Members

/-- The texts of the fields of a declaration that are accepted, and the first that is refused. -/
def scan (m : Members String) : List String × Option String := sift m.isFieldName [] m.fieldNames

/-- The first fault among some members: that of a refused field, or else that of the first method
whose name is none of a member. -/
def fault? (className : String) (m : Members String) : Option DeclarationError :=
  (m.scan.2.map (.ofField className m.isFieldName)).or
    ((m.methods.find? fun method => !Text.isMemberName method.name).map fun method =>
      .invalidMethodName className method.name)

/-- The methods of a compiled class are checked behind its fields, and nothing is interned for
them. -/
theorem run_intern_binary (className : String) (fields : List (BinaryField String))
    (methods : List Method) (t : NameTable) :
    ((binary fields methods).intern className).run.run t =
      let run := (DeclareM.fields className Text.isMemberName BinaryField.name
        BinaryField.withName [] fields).run.run t
      let faulty? := methods.find? fun method => !Text.isMemberName method.name
      (run.1.bind fun named => faulty?.elim (.ok (.binary named methods)) fun method =>
        .error (.invalidMethodName className method.name), run.2) := by
  rw [Members.intern, NameM.run_exceptBind]
  cases (DeclareM.fields className Text.isMemberName BinaryField.name BinaryField.withName []
    fields).run.run t with
  | mk outcome t' =>
    cases outcome with
    | error e => rfl
    | ok named =>
      cases methods.find? fun method => !Text.isMemberName method.name <;> rfl

/-- Checking members interns the accepted fields and fails with the first fault. -/
theorem run_intern (className : String) (m : Members String) {t : NameTable} (ht : t.Consistent)
    (hsize : ((m.intern className).run.run t).2.size ≤ UInt32.size) :
    ((m.intern className).run.run t).2 = t.internAll m.scan.1 ∧
      ∀ e, ((m.intern className).run.run t).1 = .error e ↔ m.fault? className = some e := by
  cases m with
  | unloaded => exact ⟨rfl, fun e => ⟨nofun, nofun⟩⟩
  | source fields =>
    rw [Members.intern, NameM.run_exceptBind_pure] at hsize ⊢
    obtain ⟨htable, houtcome⟩ := DeclareM.run_fields (.nil t) ht fields hsize
    refine ⟨htable, fun e => ?_⟩
    rw [NameM.map_eq_error_iff, houtcome, fault?, methods_source, List.find?_nil, Option.map_none,
      Option.or_none]
    rfl
  | binary fields methods =>
    rw [run_intern_binary] at hsize ⊢
    obtain ⟨htable, houtcome⟩ := DeclareM.run_fields (.nil t) ht fields hsize
    refine ⟨htable, fun e => ?_⟩
    have hrefused : (binary fields methods).scan.2.map
        (DeclarationError.ofField className (binary fields methods).isFieldName) =
          (sift Text.isMemberName [] (fields.map BinaryField.name)).2.map
            (DeclarationError.ofField className Text.isMemberName) := rfl
    rw [fault?, methods_binary, hrefused]
    cases hrun : ((DeclareM.fields className Text.isMemberName BinaryField.name
        BinaryField.withName [] fields).run.run t).1 with
    | error e' =>
      rw [(houtcome e').mp hrun]
      simp [hrun, Except.bind]
    | ok named =>
      rw [DeclareM.fault_eq_none houtcome hrun, Option.none_or]
      cases methods.find? fun method => !Text.isMemberName method.name <;>
        simp [hrun, Except.bind]

end Members

/-! ## Classes -/

namespace ClassTable

/-- The handle of the class that a declaration adds, or the first fault of the declaration. -/
def verdict (t : ClassTable) (d : ClassDecl) : Except DeclarationError ClassId :=
  (t.checkHead d).bind fun _ => (d.members.fault? d.name).elim (.ok ⟨t.size.toUInt32⟩) .error

/-- The texts that a declaration interns: none if a check fails that concerns no member, else the
accepted fields and, if the class is added, its name. -/
def residue (t : ClassTable) (d : ClassDecl) : List String :=
  match t.checkHead d with
  | .error _ => []
  | .ok _ => d.members.scan.1 ++ if (d.members.fault? d.name).isNone then [d.name] else []

/-- A declaration ends with its verdict and leaves its residue. -/
theorem run_newEntry (t : ClassTable) (d : ClassDecl) {names : NameTable}
    (hnames : names.Consistent)
    (hsize : ((t.newEntry d).run.run names).2.size ≤ UInt32.size) :
    ((t.newEntry d).run.run names).2 = names.internAll (t.residue d) ∧
      ((t.newEntry d).run.run names).1.map ClassEntry.id = t.verdict d := by
  unfold residue verdict
  rw [newEntry, NameM.run_exceptBind] at hsize ⊢
  cases hhead : t.checkHead d with
  | error e => exact ⟨rfl, rfl⟩
  | ok superclass =>
    rw [hhead] at hsize
    have hsuper : (MonadExcept.ofExcept (.ok superclass) : DeclareM ClassId).run.run names =
      (.ok superclass, names) := rfl
    rw [hsuper] at hsize ⊢
    dsimp only at hsize ⊢
    rw [NameM.run_exceptBind] at hsize ⊢
    have hmembers := d.members.run_intern d.name hnames
    cases hrun : (d.members.intern d.name).run.run names with
    | mk outcome names' =>
    rw [hrun] at hmembers hsize
    cases outcome with
    | error e =>
      obtain ⟨htable, houtcome⟩ := hmembers hsize
      rw [(houtcome e).mp rfl]
      refine ⟨?_, rfl⟩
      rw [Option.isNone_some, if_neg Bool.false_ne_true, List.append_nil]
      exact htable
    | ok members =>
      have hle := (names'.growsTo_intern d.name).size_le
      obtain ⟨htable, houtcome⟩ := hmembers (Nat.le_trans hle hsize)
      rw [DeclareM.fault_eq_none houtcome rfl]
      refine ⟨?_, rfl⟩
      rw [Option.isNone_none, if_pos rfl, NameTable.internAll_append, ← htable]
      rfl

end ClassTable

end BackingFields
