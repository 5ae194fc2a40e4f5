import BackingFields.File.Location
import BackingFields.Proofs.File.History

set_option relaxedAutoImplicit false
set_option autoImplicit false

/-!
# When code may see raw fields

The gate reads three facts off the file of a lookup.  Each of them is what the last operation that
gave it has given, counted from the registration of the file on, so the history of a file alone
tells whether code in it may see raw fields.

## Main definitions

* `BackingFields.FileOperation.platform?`, `BackingFields.FileOperation.kind?` — what an operation
  gives to its file.
* `BackingFields.FileRegistry.Grants` — a history that lets code in a file see raw fields.

## Main results

* `BackingFields.FileInfo.afterAll_eq_getD` — an attribute of a file has the value given last.
* `BackingFields.FileRegistry.info?_run_of_issued` — the facts about a file, by its history.
* `BackingFields.FileRegistry.isApplicable_history` — the gate, by the history of a file.
-/

namespace BackingFields

/-! ## The last value given -/

namespace FileOperation

/-- The platform that an operation gives to its file, if it gives one. -/
def platform? : FileOperation → Option TargetPlatform
  | registerFragment _ platform _ => some platform
  | setPlatform _ platform => some platform
  | _ => none

/-- The kind that an operation gives to its file, if it gives one. -/
def kind? : FileOperation → Option FileKind
  | registerFragment _ _ runtimeTyped => some (.fragment runtimeTyped)
  | setKind _ kind => some kind
  | _ => none

/-- An operation changes the platform of its file to the one that it gives. -/
@[simp]
theorem platform_change (op : FileOperation) (info : FileInfo) :
    (op.change info).platform = op.platform?.getD info.platform := by
  cases op <;> rfl

/-- An operation changes the kind of its file to the one that it gives. -/
@[simp]
theorem kind_change (op : FileOperation) (info : FileInfo) :
    (op.change info).kind = op.kind?.getD info.kind := by
  cases op <;> rfl

/-- An operation keeps its file valid unless it invalidates it. -/
@[simp]
theorem isValid_change (op : FileOperation) (info : FileInfo) :
    (op.change info).isValid = true ↔ info.isValid = true ∧ ∀ f, op ≠ .invalidate f := by
  cases op <;> simp [change]

end FileOperation

namespace FileInfo

/-- **The last value counts.**  An attribute that each operation changes to what it gives has, after
some operations, the value that was given last, or its first value if none was given. -/
theorem afterAll_eq_getD {α : Type} {value : FileInfo → α} {given? : FileOperation → Option α}
    (hchange : ∀ (op : FileOperation) info, value (op.change info) = (given? op).getD (value info))
    (info : FileInfo) (ops : List FileOperation) :
    value (info.afterAll ops) = (ops.filterMap given?).getLast?.getD (value info) := by
  induction ops generalizing info with
  | nil => rfl
  | cons op ops ih =>
    rw [afterAll_cons, ih, hchange, List.filterMap_cons]
    cases given? op with
    | none => rfl
    | some a => rw [List.getLast?_cons, Option.getD_some, Option.getD_some]

/-- A file is valid until it is invalidated, whatever else is asked. -/
theorem isValid_afterAll_iff (info : FileInfo) (ops : List FileOperation) :
    (info.afterAll ops).isValid = true ↔ info.isValid = true ∧ ∀ f, .invalidate f ∉ ops := by
  induction ops generalizing info with
  | nil => simp
  | cons op ops ih =>
    rw [afterAll_cons, ih, op.isValid_change]
    simp only [List.mem_cons, not_or, forall_and, and_assoc, ne_eq, eq_comm]

/-- The facts about a file expose raw fields if the file is valid, is for the JVM or for several
platforms, and is a snippet evaluated against the runtime type. -/
theorem exposesFields_iff (info : FileInfo) : info.exposesFields = true ↔
    info.isValid = true ∧ (info.platform = .jvm ∨ info.platform = .common) ∧
      info.kind = .fragment true := by
  obtain ⟨path, platform, kind, isValid⟩ := info
  cases platform <;> cases kind <;>
    simp [exposesFields, TargetPlatform.supportsFieldAccess, FileKind.isRuntimeFragment]

/-- A newly registered file exposes raw fields after some operations about it if none of these
invalidates it, and the last platform and the last kind that they give allow it. -/
theorem exposesFields_afterAll_new_iff (path : String) (ops : List FileOperation) :
    ((new path).afterAll ops).exposesFields = true ↔
      (∀ f, .invalidate f ∉ ops) ∧
        ((ops.filterMap FileOperation.platform?).getLast?.getD .jvm = .jvm ∨
          (ops.filterMap FileOperation.platform?).getLast?.getD .jvm = .common) ∧
        (ops.filterMap FileOperation.kind?).getLast? = some (.fragment true) := by
  have hplatform := afterAll_eq_getD FileOperation.platform_change (new path) ops
  have hkind := afterAll_eq_getD FileOperation.kind_change (new path) ops
  have hregular : ∀ kind? : Option FileKind,
      kind?.getD .regular = .fragment true ↔ kind? = some (.fragment true) := by
    intro kind?
    cases kind? <;> simp
  rw [exposesFields_iff, isValid_afterAll_iff, hplatform, hkind, kind_new, hregular]
  simp

end FileInfo

namespace FileRegistry

variable {r : FileRegistry} {f g : FileId} {op : FileOperation}
  {ops before after : List FileOperation}

/-! ## The facts about a file by its history -/

/-- The facts about a file are those of a new file, as the operations about it change them from its
registration on, until it is removed. -/
theorem info?_run_of_issued (h : r.HasRoom (op :: after)) (hissued : op.issued? r = some f) :
    ∃ path, op.path? = some path ∧ (r.run (op :: after)).info? f =
      if .remove f ∈ after then none
      else some ((FileInfo.new path).afterAll (r.concerning f (op :: after))) := by
  obtain ⟨path, hpath, hinfo⟩ := FileOperation.info?_apply_of_issued hissued
  have hlt : f.index.toNat < (op.apply r).nextIndex.toNat := by
    have hnext := toNat_nextIndex_apply h
    rw [hissued, Option.toList_some, List.length_singleton] at hnext
    obtain ⟨rfl, -⟩ := FileOperation.issued?_eq_some_iff.mp hissued
    show r.nextIndex.toNat < _
    omega
  have hfile : op.file r = f := by
    obtain ⟨_, -, hfile⟩ := Option.map_eq_some_iff.mp hissued
    exact hfile
  refine ⟨path, hpath, ?_⟩
  rw [run_cons, info?_run h.tail hlt, hinfo, concerning, if_pos hfile, FileInfo.afterAll_cons,
    Option.map_some]

/-- A file that has become live has been issued by one of the operations. -/
theorem exists_issued_of_info? {info : FileInfo} (hnone : r.info? f = none)
    (hinfo : (r.run ops).info? f = some info) :
    ∃ before op after, ops = before ++ op :: after ∧ op.issued? (r.run before) = some f := by
  induction ops generalizing r with
  | nil =>
    rw [run_nil, hnone] at hinfo
    cases hinfo
  | cons op ops ih =>
    by_cases hissued : op.issued? r = some f
    · exact ⟨[], op, ops, rfl, hissued⟩
    · have hstill : (op.apply r).info? f = none := by
        by_cases hremove : op = .remove f
        · rw [hremove, FileOperation.info?_apply_remove]
        · rw [FileOperation.info?_apply_of_not_issued hissued hremove, hnone, Option.map_none,
            ite_self]
      obtain ⟨before, op', after, rfl, hissued'⟩ := ih hstill hinfo
      exact ⟨op :: before, op', after, rfl, hissued'⟩

/-- The operations about a file invalidate it exactly when the host has asked for that. -/
theorem invalidate_mem_concerning_iff : .invalidate g ∈ r.concerning f ops ↔
    g = f ∧ .invalidate g ∈ ops := by
  induction ops generalizing r with
  | nil => simp [concerning]
  | cons op ops ih =>
    rw [concerning]
    by_cases hop : op = .invalidate g
    · subst hop
      by_cases hg : g = f
      · simp [FileOperation.file, hg]
      · simp [FileOperation.file, hg, ih]
    · have hne : FileOperation.invalidate g ≠ op := Ne.symm hop
      split <;> simp [hne, ih]

/-! ## The gate -/

/-- A history that lets code in a file see raw fields: an operation has issued the file, and,
counted from this operation on, the file has been neither removed nor invalidated, the platform
given to it last is the JVM or the common one, where a file is for the JVM if none has been given,
and the kind given to it last is that of a snippet evaluated against the runtime type. -/
structure Grants (before : List FileOperation) (op : FileOperation) (after : List FileOperation)
    (f : FileId) : Prop where
  issued : op.issued? (empty.run before) = some f
  not_removed : .remove f ∉ after
  not_invalidated : .invalidate f ∉ after
  platform : ((((empty.run before).concerning f (op :: after)).filterMap
    FileOperation.platform?).getLast?.getD .jvm) ∈ [TargetPlatform.jvm, TargetPlatform.common]
  kind : (((empty.run before).concerning f (op :: after)).filterMap
    FileOperation.kind?).getLast? = some (.fragment true)

/-- A file that an operation issues exposes raw fields in the end exactly when its history grants
it. -/
theorem exposesFields_iff_grants (h : empty.HasRoom (before ++ op :: after))
    (hissued : op.issued? (empty.run before) = some f) :
    (∃ info, (empty.run (before ++ op :: after)).info? f = some info ∧
      info.exposesFields = true) ↔ Grants before op after f := by
  obtain ⟨path, hpath, hinfo⟩ := info?_run_of_issued h.of_append.2 hissued
  have hregisters : op ≠ .invalidate f := by
    rintro rfl
    cases hpath
  have hinvalid : (∀ g, .invalidate g ∉ (empty.run before).concerning f (op :: after)) ↔
      FileOperation.invalidate f ∉ after := by
    simp [invalidate_mem_concerning_iff, Ne.symm hregisters]
  rw [run_append, hinfo]
  split
  · next hremove =>
    refine iff_of_false (by simp) fun hgrants => hgrants.not_removed hremove
  · next hremove =>
    simp only [Option.some_inj, exists_eq_left', FileInfo.exposesFields_afterAll_new_iff, hinvalid]
    constructor
    · rintro ⟨hvalid, hplatform, hkind⟩
      exact ⟨hissued, hremove, hvalid, by simpa using hplatform, hkind⟩
    · intro hgrants
      exact ⟨hgrants.not_invalidated, by simpa using hgrants.platform, hgrants.kind⟩

/-- A file that has been issued and is then invalidated or removed never exposes raw fields again.

**Proof sketch.** Its handle is never issued again, so it is not live or has been invalidated by an
operation about it. -/
theorem not_exposesFields_of_gone (h : r.HasRoom (op :: after))
    (hf : f.index.toNat < r.nextIndex.toNat) (hgone : op = .invalidate f ∨ op = .remove f)
    {info : FileInfo} (hinfo : (r.run (op :: after)).info? f = some info) :
    info.exposesFields = false := by
  rw [info?_run h hf] at hinfo
  split at hinfo
  · cases hinfo
  · next hkept =>
    rcases hgone with rfl | rfl
    · obtain ⟨info', -, rfl⟩ := Option.map_eq_some_iff.mp hinfo
      have hmem : FileOperation.invalidate f ∈ r.concerning f (.invalidate f :: after) :=
        invalidate_mem_concerning_iff.mpr ⟨rfl, List.mem_cons_self⟩
      refine Bool.eq_false_iff.mpr fun hexposes => ?_
      obtain ⟨hvalid, -⟩ := (FileInfo.exposesFields_iff _).mp hexposes
      exact ((FileInfo.isValid_afterAll_iff _ _).mp hvalid).2 f hmem
    · exact absurd List.mem_cons_self hkept

/-- **The gate by the history of a file.**  After any operations that have issued fewer than
`2 ^ 32` handles, a lookup may see raw fields exactly when it comes from an element of a file whose
history grants it.  In particular, once a file that has been issued is invalidated or removed, no
lookup from it may see raw fields again, whatever is registered later, and operations about other
files make no difference.

**Proof sketch.** A live file has been issued by one of the operations, and from then on its facts
are what the operations about it have made of those of a new file. -/
theorem isApplicable_history (ops : List FileOperation)
    (hfew : (empty.issued ops).length < UInt32.size) :
    (∀ location, (empty.run ops).isApplicable location = true ↔
      ∃ f range before op after, location = .element (some f) range ∧ ops = before ++ op :: after ∧
        Grants before op after f) ∧
    (∀ before gone after f range, ops = before ++ gone :: after → f ∈ empty.issued before →
      (gone = .invalidate f ∨ gone = .remove f) →
        (empty.run ops).isApplicable (.element (some f) range) = false) ∧
    ∀ (op : FileOperation) (f : FileId) range, op.file (empty.run ops) ≠ f →
      (op.apply (empty.run ops)).isApplicable (.element (some f) range) =
        (empty.run ops).isApplicable (.element (some f) range) := by
  have hroom := hasRoom_empty hfew
  refine ⟨fun location => ?_, ?_, ?_⟩
  · rw [isApplicable_iff]
    constructor
    · rintro ⟨f, info, hfile, hinfo, hexposes⟩
      obtain ⟨range, rfl⟩ : ∃ range, location = .element (some f) range := by
        cases location with
        | element file range =>
          cases hfile
          exact ⟨range, rfl⟩
        | unplaced => cases hfile
        | syntheticScope => cases hfile
      obtain ⟨before, op, after, rfl, hissued⟩ :=
        exists_issued_of_info? (r := empty) (by simp) hinfo
      exact ⟨f, range, before, op, after, rfl, rfl,
        (exposesFields_iff_grants hroom hissued).mp ⟨info, hinfo, hexposes⟩⟩
    · rintro ⟨f, range, before, op, after, rfl, rfl, hgrants⟩
      obtain ⟨info, hinfo, hexposes⟩ := (exposesFields_iff_grants hroom hgrants.issued).mpr hgrants
      exact ⟨f, info, rfl, hinfo, hexposes⟩
  · rintro before gone after f range rfl hissued hgone
    refine Bool.eq_false_iff.mpr fun happlicable => ?_
    obtain ⟨g, info, hfile, hinfo, hexposes⟩ := isApplicable_iff.mp happlicable
    cases hfile
    rw [run_append] at hinfo
    rw [not_exposesFields_of_gone hroom.of_append.2 (hroom.of_append.1.index_lt_of_mem hissued)
      hgone hinfo] at hexposes
    cases hexposes
  · intro op f range hne
    simp only [isApplicable, Location.file?, Option.bind_some, op.info?_apply_of_ne hne]

/-- A file that was registered as a snippet for another platform sees raw fields once it has been
given the right platform and kind; invalidated, it does not when it is registered as a snippet
again. -/
theorem revived_isApplicable_history :
    let opened : List FileOperation :=
      [.register "/a.kt", .registerFragment "/./a.kt" .js false, .remove ⟨1⟩,
        .setPlatform ⟨0⟩ .common, .setKind ⟨0⟩ (.fragment true)]
    let revived := opened ++ [.invalidate ⟨0⟩, .registerFragment "/a.kt" .jvm true]
    let location : Location := .element (some ⟨0⟩) default
    (empty.issued revived).length < UInt32.size ∧
      (empty.run opened).isApplicable location = true ∧
      (empty.run revived).isApplicable location = false := by
  intro opened revived location
  have hfew : (empty.issued revived).length < UInt32.size := by decide +kernel
  obtain ⟨hopened, -⟩ := isApplicable_history opened (by decide +kernel)
  obtain ⟨-, hgone, -⟩ := isApplicable_history revived hfew
  refine ⟨hfew, (hopened location).mpr ⟨⟨0⟩, default, [], .register "/a.kt", opened.tail, rfl, rfl,
    ?_⟩, ?_⟩
  · constructor <;> decide +kernel
  · exact hgone opened (.invalidate ⟨0⟩) [.registerFragment "/a.kt" .jvm true] ⟨0⟩ default rfl
      (by decide +kernel) (.inl rfl)

end FileRegistry

end BackingFields
