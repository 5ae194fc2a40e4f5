import BackingFields.File.Registry

set_option relaxedAutoImplicit false
set_option autoImplicit false

/-!
# Histories of a file registry

A registry begins without files and is changed by what the host asks of it.  Each operation is about
one file: the one that it names, or the one that a path leads to.  All that an operation does to the
facts is to issue a handle, to change the facts about its file, or to forget it.

## Main definitions

* `BackingFields.FileOperation` — whatever a host may ask of a registry, with `FileOperation.apply`.
* `BackingFields.FileOperation.file` — the file that an operation is about.
* `BackingFields.FileOperation.issued?` — the handle that an operation issues.
* `BackingFields.FileRegistry.run`, `BackingFields.FileRegistry.issued` — the registry after a
  sequence of operations, and the handles that these have issued.
* `BackingFields.FileRegistry.HasRoom` — these handles fit their width.
* `BackingFields.FileRegistry.concerning` — the operations that are about a file.

## Main results

* `BackingFields.FileOperation.info?_apply_of_issued`,
  `BackingFields.FileOperation.info?_apply_of_not_issued` — what an operation does to the facts.
* `BackingFields.FileRegistry.HasRoom.nodup_issued` — no handle is issued twice.
* `BackingFields.FileRegistry.info?_run` — what becomes of a file whose handle has been issued.

## Design notes

Handles are numbers of 32 bits that are counted up, so all of this holds only while fewer than
`2 ^ 32` of them have been issued.
-/

namespace BackingFields

/-! ## Operations -/

/-- What a host may ask of a file registry.  Merely reading it is left out. -/
inductive FileOperation where
  /-- Asks for the handle of a path. -/
  | register (path : String)
  /-- Registers a snippet that the debugger compiled. -/
  | registerFragment (path : String) (platform : TargetPlatform) (runtimeTyped : Bool)
  /-- Gives a file another platform. -/
  | setPlatform (file : FileId) (platform : TargetPlatform)
  /-- Gives a file another kind. -/
  | setKind (file : FileId) (kind : FileKind)
  /-- Marks a file as no longer valid. -/
  | invalidate (file : FileId)
  /-- Forgets a file. -/
  | remove (file : FileId)
deriving DecidableEq

namespace FileOperation

/-- The registry after an operation, whatever its answer is. -/
def apply (r : FileRegistry) : FileOperation → FileRegistry
  | register path => (r.register path).2
  | registerFragment path platform runtimeTyped =>
    (r.registerFragment path platform runtimeTyped).2
  | setPlatform f platform => r.setPlatform f platform
  | setKind f kind => r.setKind f kind
  | invalidate f => r.invalidate f
  | remove f => r.remove f

/-- The path that an operation registers, if it registers one. -/
def path? : FileOperation → Option String
  | register path => some path
  | registerFragment path _ _ => some path
  | _ => none

/-- The file that an operation is about: the one that it answers with, or the one that it names. -/
def file (r : FileRegistry) : FileOperation → FileId
  | register path => (r.register path).1
  | registerFragment path platform runtimeTyped =>
    (r.registerFragment path platform runtimeTyped).1
  | setPlatform f _ => f
  | setKind f _ => f
  | invalidate f => f
  | remove f => f

/-- The handle that an operation issues: its answer, if it registers a path that was not
registered. -/
def issued? (op : FileOperation) (r : FileRegistry) : Option FileId :=
  (op.path?.filter fun path => (r.byPath[PathKey.ofText path]?).isNone).map fun _ => op.file r

/-- What an operation makes of the facts about its file, if it keeps the file. -/
def change : FileOperation → FileInfo → FileInfo
  | registerFragment _ platform runtimeTyped, info =>
    { info with platform, kind := .fragment runtimeTyped }
  | setPlatform _ platform, info => { info with platform }
  | setKind _ kind, info => { info with kind }
  | invalidate _, info => { info with isValid := false }
  | register _, info => info
  | remove _, info => info

/-- No operation changes the path of a file that it keeps. -/
@[simp]
theorem path_change (op : FileOperation) (info : FileInfo) : (op.change info).path = info.path := by
  cases op <;> rfl

end FileOperation

/-! ## Registering a path -/

namespace FileRegistry

variable {r : FileRegistry} {path : String} {f : FileId}

/-- A registered path is answered with its file, and nothing changes. -/
theorem register_of_known (h : r.byPath[PathKey.ofText path]? = some f) :
    r.register path = (f, r) := by
  simp [register, h]

/-- A new path is answered with the next handle. -/
@[simp]
theorem fst_register_of_new (h : r.byPath[PathKey.ofText path]? = none) :
    (r.register path).1 = ⟨r.nextIndex⟩ := by
  simp [register, h]

/-- A new path gets the facts of a new file, and all other files keep theirs. -/
@[simp]
theorem info?_register_of_new (h : r.byPath[PathKey.ofText path]? = none) (f : FileId) :
    (r.register path).2.info? f =
      if ⟨r.nextIndex⟩ = f then some (FileInfo.new path) else r.info? f := by
  simp [register, h, info?, Std.TreeMap.getElem?_insert]

/-- A new path leads to its file, and all other paths lead where they did. -/
@[simp]
theorem byPath_register_of_new (h : r.byPath[PathKey.ofText path]? = none) (key : PathKey) :
    (r.register path).2.byPath[key]? =
      if PathKey.ofText path = key then some ⟨r.nextIndex⟩ else r.byPath[key]? := by
  simp [register, h, Std.TreeMap.getElem?_insert]

/-- A new path uses up one handle. -/
@[simp]
theorem nextIndex_register_of_new (h : r.byPath[PathKey.ofText path]? = none) :
    (r.register path).2.nextIndex = r.nextIndex + 1 := by
  simp [register, h]

/-- A forgotten file has no facts, and all other files keep theirs. -/
@[simp]
theorem info?_remove (r : FileRegistry) (f g : FileId) :
    (r.remove f).info? g = if f = g then none else r.info? g := by
  unfold remove
  split
  · next h =>
    split
    · next hfg => rw [← hfg, h]
    · rfl
  · simp [info?, Std.TreeMap.getElem?_erase]

end FileRegistry

/-! ## One operation -/

namespace FileOperation

variable {op : FileOperation} {r : FileRegistry} {f : FileId}

/-- An operation that issues a handle registers a new path and answers with the next handle. -/
theorem issued?_eq_some_iff : op.issued? r = some f ↔
    f = ⟨r.nextIndex⟩ ∧ ∃ path, op.path? = some path ∧ r.byPath[PathKey.ofText path]? = none := by
  have hfile (path : String) (hpath : op.path? = some path) : op.file r = (r.register path).1 := by
    cases op <;> cases hpath <;> rfl
  simp only [issued?, Option.map_eq_some_iff, Option.filter_eq_some_iff, Option.isNone_iff_eq_none]
  constructor
  · rintro ⟨path, ⟨hpath, hnew⟩, rfl⟩
    refine ⟨?_, path, hpath, hnew⟩
    rw [hfile path hpath, FileRegistry.fst_register_of_new hnew]
  · rintro ⟨rfl, path, hpath, hnew⟩
    refine ⟨path, ⟨hpath, hnew⟩, ?_⟩
    rw [hfile path hpath, FileRegistry.fst_register_of_new hnew]

/-- An operation that registers a known path, or none, issues no handle. -/
theorem issued?_eq_none_iff : op.issued? r = none ↔
    ∀ path, op.path? = some path → r.byPath[PathKey.ofText path]? ≠ none := by
  rw [Option.eq_none_iff_forall_ne_some]
  simp only [ne_eq, issued?_eq_some_iff, not_and, not_exists]
  exact ⟨fun h path hpath => h _ rfl path hpath, fun h f _ path hpath => h path hpath⟩

/-- A handle that an operation issues is used up, and no other is. -/
theorem nextIndex_apply (op : FileOperation) (r : FileRegistry) :
    (op.apply r).nextIndex =
      if (op.issued? r).isSome then r.nextIndex + 1 else r.nextIndex := by
  have hregister (path : String) (hpath : op.path? = some path) :
      (r.register path).2.nextIndex =
        if (op.issued? r).isSome then r.nextIndex + 1 else r.nextIndex := by
    cases hnew : r.byPath[PathKey.ofText path]? with
    | none =>
      have hissued : op.issued? r = some ⟨r.nextIndex⟩ :=
        issued?_eq_some_iff.mpr ⟨rfl, path, hpath, hnew⟩
      rw [FileRegistry.nextIndex_register_of_new hnew, hissued, Option.isSome_some, if_pos rfl]
    | some f =>
      have hissued : op.issued? r = none := by
        rw [issued?_eq_none_iff, hpath]
        rintro _ ⟨⟩
        simp [hnew]
      rw [FileRegistry.register_of_known hnew, hissued, Option.isSome_none,
        if_neg Bool.false_ne_true]
  cases op with
  | register path => exact hregister path rfl
  | registerFragment path platform runtimeTyped => exact hregister path rfl
  | remove f =>
    simp only [apply, FileRegistry.remove]
    split <;> rfl
  | _ => rfl

/-- The facts about a file whose handle an operation issues are those of a new file, as the
operation changes them. -/
theorem info?_apply_of_issued (h : op.issued? r = some f) :
    ∃ path, op.path? = some path ∧ (op.apply r).info? f = some (op.change (FileInfo.new path)) := by
  obtain ⟨rfl, path, hpath, hnew⟩ := issued?_eq_some_iff.mp h
  have hinfo : (r.register path).2.info? ⟨r.nextIndex⟩ = some (FileInfo.new path) := by
    rw [FileRegistry.info?_register_of_new hnew, if_pos rfl]
  refine ⟨path, hpath, ?_⟩
  cases op with
  | register _ =>
    cases hpath
    exact hinfo
  | registerFragment _ platform runtimeTyped =>
    cases hpath
    simp only [apply, FileRegistry.registerFragment, FileRegistry.info?_update,
      FileRegistry.fst_register_of_new hnew, hinfo, if_true]
    rfl
  | _ => cases hpath

/-- Any other file that an operation keeps has the facts that it had, as the operation changes them
if it is about the file. -/
theorem info?_apply_of_not_issued (h : op.issued? r ≠ some f) (hkept : op ≠ .remove f) :
    (op.apply r).info? f =
      if op.file r = f then (r.info? f).map op.change else r.info? f := by
  have hregister (path : String) (hpath : op.path? = some path) :
      (r.register path).2.info? f = r.info? f := by
    cases hnew : r.byPath[PathKey.ofText path]? with
    | none =>
      have hne : (⟨r.nextIndex⟩ : FileId) ≠ f := by
        rintro rfl
        exact h (issued?_eq_some_iff.mpr ⟨rfl, path, hpath, hnew⟩)
      rw [FileRegistry.info?_register_of_new hnew, if_neg hne]
    | some g => rw [FileRegistry.register_of_known hnew]
  cases op with
  | register path =>
    have hid : (FileOperation.register path).change = id := rfl
    rw [hid, Option.map_id_fun, id_eq, ite_self]
    exact hregister path rfl
  | registerFragment path platform runtimeTyped =>
    simp only [apply, FileRegistry.registerFragment, FileRegistry.info?_update, hregister path rfl]
    rfl
  | remove g =>
    have hne : g ≠ f := fun hgf => hkept (by rw [hgf])
    rw [apply, FileRegistry.info?_remove, if_neg hne, file, if_neg hne]
  | _ => exact FileRegistry.info?_update _ _ _ _

/-- A forgotten file has no facts. -/
@[simp]
theorem info?_apply_remove (r : FileRegistry) (f : FileId) :
    ((FileOperation.remove f).apply r).info? f = none := by
  rw [apply, FileRegistry.info?_remove, if_pos rfl]

/-- An operation about another file leaves the facts about a file alone. -/
theorem info?_apply_of_ne (h : op.file r ≠ f) : (op.apply r).info? f = r.info? f := by
  have hnew : op.issued? r ≠ some f := by
    intro hissued
    simp only [issued?, Option.map_eq_some_iff] at hissued
    obtain ⟨_, _, hf⟩ := hissued
    exact h hf
  have hkept : op ≠ .remove f := by
    rintro rfl
    exact h rfl
  rw [info?_apply_of_not_issued hnew hkept, if_neg h]

end FileOperation

/-- The facts about a file after some operations that are about it and keep it. -/
def FileInfo.afterAll (info : FileInfo) (ops : List FileOperation) : FileInfo :=
  ops.foldl (fun info op => op.change info) info

namespace FileInfo

@[simp]
theorem afterAll_nil (info : FileInfo) : info.afterAll [] = info := rfl

@[simp]
theorem afterAll_cons (info : FileInfo) (op : FileOperation) (ops : List FileOperation) :
    info.afterAll (op :: ops) = (op.change info).afterAll ops := rfl

/-- No operations change the path of a file that they keep. -/
@[simp]
theorem path_afterAll (info : FileInfo) (ops : List FileOperation) :
    (info.afterAll ops).path = info.path := by
  induction ops generalizing info with
  | nil => rfl
  | cons op ops ih => rw [afterAll_cons, ih, op.path_change]

end FileInfo

/-! ## Histories -/

namespace FileRegistry

variable {r : FileRegistry} {op : FileOperation} {ops before after : List FileOperation}
  {f : FileId}

/-- The registry after a sequence of operations. -/
def run (r : FileRegistry) (ops : List FileOperation) : FileRegistry :=
  ops.foldl FileOperation.apply r

@[simp]
theorem run_nil (r : FileRegistry) : r.run [] = r := rfl

@[simp]
theorem run_cons (r : FileRegistry) (op : FileOperation) (ops : List FileOperation) :
    r.run (op :: ops) = (op.apply r).run ops := rfl

/-- Two sequences of operations are run one after the other. -/
@[simp]
theorem run_append (r : FileRegistry) (before after : List FileOperation) :
    r.run (before ++ after) = (r.run before).run after :=
  List.foldl_append

/-- The handles that a sequence of operations issues, in their order. -/
def issued : FileRegistry → List FileOperation → List FileId
  | _, [] => []
  | r, op :: ops => (op.issued? r).toList ++ issued (op.apply r) ops

/-- The handles that a sequence of operations issues fit the width of a handle. -/
def HasRoom (r : FileRegistry) (ops : List FileOperation) : Prop :=
  r.nextIndex.toNat + (r.issued ops).length < UInt32.size

/-- From the registry without files there is room for fewer than `2 ^ 32` registrations. -/
theorem hasRoom_empty (h : (empty.issued ops).length < UInt32.size) : empty.HasRoom ops := by
  have hzero : empty.nextIndex.toNat = 0 := rfl
  rw [HasRoom, hzero, Nat.zero_add]
  exact h

/-- Two sequences of operations issue the handles of the first and then those of the second. -/
theorem issued_append (r : FileRegistry) (before after : List FileOperation) :
    r.issued (before ++ after) = r.issued before ++ (r.run before).issued after := by
  induction before generalizing r with
  | nil => rfl
  | cons op before ih => simp [issued, ih]

/-- The next handle after an operation that issues one, while handles fit. -/
theorem toNat_nextIndex_apply (h : r.HasRoom (op :: ops)) :
    (op.apply r).nextIndex.toNat = r.nextIndex.toNat + (op.issued? r).toList.length := by
  rw [HasRoom, issued, List.length_append] at h
  rw [op.nextIndex_apply]
  cases hissued : op.issued? r with
  | none => simp
  | some f =>
    have hlt : r.nextIndex.toNat + 1 < UInt32.size := by
      simp only [hissued, Option.toList_some, List.length_singleton] at h
      omega
    simp only [Option.isSome_some, if_true, Option.toList_some, List.length_singleton]
    exact (UInt32.toNat_add _ _).trans (Nat.mod_eq_of_lt hlt)

/-- What has room has room after its first operation. -/
theorem HasRoom.tail (h : r.HasRoom (op :: ops)) : (op.apply r).HasRoom ops := by
  have hnext := toNat_nextIndex_apply h
  unfold HasRoom at h ⊢
  rw [issued, List.length_append] at h
  omega

/-- The next handle after some operations counts those that they issue, while handles fit. -/
theorem toNat_nextIndex_run (h : r.HasRoom ops) :
    (r.run ops).nextIndex.toNat = r.nextIndex.toNat + (r.issued ops).length := by
  induction ops generalizing r with
  | nil => rfl
  | cons op ops ih =>
    rw [run_cons, ih h.tail, toNat_nextIndex_apply h, issued, List.length_append, Nat.add_assoc]

/-- What has room in two parts has room for the first, and then for the second. -/
theorem HasRoom.of_append (h : r.HasRoom (before ++ after)) :
    r.HasRoom before ∧ (r.run before).HasRoom after := by
  have hbefore : r.HasRoom before := by
    unfold HasRoom at h ⊢
    rw [issued_append, List.length_append] at h
    omega
  refine ⟨hbefore, ?_⟩
  have hnext := toNat_nextIndex_run hbefore
  unfold HasRoom at h ⊢
  rw [issued_append, List.length_append] at h
  omega

/-- The handles that are issued are never below the next one to be issued. -/
theorem HasRoom.le_index_of_mem (h : r.HasRoom ops) (hf : f ∈ r.issued ops) :
    r.nextIndex.toNat ≤ f.index.toNat := by
  induction ops generalizing r with
  | nil => cases hf
  | cons op ops ih =>
    rw [issued, List.mem_append, Option.mem_toList] at hf
    rcases hf with hf | hf
    · obtain ⟨rfl, -⟩ := FileOperation.issued?_eq_some_iff.mp hf
      exact Nat.le_refl _
    · have hnext := toNat_nextIndex_apply h
      have hrest := ih h.tail hf
      omega

/-- Every handle that has been issued lies below the next one to be issued.

**Proof sketch.** Induction on the operations: a handle is issued by the first of them, which then
uses it up, or by a later one. -/
theorem HasRoom.index_lt_of_mem (h : r.HasRoom ops) (hf : f ∈ r.issued ops) :
    f.index.toNat < (r.run ops).nextIndex.toNat := by
  rw [toNat_nextIndex_run h]
  induction ops generalizing r with
  | nil => cases hf
  | cons op ops ih =>
    have hnext := toNat_nextIndex_apply h
    rw [issued, List.mem_append, Option.mem_toList] at hf
    rw [issued, List.length_append]
    rcases hf with hf | hf
    · rw [hf, Option.toList_some, List.length_singleton]
      obtain ⟨rfl, -⟩ := FileOperation.issued?_eq_some_iff.mp hf
      show r.nextIndex.toNat < _
      omega
    · have hrest := ih h.tail hf
      omega

/-- No handle is issued twice. -/
theorem HasRoom.nodup_issued (h : r.HasRoom ops) : (r.issued ops).Nodup := by
  induction ops generalizing r with
  | nil => exact .nil
  | cons op ops ih =>
    rw [issued]
    cases hissued : op.issued? r with
    | none => exact ih h.tail
    | some f =>
      refine List.nodup_cons.mpr ⟨fun hf => ?_, ih h.tail⟩
      -- a later handle is at least the next one, which lies behind the handle just issued
      have hle := h.tail.le_index_of_mem hf
      have hnext := toNat_nextIndex_apply h
      rw [hissued, Option.toList_some, List.length_singleton] at hnext
      obtain ⟨rfl, -⟩ := FileOperation.issued?_eq_some_iff.mp hissued
      have hle : (op.apply r).nextIndex.toNat ≤ r.nextIndex.toNat := hle
      omega

/-! ## The lifetime of a file -/

/-- The operations among some that are about a file, in their order. -/
def concerning (f : FileId) : FileRegistry → List FileOperation → List FileOperation
  | _, [] => []
  | r, op :: ops =>
    if op.file r = f then op :: concerning f (op.apply r) ops
    else concerning f (op.apply r) ops

/-- **What becomes of a file.**  A file whose handle has been issued is forgotten once it is
removed, and its handle is never issued again; until then its facts are changed by the operations
that are about it, and by no others.

**Proof sketch.** Induction on the operations.  The first of them does not issue the handle, which
lies below the next one to be issued, so it removes the file, changes its facts or leaves them
alone.  A file without facts has none after the rest either. -/
theorem info?_run (h : r.HasRoom ops) (hf : f.index.toNat < r.nextIndex.toNat) :
    (r.run ops).info? f =
      if .remove f ∈ ops then none
      else (r.info? f).map fun info => info.afterAll (r.concerning f ops) := by
  induction ops generalizing r with
  | nil => simp [concerning]
  | cons op ops ih =>
    have hnext := toNat_nextIndex_apply h
    have hold : op.issued? r ≠ some f := by
      intro hissued
      obtain ⟨rfl, -⟩ := FileOperation.issued?_eq_some_iff.mp hissued
      exact Nat.lt_irrefl _ hf
    rw [run_cons, ih h.tail (by omega)]
    by_cases hremove : op = .remove f
    · subst hremove
      rw [FileOperation.info?_apply_remove, if_pos List.mem_cons_self, Option.map_none, ite_self]
    · have hmem : FileOperation.remove f ∈ op :: ops ↔ FileOperation.remove f ∈ ops := by
        rw [List.mem_cons, or_iff_right (Ne.symm hremove)]
      simp only [hmem, concerning, FileOperation.info?_apply_of_not_issued hold hremove]
      split
      · rfl
      · split
        · rw [Option.map_map]
          rfl
        · rfl

end FileRegistry

end BackingFields
