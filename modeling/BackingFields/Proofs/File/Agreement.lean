import BackingFields.Proofs.File.History

set_option relaxedAutoImplicit false
set_option autoImplicit false

/-!
# The two maps of a file registry agree

A registry finds files by handle and by path, and nothing checks the two maps against each other.
They stay inverse to each other because a path enters both at once, with a handle that no live file
has, and leaves both at once.

## Main definitions

* `BackingFields.FileRegistry.WellFormed` — paths, files and the next handle fit together.

## Main results

* `BackingFields.FileRegistry.WellFormed.apply`, `BackingFields.FileRegistry.WellFormed.run` — every
  operation keeps a registry well-formed while handles fit.
* `BackingFields.FileRegistry.update_of_unknown` — a change to an unknown file changes nothing.
* `BackingFields.FileRegistry.wellFormed_history` — all that holds of a registry after any history.
-/

namespace BackingFields

namespace FileRegistry

/-! ## Unknown files -/

section Absent

variable {α β : Type} [Ord α] {k : α}

/-- Changing the value of a key that is not in a search tree leaves the tree as it is.

**Proof sketch.** Both the search for the key and the change go down the same path. -/
theorem modify_of_contains_eq_false (change : β → β) (t : Std.DTreeMap.Internal.Impl α fun _ => β)
    (h : t.contains k = false) : Std.DTreeMap.Internal.Impl.Const.modify k change t = t := by
  induction t with
  | leaf => rfl
  | inner size k' v left right ihleft ihright =>
    rw [Std.DTreeMap.Internal.Impl.contains] at h
    rw [Std.DTreeMap.Internal.Impl.Const.modify]
    cases hk : compare k k' with
    | lt =>
      simp only [hk] at h ⊢
      rw [ihleft h]
    | gt =>
      simp only [hk] at h ⊢
      rw [ihright h]
    | eq => simp [hk] at h

end Absent

variable {r : FileRegistry} {f g : FileId} {path : String} {info : FileInfo}

/-- A change to a file that is not live changes nothing at all. -/
theorem update_of_unknown (h : r.info? f = none) (change : FileInfo → FileInfo) :
    r.update f change = r := by
  have habsent : r.files.contains f = false := by
    rw [← Std.TreeMap.isSome_getElem?_eq_contains]
    exact congrArg Option.isSome h
  have hmodify : r.files.modify f change = r.files := by
    obtain ⟨byPath, ⟨⟨tree, wf⟩⟩, nextIndex⟩ := r
    simp only [Std.TreeMap.modify, Std.DTreeMap.Const.modify]
    congr 2
    exact modify_of_contains_eq_false change tree habsent
  rw [update, hmodify]

/-- Forgetting a file that is not live changes nothing at all. -/
theorem remove_of_unknown (h : r.info? f = none) : r.remove f = r := by
  simp [remove, h]

/-! ## Well-formed registries -/

/-- The paths, the files and the next handle of a registry fit together. -/
structure WellFormed (r : FileRegistry) : Prop where
  /-- A path leads to a file exactly when the file is live and its own path has the same
  components. -/
  byPath_eq_some_iff : ∀ {key : PathKey} {f : FileId}, r.byPath[key]? = some f ↔
    ∃ info, r.info? f = some info ∧ PathKey.ofText info.path = key
  /-- There are as many paths as files. -/
  size_byPath : r.byPath.size = r.size
  /-- The handle of a live file lies below the next one to be issued. -/
  index_lt : ∀ {f : FileId} {info : FileInfo}, r.info? f = some info →
    f.index.toNat < r.nextIndex.toNat

/-- The registry without files is well-formed. -/
theorem wellFormed_empty : empty.WellFormed where
  byPath_eq_some_iff := by simp
  size_byPath := rfl
  index_lt := by simp

/-- Two live files with the same path components are one. -/
theorem WellFormed.eq_of_path (h : r.WellFormed) {info' : FileInfo} (hf : r.info? f = some info)
    (hg : r.info? g = some info') (hpath : PathKey.ofText info.path = PathKey.ofText info'.path) :
    f = g := by
  have hleads := h.byPath_eq_some_iff.mpr ⟨info, hf, hpath⟩
  rw [h.byPath_eq_some_iff.mpr ⟨info', hg, rfl⟩] at hleads
  exact (Option.some_inj.mp hleads).symm

/-- The next handle belongs to no live file. -/
theorem WellFormed.info?_nextIndex (h : r.WellFormed) : r.info? ⟨r.nextIndex⟩ = none := by
  cases hf : r.info? ⟨r.nextIndex⟩ with
  | none => rfl
  | some info => exact absurd (h.index_lt hf) (Nat.lt_irrefl _)

/-- A path that no live file has is new. -/
theorem WellFormed.byPath_eq_none_iff (h : r.WellFormed) {key : PathKey} :
    r.byPath[key]? = none ↔ ∀ f info, r.info? f = some info → PathKey.ofText info.path ≠ key := by
  rw [Option.eq_none_iff_forall_ne_some]
  simp only [ne_eq, h.byPath_eq_some_iff, not_exists, not_and]

/-! ## What the operations keep -/

/-- A change that keeps the path of a file keeps a registry well-formed. -/
theorem WellFormed.update (h : r.WellFormed) (f : FileId) {change : FileInfo → FileInfo}
    (hpath : ∀ info, (change info).path = info.path) : (r.update f change).WellFormed where
  byPath_eq_some_iff := by
    intro key g
    rw [info?_update]
    refine h.byPath_eq_some_iff.trans ?_
    split
    · constructor
      · rintro ⟨info, hinfo, rfl⟩
        exact ⟨change info, by rw [hinfo, Option.map_some], by rw [hpath]⟩
      · rintro ⟨_, hchanged, rfl⟩
        obtain ⟨info, hinfo, rfl⟩ := Option.map_eq_some_iff.mp hchanged
        exact ⟨info, hinfo, by rw [hpath]⟩
    · rfl
  size_byPath := by
    rw [size_update]
    exact h.size_byPath
  index_lt := by
    intro g info hinfo
    rw [info?_update] at hinfo
    split at hinfo
    · obtain ⟨info', hinfo', -⟩ := Option.map_eq_some_iff.mp hinfo
      exact h.index_lt hinfo'
    · exact h.index_lt hinfo

/-- Forgetting a file keeps a registry well-formed.

**Proof sketch.** The path of the file led to it and to no other file, so it is the only path that
has to go. -/
theorem WellFormed.remove (h : r.WellFormed) (f : FileId) : (r.remove f).WellFormed := by
  cases hf : r.info? f with
  | none =>
    rw [remove_of_unknown hf]
    exact h
  | some info =>
    have hleads := h.byPath_eq_some_iff.mpr ⟨info, hf, rfl⟩
    have hremove : r.remove f = { r with
        files := r.files.erase f, byPath := r.byPath.erase (PathKey.ofText info.path) } := by
      simp [FileRegistry.remove, hf]
    refine ⟨fun {key g} => ?_, ?_, fun {g info'} hg => ?_⟩
    · have hbyPath : (r.remove f).byPath[key]? =
          if PathKey.ofText info.path = key then none else r.byPath[key]? := by
        simp [hremove, Std.TreeMap.getElem?_erase]
      rw [hbyPath, info?_remove]
      by_cases hkey : PathKey.ofText info.path = key
      · subst hkey
        rw [if_pos rfl]
        refine iff_of_false (by simp) ?_
        rintro ⟨info', hg, hpath⟩
        split at hg
        · cases hg
        · next hne => exact hne (h.eq_of_path hf hg hpath.symm)
      · rw [if_neg hkey, h.byPath_eq_some_iff]
        by_cases hfg : f = g
        · subst hfg
          simp [hf, hkey]
        · rw [if_neg hfg]
    · have hpath : r.byPath.contains (PathKey.ofText info.path) = true := by
        rw [← Std.TreeMap.isSome_getElem?_eq_contains, hleads, Option.isSome_some]
      have hfile : r.files.contains f = true := by
        rw [← Std.TreeMap.isSome_getElem?_eq_contains]
        exact congrArg Option.isSome hf
      have hsize : r.byPath.size = r.files.size := h.size_byPath
      simp only [hremove, size, Std.TreeMap.size_erase, hpath, hfile, hsize]
    · rw [info?_remove] at hg
      split at hg
      · cases hg
      · rw [hremove]
        exact h.index_lt hg

/-- Registering a path keeps a registry well-formed, if there is a handle left for it.

**Proof sketch.** A new path leads to no live file, and the next handle belongs to none, so the one
new pair is inverse and breaks no other. -/
theorem WellFormed.register (h : r.WellFormed)
    (hroom : r.byPath[PathKey.ofText path]? = none →
      (r.nextIndex + 1).toNat = r.nextIndex.toNat + 1) :
    (r.register path).2.WellFormed := by
  cases hnew : r.byPath[PathKey.ofText path]? with
  | some f =>
    rw [register_of_known hnew]
    exact h
  | none =>
    have hfree := h.info?_nextIndex
    refine ⟨fun {key g} => ?_, ?_, fun {g info} hg => ?_⟩
    · rw [byPath_register_of_new hnew, info?_register_of_new hnew]
      by_cases hg : (⟨r.nextIndex⟩ : FileId) = g
      · subst hg
        rw [if_pos rfl]
        by_cases hkey : PathKey.ofText path = key
        · simp [hkey]
        · rw [if_neg hkey, h.byPath_eq_some_iff, hfree]
          simp [hkey]
      · rw [if_neg hg, ← h.byPath_eq_some_iff]
        by_cases hkey : PathKey.ofText path = key
        · subst hkey
          simp [hg, hnew]
        · rw [if_neg hkey]
    · have hpath : r.byPath.contains (PathKey.ofText path) = false := by
        rw [← Std.TreeMap.isSome_getElem?_eq_contains, hnew, Option.isSome_none]
      have hfile : r.files.contains ⟨r.nextIndex⟩ = false := by
        rw [← Std.TreeMap.isSome_getElem?_eq_contains]
        exact congrArg Option.isSome hfree
      have hsize : r.byPath.size = r.files.size := h.size_byPath
      simp [FileRegistry.register, hnew, size, Std.TreeMap.size_insert, hpath, hfile, hsize]
    · rw [nextIndex_register_of_new hnew, hroom hnew]
      rw [info?_register_of_new hnew] at hg
      split at hg
      · next hg' =>
        subst hg'
        exact Nat.lt_succ_self _
      · have := h.index_lt hg
        omega

/-- Every operation keeps a registry well-formed while handles fit. -/
theorem WellFormed.apply (h : r.WellFormed) {op : FileOperation} {ops : List FileOperation}
    (hroom : r.HasRoom (op :: ops)) : (op.apply r).WellFormed := by
  have hregister (path : String) (hpath : op.path? = some path) :
      (r.register path).2.WellFormed := by
    refine h.register fun hnew => ?_
    have hissued : op.issued? r = some ⟨r.nextIndex⟩ :=
      FileOperation.issued?_eq_some_iff.mpr ⟨rfl, path, hpath, hnew⟩
    have hnext := toNat_nextIndex_apply hroom
    rwa [op.nextIndex_apply, hissued, Option.isSome_some, if_pos rfl] at hnext
  cases op with
  | register path => exact hregister path rfl
  | registerFragment path platform runtimeTyped =>
    exact (hregister path rfl).update _ fun _ => rfl
  | setPlatform f platform => exact h.update f fun _ => rfl
  | setKind f kind => exact h.update f fun _ => rfl
  | invalidate f => exact h.update f fun _ => rfl
  | remove f => exact h.remove f

/-- A sequence of operations keeps a registry well-formed while handles fit. -/
theorem WellFormed.run (h : r.WellFormed) {ops : List FileOperation} (hroom : r.HasRoom ops) :
    (r.run ops).WellFormed := by
  induction ops generalizing r with
  | nil => exact h
  | cons op ops ih => exact ih (h.apply hroom) hroom.tail

/-! ## Any history -/

/-- The path of a live file is that of its registration for as long as the file is live. -/
theorem path?_run {ops : List FileOperation} (hroom : r.HasRoom ops)
    (hf : f.index.toNat < r.nextIndex.toNat) (hpath : r.path? f = some path) :
    (r.run ops).path? f = some path ∨ (r.run ops).path? f = none := by
  obtain ⟨info, hinfo, rfl⟩ := Option.map_eq_some_iff.mp hpath
  rw [path?, info?_run hroom hf, hinfo]
  split
  · exact .inr rfl
  · exact .inl (congrArg some (info.path_afterAll _))

/-- An operation that names a file which is not live changes nothing at all. -/
theorem apply_of_unknown {op : FileOperation} (hnames : op.path? = none)
    (hunknown : r.info? (op.file r) = none) : op.apply r = r := by
  cases op with
  | register path => cases hnames
  | registerFragment path platform runtimeTyped => cases hnames
  | remove f => exact remove_of_unknown hunknown
  | _ => exact update_of_unknown hunknown _

/-- **The law of the file registry.**  After any operations that have issued fewer than `2 ^ 32`
handles:

* a path leads to a file exactly when the file is live and its own path has the same components, no
  two live files share theirs, and there are as many paths as files;
* no handle has been issued twice, and each lies below the next one to be issued;
* registering a path answers with the live file whose path has the same components and changes
  nothing, or, if there is none, issues a handle that has never been issued, for a valid, regular
  file for the JVM that keeps the text of the path, and leaves all other files alone;
* whatever happens later, a file has the path that it has now or is no longer live;
* an operation about one file leaves the facts about all others alone, and an operation that names a
  file which is not live changes nothing at all.

**Proof sketch.** Well-formedness is what every operation keeps, and a history counts the handles
that it issues.  The rest is what a single operation does to a well-formed registry. -/
theorem wellFormed_history (ops : List FileOperation)
    (hfew : (empty.issued ops).length < UInt32.size) :
    let r := empty.run ops
    r.WellFormed ∧
      (∀ f g info info', r.info? f = some info → r.info? g = some info' →
        PathKey.ofText info.path = PathKey.ofText info'.path → f = g) ∧
      (empty.issued ops).Nodup ∧ (∀ f ∈ empty.issued ops, f.index < r.nextIndex) ∧
      (∀ path f info, r.info? f = some info → PathKey.ofText info.path = PathKey.ofText path →
        r.register path = (f, r)) ∧
      (∀ path, (∀ f info, r.info? f = some info → PathKey.ofText info.path ≠ PathKey.ofText path) →
        let f := (r.register path).1
        f = ⟨r.nextIndex⟩ ∧ f ∉ empty.issued ops ∧
          (r.register path).2.info? f = some ⟨path, .jvm, .regular, true⟩ ∧
          ∀ g ≠ f, (r.register path).2.info? g = r.info? g) ∧
      (∀ later, (empty.issued (ops ++ later)).length < UInt32.size → ∀ f path,
        r.path? f = some path → (r.run later).path? f = some path ∨ (r.run later).path? f = none) ∧
      (∀ (op : FileOperation) (g : FileId), op.file r ≠ g →
        (op.apply r).info? g = r.info? g ∧ (op.apply r).path? g = r.path? g) ∧
      ∀ op : FileOperation, op.path? = none → r.info? (op.file r) = none → op.apply r = r := by
  intro r
  have hroom := hasRoom_empty hfew
  have hr : r.WellFormed := wellFormed_empty.run hroom
  refine ⟨hr, fun f g info info' => hr.eq_of_path, hroom.nodup_issued,
    fun f hf => UInt32.lt_iff_toNat_lt.mpr (hroom.index_lt_of_mem hf), ?_, ?_, ?_, ?_,
    fun op => apply_of_unknown⟩
  · intro path f info hinfo hpath
    exact register_of_known (hr.byPath_eq_some_iff.mpr ⟨info, hinfo, hpath⟩)
  · intro path hnone f
    have hnew := hr.byPath_eq_none_iff.mpr hnone
    have hf : f = ⟨r.nextIndex⟩ := fst_register_of_new hnew
    refine ⟨hf, fun hmem => ?_, ?_, fun g hg => ?_⟩
    · have hlt := hroom.index_lt_of_mem hmem
      rw [hf] at hlt
      exact Nat.lt_irrefl _ hlt
    · rw [info?_register_of_new hnew, if_pos hf.symm]
      rfl
    · rw [info?_register_of_new hnew, if_neg (hf ▸ hg.symm)]
  · intro later hfew' f path hpath
    obtain ⟨info, hinfo, -⟩ := Option.map_eq_some_iff.mp hpath
    exact path?_run (hasRoom_empty hfew').of_append.2 (hr.index_lt hinfo) hpath
  · intro op g hne
    have hinfo := op.info?_apply_of_ne hne
    exact ⟨hinfo, congrArg (Option.map FileInfo.path) hinfo⟩

/-- A path that is removed and registered again under another spelling gets a third handle, under
which any spelling finds it from then on. -/
theorem reregistered_wellFormed_history :
    let ops : List FileOperation :=
      [.register "/src//Main.kt", .registerFragment "/fragment.kt" .jvm true, .remove ⟨0⟩,
        .remove ⟨7⟩, .register "/src/./Main.kt"]
    let r := empty.run ops
    (empty.issued ops).length < UInt32.size ∧ empty.issued ops = [⟨0⟩, ⟨1⟩, ⟨2⟩] ∧ r.WellFormed ∧
      r.register "/src/Main.kt/" = (⟨2⟩, r) := by
  intro ops r
  have hfew : (empty.issued ops).length < UInt32.size := by decide +kernel
  obtain ⟨hr, -, -, -, hregister, -⟩ := wellFormed_history ops hfew
  refine ⟨hfew, by decide +kernel, hr,
    hregister "/src/Main.kt/" ⟨2⟩ ⟨"/src/./Main.kt", .jvm, .regular, true⟩ ?_ ?_⟩
  · decide +kernel
  · decide +kernel

end FileRegistry

end BackingFields
