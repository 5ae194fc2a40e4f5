import BackingFields.File.Info
import BackingFields.File.Path

set_option relaxedAutoImplicit false
set_option autoImplicit false

/-!
# The file registry

A registry gives each path a stable `FileId` and keeps what is known about the file.  Handles are
never issued twice: a path that is removed and registered again gets a new one.

## Main definitions

* `BackingFields.FileRegistry` — the live files, by handle and by path.
* `BackingFields.FileRegistry.register`, `registerFragment` — the handle of a path, issued if the
  path is new.
* `BackingFields.FileRegistry.setPlatform`, `setKind`, `invalidate`, `remove` — changes to one
  live file; each leaves a registry without that file as it is.
-/

namespace BackingFields

/-- The files known to the evaluator. -/
structure FileRegistry where
  /-- The handle of each registered path. -/
  byPath : Std.TreeMap PathKey FileId
  /-- The facts about each live file. -/
  files : Std.TreeMap FileId FileInfo
  /-- The index of the next handle to be issued. -/
  nextIndex : UInt32

namespace FileRegistry

/-- The registry without files. -/
def empty : FileRegistry := ⟨∅, ∅, 0⟩

instance : Inhabited FileRegistry := ⟨empty⟩

/-! ## Reading -/

/-- The facts about a live file. -/
def info? (r : FileRegistry) (f : FileId) : Option FileInfo := r.files[f]?

/-- The path of a live file, as it was first written. -/
def path? (r : FileRegistry) (f : FileId) : Option String := (r.info? f).map FileInfo.path

/-- How many files are live. -/
def size (r : FileRegistry) : Nat := r.files.size

/-! ## Changing one file -/

/-- Changes the facts about a live file. -/
def update (r : FileRegistry) (f : FileId) (change : FileInfo → FileInfo) : FileRegistry :=
  { r with files := r.files.modify f change }

/-- Gives a live file another platform. -/
def setPlatform (r : FileRegistry) (f : FileId) (platform : TargetPlatform) : FileRegistry :=
  r.update f fun info => { info with platform }

/-- Gives a live file another kind. -/
def setKind (r : FileRegistry) (f : FileId) (kind : FileKind) : FileRegistry :=
  r.update f fun info => { info with kind }

/-- Marks a live file as no longer valid; it keeps its handle and its path. -/
def invalidate (r : FileRegistry) (f : FileId) : FileRegistry :=
  r.update f fun info => { info with isValid := false }

/-- Forgets a live file and frees its path. -/
def remove (r : FileRegistry) (f : FileId) : FileRegistry :=
  match r.info? f with
  | none => r
  | some info =>
    { r with files := r.files.erase f, byPath := r.byPath.erase (PathKey.ofText info.path) }

/-! ## Registering -/

/-- The handle of a path.  A new path gets the next handle and the facts of a new file. -/
def register (r : FileRegistry) (path : String) : FileId × FileRegistry :=
  match r.byPath[PathKey.ofText path]? with
  | some f => (f, r)
  | none =>
    let f : FileId := ⟨r.nextIndex⟩
    (f, { byPath := r.byPath.insert (PathKey.ofText path) f
          files := r.files.insert f (FileInfo.new path)
          nextIndex := r.nextIndex + 1 })

/-- Registers a snippet that the debugger compiled.  A path that is known already takes the
platform and the kind of the snippet, but does not become valid again. -/
def registerFragment (r : FileRegistry) (path : String) (platform : TargetPlatform)
    (runtimeTyped : Bool) : FileId × FileRegistry :=
  let (f, r) := r.register path
  (f, r.update f fun info => { info with platform, kind := .fragment runtimeTyped })

/-! ## Small facts -/

@[simp]
theorem info?_empty (f : FileId) : empty.info? f = none := by
  simp [empty, info?]

@[simp]
theorem byPath_empty (key : PathKey) : empty.byPath[key]? = none := by
  simp [empty]

/-- A change to one file is seen at that file and nowhere else. -/
@[simp]
theorem info?_update (r : FileRegistry) (f g : FileId) (change : FileInfo → FileInfo) :
    (r.update f change).info? g = if f = g then (r.info? g).map change else r.info? g := by
  simp only [info?, update, Std.TreeMap.getElem?_modify]
  split <;> split <;> simp_all

/-- No change to one file changes the number of files. -/
@[simp]
theorem size_update (r : FileRegistry) (f : FileId) (change : FileInfo → FileInfo) :
    (r.update f change).size = r.size := by
  exact Std.TreeMap.size_modify

end FileRegistry

end BackingFields
