import Std.Data.TreeMap

set_option relaxedAutoImplicit false
set_option autoImplicit false

/-!
# Files and what is known about them

A file is handled by a `FileId`; what decides whether evaluated code in it may see raw fields is
its `FileInfo`: the platform it targets, whether it is a snippet that the debugger compiled, and
whether it still exists.

## Main definitions

* `BackingFields.FileId` — a handle for a registered file.
* `BackingFields.TargetPlatform`, `BackingFields.FileKind` — where a file runs and what it is.
* `BackingFields.FileInfo` — the facts about one file, with `FileInfo.exposesFields`.
-/

namespace BackingFields

/-! ## Handles -/

/-- A registered file by the number of its registration. -/
structure FileId where
  /-- The number of the registration, counted from zero. -/
  index : UInt32
deriving DecidableEq, Inhabited

namespace FileId

/-- Files are ordered by the number of their registration. -/
instance : Ord FileId := ⟨compareOn FileId.index⟩

instance : Std.TransOrd FileId := inferInstanceAs (Std.TransCmp (compareOn FileId.index))

instance : Std.LawfulEqOrd FileId where
  eq_of_compare {a b} h := by
    have h : compare a.index b.index = .eq := h
    cases a
    cases b
    simpa using Std.LawfulEqOrd.eq_of_compare h

/-- The short text of a file handle. -/
def label (f : FileId) : String := s!"file#{f.index}"

/-- The text of a file handle with its type. -/
def describe (f : FileId) : String := s!"FileId({f.index})"

end FileId

/-! ## Platform and kind -/

/-- The compilation target of a file. -/
inductive TargetPlatform where
  | jvm
  | js
  | native
  | wasm
  /-- Platform-neutral code that several targets share. -/
  | common
deriving DecidableEq

/-- A file targets the JVM unless something else is said. -/
instance : Inhabited TargetPlatform := ⟨.jvm⟩

/-- Whether the classes of a platform expose their raw fields to the debugger. -/
def TargetPlatform.supportsFieldAccess : TargetPlatform → Bool
  | .jvm | .common => true
  | .js | .native | .wasm => false

/-- What a file is. -/
inductive FileKind where
  | regular
  /-- A snippet that the debugger compiled; `runtimeTyped` tells that it is evaluated against the
  runtime type of its receiver. -/
  | fragment (runtimeTyped : Bool)
deriving DecidableEq

/-- A file is a regular one unless something else is said. -/
instance : Inhabited FileKind := ⟨.regular⟩

/-- Whether a file is a snippet that is evaluated against the runtime type of its receiver. -/
def FileKind.isRuntimeFragment : FileKind → Bool
  | .fragment runtimeTyped => runtimeTyped
  | .regular => false

/-! ## The facts about one file -/

/-- What is known about a registered file. -/
structure FileInfo where
  /-- The path as it was first written. -/
  path : String
  /-- The platform the file is compiled for. -/
  platform : TargetPlatform
  /-- Whether the file is a snippet. -/
  kind : FileKind
  /-- False once the file has been deleted or replaced. -/
  isValid : Bool
deriving DecidableEq

namespace FileInfo

/-- A newly registered file is a valid, regular one for the default platform. -/
def new (path : String) : FileInfo := ⟨path, default, default, true⟩

variable (path : String)

@[simp]
theorem path_new : (new path).path = path := rfl

@[simp]
theorem platform_new : (new path).platform = .jvm := rfl

@[simp]
theorem kind_new : (new path).kind = .regular := rfl

@[simp]
theorem isValid_new : (new path).isValid = true := rfl

/-- Whether code in the file may see raw fields: the file is valid, its platform exposes fields,
and it is a snippet evaluated against the runtime type. -/
def exposesFields (f : FileInfo) : Bool :=
  f.isValid && f.platform.supportsFieldAccess && f.kind.isRuntimeFragment

end FileInfo

end BackingFields
