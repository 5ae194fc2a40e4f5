set_option relaxedAutoImplicit false
set_option autoImplicit false

/-!
# Paths, compared by their components

Two path texts mean the same file when they have the same components.  Repeated and trailing
slashes do not matter, nor does a `.` anywhere but at the start of a relative path; a `..` is an
ordinary component, for the directory it leaves may be a link.

## Main definitions

* `BackingFields.PathKey` — the components of a path, the key under which a file is registered.
* `BackingFields.PathKey.ofText` — the key of a path text.

## Design notes

The root of an absolute path is the component `/`, which no cut at slashes can produce, so an
absolute path and the relative path with the same names have different keys.
-/

namespace BackingFields

/-- The components of a path, from the outermost on. -/
abbrev PathKey := List String

namespace PathKey

/-- What a path starts from: the root, the current directory when it is named, or nothing. -/
def anchor : List Char → PathKey
  | '/' :: _ => ["/"]
  | ['.'] => ["."]
  | '.' :: '/' :: _ => ["."]
  | _ => []

/-- Whether a piece between slashes names anything: it is neither empty nor a single dot. -/
def isNamed (piece : List Char) : Bool := piece != [] && piece != ['.']

/-- The components of a path text. -/
def ofText (path : String) : PathKey :=
  let chars := path.toList
  anchor chars ++ ((chars.splitOn '/').filter isNamed).map String.ofList

example : ofText "/usr//lib/./x/" = ofText "/usr/lib/x" := by decide

example : ofText "./x" ≠ ofText "x" ∧ ofText "/x" ≠ ofText "x" := by decide

example : ofText "a/../b" = ["a", "..", "b"] := by decide

end PathKey

end BackingFields
