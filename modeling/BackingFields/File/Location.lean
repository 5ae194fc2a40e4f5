import BackingFields.File.Registry
import BackingFields.Text.Range

set_option relaxedAutoImplicit false
set_option autoImplicit false

/-!
# Lookup locations and the applicability gate

A lookup of a name says where it comes from.  Raw fields are visible only from code that the
debugger evaluates against runtime types, which the gate reads off the file of the location.

## Main definitions

* `BackingFields.Location` — where a lookup happens.
* `BackingFields.FileRegistry.isApplicable` — whether a lookup may see raw fields.
-/

namespace BackingFields

/-- Where a lookup happens. -/
inductive Location where
  /-- The lookup is not tied to any code. -/
  | unplaced
  /-- A synthetic scope looks something up on its own behalf. -/
  | syntheticScope
  /-- The lookup comes from an element of evaluated or edited code, which may have been detached
  from its file. -/
  | element (file : Option FileId) (range : TextRange)
deriving DecidableEq

/-- The file that a lookup comes from. -/
def Location.file? : Location → Option FileId
  | .element file _ => file
  | .unplaced | .syntheticScope => none

/-- Whether a lookup may see raw fields: it comes from a live file whose facts allow it. -/
def FileRegistry.isApplicable (r : FileRegistry) (location : Location) : Bool :=
  (location.file?.bind r.info?).any FileInfo.exposesFields

/-- A lookup may see raw fields exactly when its file is live and exposes them. -/
theorem FileRegistry.isApplicable_iff {r : FileRegistry} {location : Location} :
    r.isApplicable location = true ↔
      ∃ file info, location.file? = some file ∧ r.info? file = some info ∧
        info.exposesFields = true := by
  simp [isApplicable, Option.any_eq_true, Option.bind_eq_some_iff]
  grind

end BackingFields
