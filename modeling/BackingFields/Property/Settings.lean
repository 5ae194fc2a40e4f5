set_option relaxedAutoImplicit false
set_option autoImplicit false

/-!
# Settings

## Main definitions

* `BackingFields.Settings` — the depth limit and the descriptions of origins that a host may
  change.
-/

namespace BackingFields

/-- What a host may tune. -/
structure Settings where
  /-- How many classes a climb may visit. -/
  depthLimit : Nat := 256
  /-- The description of fields of source classes. -/
  backingLabel : String := "backing field"
  /-- The description of fields of compiled classes. -/
  externalLabel : String := "external field"
deriving DecidableEq

instance : Inhabited Settings := ⟨{}⟩

end BackingFields
