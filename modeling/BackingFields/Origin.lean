import BackingFields.Class.Id
import BackingFields.File.Info
import BackingFields.Name.Table
import BackingFields.Text.Range

set_option relaxedAutoImplicit false
set_option autoImplicit false

/-!
# Where a member comes from

## Main definitions

* `BackingFields.Origin` — what a field, and every part of the property made for it, is
  attributed to.
-/

namespace BackingFields

/-- What a member is attributed to. -/
inductive Origin where
  /-- Nothing is known. -/
  | unknown
  /-- A declaration in a source file. -/
  | declared (file : FileId) (range : TextRange)
  /-- A field listed in the metadata of a compiled class. -/
  | compiled (owner : ClassId) (field : Name)
deriving DecidableEq

end BackingFields
