set_option relaxedAutoImplicit false
set_option autoImplicit false

/-!
# Ranges of a text

## Main definitions

* `BackingFields.TextRange` — a range of positions in a file, whose end is never before its start.
* `BackingFields.TextRange.ofBounds?` — the range between two positions, if they are in order.
-/

namespace BackingFields

/-- A range of positions in a text. -/
structure TextRange where
  /-- The position of the first character. -/
  start : UInt32
  /-- The position behind the last character. -/
  stop : UInt32
  /-- A range does not end before it starts. -/
  start_le_stop : start ≤ stop
deriving DecidableEq

namespace TextRange

/-- The empty range at the start of a text. -/
def zero : TextRange := ⟨0, 0, by decide⟩

instance : Inhabited TextRange := ⟨zero⟩

/-- The range between two positions; there is none if the second lies before the first. -/
def ofBounds? (start stop : UInt32) : Option TextRange :=
  if h : start ≤ stop then some ⟨start, stop, h⟩ else none

/-- Only two positions out of order bound no range. -/
theorem ofBounds?_eq_none_iff {start stop : UInt32} :
    ofBounds? start stop = none ↔ stop < start := by
  simp [ofBounds?]

end TextRange

end BackingFields
