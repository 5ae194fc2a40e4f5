import BackingFields.File.Location
import BackingFields.Property.Synthesizer

set_option relaxedAutoImplicit false
set_option autoImplicit false

/-!
# The scope of field properties

What evaluated code sees: the properties of the types at hand, provided that the lookup comes from
code that may see raw fields at all.

## Main definitions

* `BackingFields.Synthesizer.properties` — all properties of some receiver types.
* `BackingFields.Synthesizer.propertiesNamed` — those with a given symbol name.
-/

namespace BackingFields.Synthesizer

/-- The properties of some receiver types, in the order of the receivers.  A receiver that is no
class type has none.  Each receiver is climbed on its own, so two that share a superclass both
report its fields, and the first failure is the answer.  Where raw fields may not be seen there
are no properties, whatever the receivers. -/
def properties (s : Synthesizer) (classes : ClassTable) (files : FileRegistry)
    (receivers : List Ty) (location : Location) : ResolveM (List FieldProperty) :=
  if files.isApplicable location then do
    let maps ← (receivers.filterMap Ty.classId?).mapM (s.collect classes)
    return maps.flatMap FieldMap.properties
  else return []

/-- The properties of some receiver types whose symbol name is `text`, as evaluated code writes
it. -/
def propertiesNamed (s : Synthesizer) (classes : ClassTable) (files : FileRegistry)
    (receivers : List Ty) (location : Location) (text : String) :
    ResolveM (List FieldProperty) := do
  let found ← s.properties classes files receivers location
  let names ← get
  return found.filter fun p => names.display p.name == text

end BackingFields.Synthesizer
