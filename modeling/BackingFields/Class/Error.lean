import BackingFields.Class.Members

set_option relaxedAutoImplicit false
set_option autoImplicit false

/-!
# What can go wrong with classes

## Main definitions

* `BackingFields.DeclarationError` — why a class was not added to a hierarchy.
* `BackingFields.ResolveError` — why the fields of a class could not be listed.

Each error carries the texts and handles that its `message` shows.
-/

namespace BackingFields

/-- Why a class was not added to a hierarchy. -/
inductive DeclarationError where
  /-- The class name is no path of identifiers. -/
  | invalidClassName (className : String)
  /-- The field name breaks the rules of the representation. -/
  | invalidFieldName (className field : String)
  /-- The method name breaks the rules of compiled classes. -/
  | invalidMethodName (className method : String)
  /-- The type parameter is no identifier. -/
  | invalidTypeParam (className param : String)
  /-- Every class handle has been issued. -/
  | tooManyClasses (className : String)
  /-- A class of this name exists. -/
  | duplicateClass (className : String)
  /-- The class lists two fields of this name. -/
  | duplicateField (className field : String)
  /-- The superclass is not in the hierarchy. -/
  | unknownSuperclass (className : String) (superclass : ClassId)
deriving DecidableEq

/-- The text of an error for the host. -/
def DeclarationError.message : DeclarationError → String
  | .invalidClassName c => s!"invalid class name `{c}`"
  | .invalidFieldName c f => s!"invalid field name `{f}` in class `{c}`"
  | .invalidMethodName c m => s!"invalid method name `{m}` in class `{c}`"
  | .invalidTypeParam c p => s!"invalid type parameter `{p}` in class `{c}`"
  | .tooManyClasses c => s!"cannot declare `{c}`: the graph is full"
  | .duplicateClass c => s!"class `{c}` is already declared"
  | .duplicateField c f => s!"field `{f}` is declared twice in class `{c}`"
  | .unknownSuperclass c s => s!"superclass {s.describe} of `{c}` is not part of this graph"

/-- Why the fields of a class could not be listed.  None of these is the fault of the evaluated
code; the whole query fails rather than answering in part. -/
inductive ResolveError where
  /-- The representation of the class lists no members. -/
  | unsupportedRepresentation (className : String) (kind : ClassKind)
  /-- The class is not in the hierarchy. -/
  | unknownClass (id : ClassId)
  /-- The chain of superclasses of the class is longer than the limit. -/
  | hierarchyTooDeep (className : String) (limit : Nat)
deriving DecidableEq

/-- The text of an error for the host. -/
def ResolveError.message : ResolveError → String
  | .unsupportedRepresentation c kind =>
    s!"class `{c}` has an unsupported representation: {kind.describe}"
  | .unknownClass id => s!"class {id.describe} is not part of this graph"
  | .hierarchyTooDeep c limit => s!"hierarchy of `{c}` is deeper than {limit} classes"

end BackingFields
