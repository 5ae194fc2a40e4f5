import BackingFields.Class.Table

set_option relaxedAutoImplicit false
set_option autoImplicit false

/-!
# Climbing a chain of superclasses

A climb visits a class and its superclasses one after the other, up to but without the root.  It
stops early at a class whose fields cannot be listed, and at the limit on the number of visited
classes.

## Main definitions

* `BackingFields.Climb` — the visited classes, and what stopped the climb before the root.
* `BackingFields.ClassTable.climb` — the climb from a class within a limit.

## Design notes

The limit is tested before the class is looked up: with no visits left, even a class that is not
in the table is reported as too deep.  The limit also makes the recursion structural, though a
chain ends by itself, since every superclass is declared before its subclasses.
-/

namespace BackingFields

/-- A visited class with the fields that it declares itself. -/
structure Visit where
  /-- The class. -/
  entry : ClassEntry
  /-- The fields that it declares. -/
  fields : DeclaredFields

/-- The outcome of climbing a chain of superclasses. -/
structure Climb where
  /-- The visited classes, from the start upwards. -/
  visited : List Visit
  /-- What stopped the climb before it came to the root. -/
  fault : Option ResolveError

namespace Climb

/-- The climb that has arrived at the root. -/
def done : Climb := ⟨[], none⟩

/-- The climb that stops here. -/
def stop (fault : ResolveError) : Climb := ⟨[], some fault⟩

/-- The climb that visits a class first. -/
def cons (visit : Visit) (c : Climb) : Climb := ⟨visit :: c.visited, c.fault⟩

@[simp]
theorem visited_done : done.visited = [] := rfl

@[simp]
theorem fault_done : done.fault = none := rfl

@[simp]
theorem visited_stop (fault : ResolveError) : (stop fault).visited = [] := rfl

@[simp]
theorem fault_stop (fault : ResolveError) : (stop fault).fault = some fault := rfl

@[simp]
theorem visited_cons (visit : Visit) (c : Climb) :
    (cons visit c).visited = visit :: c.visited := rfl

@[simp]
theorem fault_cons (visit : Visit) (c : Climb) : (cons visit c).fault = c.fault := rfl

end Climb

namespace ClassTable

/-- Visits a class, if it is in the table and lists its fields. -/
def visit (t : ClassTable) (id : ClassId) : Except ResolveError Visit :=
  match t.get? id with
  | none => .error (.unknownClass id)
  | some entry => entry.declaredFields.map fun fields => ⟨entry, fields⟩

/-- Climbs on from a class, or is at the root already, with a number of visits left. -/
@[simp]
def climbFrom (t : ClassTable) (tooDeep : ResolveError) : Nat → Option ClassId → Climb
  | _, none => .done
  | 0, some _ => .stop tooDeep
  | left + 1, some id =>
    match t.visit id with
    | .error fault => .stop fault
    | .ok visit => .cons visit (t.climbFrom tooDeep left (t.properSuperclass? id))

/-- Climbs from a class with at most `limit` visits. -/
def climb (t : ClassTable) (limit : Nat) (start : ClassId) : Climb :=
  t.climbFrom (.hierarchyTooDeep (t.display start) limit) limit
    (if start.isRoot then none else some start)

/-- A climb from the root visits nothing and finds no fault, whatever the limit. -/
@[simp]
theorem climb_root (t : ClassTable) (limit : Nat) : t.climb limit .root = .done := by
  simp [climb]

/-- A climb from a class that is not in the table visits nothing: it is stopped there, or by the
limit if this lets it visit no class at all. -/
theorem climb_of_unknown {t : ClassTable} {start : ClassId} (hroot : start ≠ .root)
    (hmissing : t.get? start = none) (limit : Nat) :
    t.climb limit start = .stop (if limit = 0 then .hierarchyTooDeep (t.display start) limit
      else .unknownClass start) := by
  have hstart : start.isRoot = false := by simpa using hroot
  cases limit with
  | zero => simp [climb, hstart]
  | succ limit => simp [climb, visit, hstart, hmissing]

end ClassTable

end BackingFields
