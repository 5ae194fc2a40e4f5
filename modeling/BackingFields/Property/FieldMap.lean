import BackingFields.Property.Basic

set_option relaxedAutoImplicit false
set_option autoImplicit false

/-!
# Properties by field name

The properties found for one class and its superclasses, in the order of discovery.  At most one
property is kept for each field name: the first, which belongs to the nearest class.

## Main definitions

* `BackingFields.FieldMap` — field names with their properties, in order of discovery.
* `BackingFields.FieldMap.offer` — has a property made for a field unless its name is taken.
-/

namespace BackingFields

/-- Properties keyed by field name, in order of discovery. -/
structure FieldMap where
  /-- The field names and their properties. -/
  entries : List (Name × FieldProperty)

namespace FieldMap

/-- The map without properties. -/
def empty : FieldMap := ⟨[]⟩

/-- The field names in order of discovery. -/
def keys (m : FieldMap) : List Name := m.entries.map Prod.fst

/-- The properties in order of discovery. -/
def properties (m : FieldMap) : List FieldProperty := m.entries.map Prod.snd

/-- The property for a field name. -/
def get? (m : FieldMap) (name : Name) : Option FieldProperty := m.entries.lookup name

/-- Whether a field name has a property. -/
def contains (m : FieldMap) (name : Name) : Bool := m.entries.any fun entry => entry.1 == name

/-- Adds a property behind the others. -/
def push (m : FieldMap) (name : Name) (property : FieldProperty) : FieldMap :=
  ⟨m.entries ++ [(name, property)]⟩

/-- Keeps the property that is made for a field, unless a nearer class has a property of its name;
then the field is shadowed and no property is made for it. -/
def offer (m : FieldMap) (name : Name) (make : NameM FieldProperty) : NameM FieldMap :=
  if m.contains name then return m
  else do
    let property ← make
    return m.push name property

variable {m : FieldMap} {name : Name}

/-! ### Small facts -/

@[simp]
theorem keys_empty : empty.keys = [] := rfl

@[simp]
theorem get?_empty (name : Name) : empty.get? name = none := rfl

/-- A new property comes behind the others. -/
@[simp]
theorem keys_push (m : FieldMap) (name : Name) (property : FieldProperty) :
    (m.push name property).keys = m.keys ++ [name] := by
  simp [keys, push]

/-- A list of one pair has its name as its only key. -/
theorem lookup_singleton {α : Type} (name : Name) (a : α) (n : Name) :
    [(name, a)].lookup n = if n = name then some a else none := by
  by_cases hn : n = name
  · simp [hn]
  · have hbeq : (n == name) = false := by simpa using hn
    simp [List.lookup_cons, hn, hbeq]

/-- A new property is found under its name unless an earlier one is. -/
@[simp]
theorem get?_push (m : FieldMap) (name : Name) (property : FieldProperty) (n : Name) :
    (m.push name property).get? n = (m.get? n).or (if n = name then some property else none) := by
  rw [get?, get?, push, List.lookup_append, lookup_singleton]

/-- A field name has a property exactly when it is among the keys. -/
@[simp]
theorem contains_iff_mem_keys : m.contains name = true ↔ name ∈ m.keys := by
  simp [contains, keys]

/-- A field whose name is taken changes neither the map nor the names. -/
theorem run_offer_of_mem (h : name ∈ m.keys) (make : NameM FieldProperty) (names : NameTable) :
    (m.offer name make).run names = (m, names) := by
  rw [offer, if_pos (contains_iff_mem_keys.mpr h)]
  rfl

/-- A field of a new name has its property made and kept behind the others. -/
theorem run_offer_of_notMem (h : name ∉ m.keys) (make : NameM FieldProperty) (names : NameTable) :
    (m.offer name make).run names =
      (m.push name (make.run names).1, (make.run names).2) := by
  rw [offer, if_neg (mt contains_iff_mem_keys.mp h)]
  rfl

end FieldMap

end BackingFields
