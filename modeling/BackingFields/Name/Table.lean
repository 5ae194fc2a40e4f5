import Std.Data.TreeMap
import Std.Data.TreeSet

set_option relaxedAutoImplicit false
set_option autoImplicit false

/-!
# Names and the table that issues them

Field and symbol names are compared at every step of a climb through a class hierarchy, so each
text is stored once, in a `NameTable`, and handled as a small `Name` afterwards.  Names are issued
in the order of first interning, and that order can be observed: a name shows its index.

## Main definitions

* `BackingFields.Name` — the position of a text in the table that issued it.
* `BackingFields.NameTable` — the texts in order of first interning, with the index back from a
  text to its name.
* `BackingFields.NameTable.intern`, `find?`, `text?`, `display` — issuing and reading names.
* `BackingFields.NameM` — computations that read and extend a name table.

## Design notes

An index is a 32-bit word and is cut to that width when it is issued, so two texts of one table
have different names only while the table holds fewer than `2 ^ 32` texts.
-/

namespace BackingFields

/-! ## Names -/

/-- A text by its position in the table that issued it. -/
structure Name where
  /-- The position, counted from zero. -/
  index : UInt32
deriving DecidableEq, Inhabited

namespace Name

/-- Names are ordered by their index. -/
instance : Ord Name := ⟨compareOn Name.index⟩

instance : Std.TransOrd Name := inferInstanceAs (Std.TransCmp (compareOn Name.index))

instance : Std.LawfulEqOrd Name where
  eq_of_compare {a b} h := by
    have h : compare a.index b.index = .eq := h
    cases a
    cases b
    simpa using Std.LawfulEqOrd.eq_of_compare h

/-- The text of a name as a bare handle, without its table. -/
def describe (n : Name) : String := s!"Name({n.index})"

end Name

/-- A set of names, listed by rising index. -/
abbrev NameSet := Std.TreeSet Name

/-! ## The table -/

/-- The texts that have been interned, and the name of each. -/
structure NameTable where
  /-- The texts in the order of first interning. -/
  texts : Array String
  /-- The name of each text. -/
  names : Std.TreeMap String Name

namespace NameTable

/-- The table without texts. -/
def empty : NameTable := ⟨#[], ∅⟩

instance : Inhabited NameTable := ⟨empty⟩

/-- How many texts the table holds. -/
def size (t : NameTable) : Nat := t.texts.size

/-- The name of a text that has been interned. -/
def find? (t : NameTable) (s : String) : Option Name := t.names[s]?

/-- The text of a name, unless another table issued it. -/
def text? (t : NameTable) (n : Name) : Option String := t.texts[n.index.toNat]?

/-- The text of a name for messages; a name of another table shows as `<?>`. -/
def display (t : NameTable) (n : Name) : String := (t.text? n).getD "<?>"

/-- The name of a text.  A new text is stored behind the others and gets the next index. -/
def intern (t : NameTable) (s : String) : Name × NameTable :=
  match t.find? s with
  | some n => (n, t)
  | none =>
    let n : Name := ⟨t.size.toUInt32⟩
    (n, ⟨t.texts.push s, t.names.insert s n⟩)

/-- A one-line summary of the table, which tells its size only. -/
def describe (t : NameTable) : String := "Interner \x7b count: " ++ toString t.size ++ " \x7d"

/-! ### Small facts -/

@[simp]
theorem find?_empty (s : String) : empty.find? s = none := by
  simp [empty, find?]

@[simp]
theorem text?_empty (n : Name) : empty.text? n = none := by
  simp [empty, text?]

/-- A name with a text is displayed by it. -/
theorem display_of_text?_eq_some {t : NameTable} {n : Name} {s : String} (h : t.text? n = some s) :
    t.display n = s := by
  rw [display, h, Option.getD_some]

/-- Interning a known text issues its name and changes nothing. -/
theorem intern_of_find?_eq_some {t : NameTable} {s : String} {n : Name} (h : t.find? s = some n) :
    t.intern s = (n, t) := by
  simp [intern, h]

/-- The texts after interning are the texts before, with a new text at the end. -/
theorem texts_intern (t : NameTable) (s : String) :
    (t.intern s).2.texts = if (t.find? s).isSome then t.texts else t.texts.push s := by
  unfold intern
  split <;> simp_all

/-- A table grows by one text when a new one is interned. -/
@[simp]
theorem size_intern (t : NameTable) (s : String) :
    (t.intern s).2.size = if (t.find? s).isSome then t.size else t.size + 1 := by
  rw [size, texts_intern]
  split
  · rfl
  · exact Array.size_push s

/-- A new text is read back from the first free position, and all others stay where they are. -/
@[simp]
theorem text?_intern (t : NameTable) (s : String) (n : Name) :
    (t.intern s).2.text? n =
      if t.find? s = none ∧ n.index.toNat = t.size then some s else t.text? n := by
  rw [text?, texts_intern]
  cases t.find? s with
  | some m => simp [text?]
  | none =>
    simp only [Option.isSome_none, Bool.false_eq_true, if_false, true_and]
    exact Array.getElem?_push

/-- An interned text is found under the name that was issued for it. -/
@[simp]
theorem find?_intern_self (t : NameTable) (s : String) :
    (t.intern s).2.find? s = some (t.intern s).1 := by
  unfold intern
  split
  · assumption
  · simp [find?]

/-- Interning one text leaves the names of all others alone. -/
@[simp]
theorem find?_intern_of_ne (t : NameTable) {s r : String} (h : s ≠ r) :
    (t.intern s).2.find? r = t.find? r := by
  unfold intern
  split
  · rfl
  · simp [find?, Std.TreeMap.getElem?_insert, h]

end NameTable

/-! ## Computations over a table -/

/-- A computation that reads and extends a name table. -/
abbrev NameM := StateM NameTable

/-- A value is a computation that gives it and leaves the table alone. -/
instance {α : Type} : CoeTail α (NameM α) := ⟨pure⟩

namespace NameM

/-- The name of a text, issued if it is new. -/
def intern (s : String) : NameM Name := modifyGet fun t => t.intern s

/-- The names of several texts, issued in their order. -/
def internAll (texts : List String) : NameM (List Name) := texts.mapM intern

/-- The text of a name in the table at hand. -/
def display (n : Name) : NameM String := do
  return (← get).display n

@[simp]
theorem run_intern (s : String) (t : NameTable) : (intern s).run t = t.intern s := rfl

@[simp]
theorem run_display (n : Name) (t : NameTable) : (display n).run t = (t.display n, t) := rfl

end NameM

end BackingFields
