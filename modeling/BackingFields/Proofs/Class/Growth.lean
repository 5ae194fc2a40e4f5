import BackingFields.Hierarchy
import BackingFields.Proofs.Class.Acceptance

set_option relaxedAutoImplicit false
set_option autoImplicit false

/-!
# How a table of classes grows

Classes are added behind the others and never changed, so what a table tells about a handle or a
qualified name stays true.  Only a handle or a name that the table did not know may be answered
differently later.

## Main definitions

* `BackingFields.ClassTable.GrowsTo` — a table answers whatever another one does.
* `BackingFields.Hierarchy.GrowsTo` — the same for a hierarchy, its names included.

## Main results

* `BackingFields.ClassTable.growsTo_push` — adding an accepted class makes a table grow.
-/

namespace BackingFields

namespace ClassTable

variable {t t' t'' : ClassTable}

/-- A table knows every class and every class name of another, with the same answers. -/
structure GrowsTo (t t' : ClassTable) : Prop where
  /-- A handle keeps its class. -/
  get?_eq_some : ∀ {id c}, t.get? id = some c → t'.get? id = some c
  /-- A qualified name keeps its handle. -/
  named?_eq_some : ∀ {qualifiedName id}, t.named? qualifiedName = some id →
    t'.named? qualifiedName = some id

/-- Every table knows its own classes. -/
@[simp]
theorem GrowsTo.refl (t : ClassTable) : t.GrowsTo t := ⟨id, id⟩

/-- Growing twice is growing. -/
theorem GrowsTo.trans (h : t.GrowsTo t') (h' : t'.GrowsTo t'') : t.GrowsTo t'' :=
  ⟨fun hid => h'.get?_eq_some (h.get?_eq_some hid),
    fun hname => h'.named?_eq_some (h.named?_eq_some hname)⟩

/-- A known handle lies before the end of its table. -/
theorem lt_size_of_get?_eq_some {id : ClassId} {c : ClassEntry} (h : t.get? id = some c) :
    id.index.toNat < t.size :=
  (Array.getElem?_eq_some_iff.mp h).1

/-- A handle before the end of a table is known. -/
theorem exists_get?_of_lt_size {id : ClassId} (h : id.index.toNat < t.size) :
    ∃ c, t.get? id = some c :=
  ⟨_, Array.getElem?_eq_getElem h⟩

/-- Adding an accepted class leaves all others, and their names, as they are. -/
theorem growsTo_push {d : ClassDecl} {names : NameTable} {c : ClassEntry}
    (h : d.AcceptedAs t names c) : t.GrowsTo (t.push c) where
  get?_eq_some hid := by
    rw [get?_push, if_neg (Nat.ne_of_lt (lt_size_of_get?_eq_some hid))]
    exact hid
  named?_eq_some hname := by
    rw [named?_push, h.qualifiedName_eq, if_neg]
    · exact hname
    · rintro rfl
      rw [h.isFree] at hname
      cases hname

end ClassTable

namespace Hierarchy

variable {h h' h'' : Hierarchy}

/-- A hierarchy knows every class and every name of another. -/
structure GrowsTo (h h' : Hierarchy) : Prop where
  classes : h.classes.GrowsTo h'.classes
  names : h.names.GrowsTo h'.names

/-- Every hierarchy knows its own classes and names. -/
@[simp]
theorem GrowsTo.refl (h : Hierarchy) : h.GrowsTo h := ⟨.refl _, .refl _⟩

/-- Growing twice is growing. -/
theorem GrowsTo.trans (g : h.GrowsTo h') (g' : h'.GrowsTo h'') : h.GrowsTo h'' :=
  ⟨g.classes.trans g'.classes, g.names.trans g'.names⟩

end Hierarchy

end BackingFields
