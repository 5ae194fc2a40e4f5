import BackingFields.Proofs.Ty.Soundness

set_option relaxedAutoImplicit false
set_option autoImplicit false

/-!
# Exact types of compiled metadata

Resolving a type drops the arguments of a missing class and replaces arguments that do not fit by
stars.  Where neither can happen, since every class is known and has the right number of arguments,
nothing is lost: the resolved type can be spelled out again, and the two types agree position by
position.

## Main definitions

* `BackingFields.ClassTable.spell` — compiled metadata for a resolved type.
* `BackingFields.BinaryType.at?`, `BackingFields.TypeArg.at?` — what stands at a position of a type.
* `BackingFields.ClassTable.Exact` — a type whose class references all fit the table.

## Main results

* `BackingFields.ClassTable.WellFormed.spellArg_resolveArg` — spelling out undoes resolving.
* `BackingFields.ClassTable.WellFormed.at?_resolveArg` — what stands at a position of a resolved
  type is what stands there in the metadata, resolved.
* `BackingFields.Hierarchy.Reachable.spelled_resolve` — both, in every hierarchy.

## Design notes

A wildcard means a star as an argument and the root class by itself.  The lemmas are therefore about
arguments, where it keeps its meaning, and exclude it only at the end.
-/

namespace BackingFields

/-! ## Spelling out -/

namespace ClassTable

mutual

/-- What compiled metadata says for a resolved type: a class by its qualified name, a type parameter
by its variable and an unresolved class by its name alone. -/
def spell (t : ClassTable) : Ty → BinaryType
  | .primitive p => .primitive p
  | .ofClass id args => .ofClass (t.display id) (t.spellArgs args)
  | .array elem => .array (t.spellArg elem)
  | .param name => .typeVar name
  | .unresolved name => .ofClass name []

/-- What compiled metadata says for a type argument: a wildcard for a star. -/
def spellArg (t : ClassTable) : TypeArg → BinaryType
  | .star => .wildcard
  | .type ty => t.spell ty

/-- What compiled metadata says for some type arguments. -/
def spellArgs (t : ClassTable) : List TypeArg → List BinaryType
  | [] => []
  | arg :: args => t.spellArg arg :: t.spellArgs args

end

/-- Arguments are spelled out one by one. -/
@[simp]
theorem spellArgs_eq_map (t : ClassTable) (args : List TypeArg) :
    t.spellArgs args = args.map t.spellArg := by
  induction args with
  | nil => rfl
  | cons arg args ih => rw [spellArgs, ih, List.map_cons]

end ClassTable

/-! ## Positions -/

/-- What stands at a position of a type of compiled metadata.  A position is the way to it from the
outside, by the numbers of the arguments; the element of an array has the number zero. -/
def BinaryType.at? : BinaryType → List Nat → Option BinaryType
  | b, [] => some b
  | .ofClass _ args, i :: path => args[i]?.bind fun b => b.at? path
  | .array elem, 0 :: path => elem.at? path
  | _, _ :: _ => none

/-- What stands at a position of a type argument, with positions as in compiled metadata. -/
def TypeArg.at? : TypeArg → List Nat → Option TypeArg
  | arg, [] => some arg
  | .type (.ofClass _ args), i :: path => args[i]?.bind fun arg => arg.at? path
  | .type (.array elem), 0 :: path => elem.at? path
  | _, _ :: _ => none

namespace ClassTable

variable {t : ClassTable}

/-! ## Exact types -/

/-- Every class reference at any position of a type names a class of the table and gives an argument
for each of its type parameters. -/
def Knows (t : ClassTable) (b : BinaryType) : Prop :=
  ∀ path name args, b.at? path = some (.ofClass name args) →
    ∃ c ∈ t.entries, c.qualifiedName = name ∧ args.length = c.typeParams.length

/-- A type whose class references all fit the table, and that is no wildcard by itself. -/
structure Exact (t : ClassTable) (b : BinaryType) : Prop where
  knows : t.Knows b
  ne_wildcard : b ≠ .wildcard

/-- The class references of a class type are itself and those of its arguments. -/
@[simp]
theorem knows_ofClass_iff {name : String} {args : List BinaryType} :
    t.Knows (.ofClass name args) ↔
      (∃ c ∈ t.entries, c.qualifiedName = name ∧ args.length = c.typeParams.length) ∧
        ∀ b ∈ args, t.Knows b := by
  constructor
  · refine fun h => ⟨h [] name args rfl, fun b hb path name' args' hat => ?_⟩
    obtain ⟨i, hi⟩ := List.getElem?_of_mem hb
    exact h (i :: path) name' args' (by rw [BinaryType.at?, hi, Option.bind_some, hat])
  · rintro ⟨hself, hargs⟩ path name' args' hat
    cases path with
    | nil =>
      cases hat
      exact hself
    | cons i path =>
      obtain ⟨b, hi, hat⟩ := Option.bind_eq_some_iff.mp hat
      exact hargs b (List.mem_of_getElem? hi) path name' args' hat

/-- The class references of an array type are those of its element. -/
@[simp]
theorem knows_array_iff {elem : BinaryType} : t.Knows (.array elem) ↔ t.Knows elem := by
  constructor
  · exact fun h path name args hat => h (0 :: path) name args hat
  · intro h path name args hat
    match path with
    | [] => cases hat
    | 0 :: path => exact h path name args hat
    | (i + 1) :: path => cases hat

/-- There is no class reference in a wildcard. -/
@[simp]
theorem knows_wildcard (t : ClassTable) : t.Knows .wildcard := by
  intro path name args hat
  cases path <;> cases hat

/-- A class reference that fits the table means a class of its name with the given arguments. -/
theorem WellFormed.exists_resolveArg_eq (ht : t.WellFormed) {name : String}
    {args : List BinaryType}
    (h : ∃ c ∈ t.entries, c.qualifiedName = name ∧ args.length = c.typeParams.length) :
    ∃ id, t.display id = name ∧
      t.resolveArg (.ofClass name args) = .type (.ofClass id (args.map t.resolveArg)) := by
  obtain ⟨c, hc, rfl, hlength⟩ := h
  obtain ⟨i, hi⟩ := Array.getElem?_of_mem hc
  have harity : args.length = t.arity c.id := by
    rw [arity, ht.get?_id hi]
    exact hlength
  refine ⟨c.id, by rw [display, ht.get?_id hi, Option.elim_some], congrArg TypeArg.type ?_⟩
  rw [resolve_ofClass, ht.named?_of_entry hi, Option.elim_some, argumentsOf, if_pos harity]

/-- An argument is a star exactly if it is given as a wildcard. -/
@[simp]
theorem resolveArg_eq_star_iff {b : BinaryType} : t.resolveArg b = .star ↔ b = .wildcard := by
  cases b <;> simp [resolveArg, BinaryType.asArgument]

/-- No argument that stands somewhere in a known type is an unresolved name. -/
theorem WellFormed.resolveArg_ne_unresolved (ht : t.WellFormed) {b b' : BinaryType}
    (h : t.Knows b) {path : List Nat} (hat : b.at? path = some b') (name : String) :
    t.resolveArg b' ≠ .type (.unresolved name) := by
  cases b' with
  | ofClass name' args =>
    obtain ⟨id, -, hresolve⟩ := ht.exists_resolveArg_eq (h path name' args hat)
    rw [hresolve]
    nofun
  | _ => nofun

/-! ## Nothing is lost -/

/-- Spelling out what an argument means gives the argument back.

**Proof sketch.** Induction on the type.  A class reference means a class of its name, and its
arguments are the given ones, each of which is spelled out to itself. -/
theorem WellFormed.spellArg_resolveArg (ht : t.WellFormed) {b : BinaryType} (h : t.Knows b) :
    t.spellArg (t.resolveArg b) = b := by
  induction b using BinaryType.induction with
  | primitive p => rfl
  | typeVar name => rfl
  | wildcard => rfl
  | array elem ih => exact congrArg BinaryType.array (ih (knows_array_iff.mp h))
  | ofClass name args ih =>
    obtain ⟨hfits, hknows⟩ := knows_ofClass_iff.mp h
    obtain ⟨id, hname, hresolve⟩ := ht.exists_resolveArg_eq hfits
    have hargs : ∀ b ∈ args, (t.spellArg ∘ t.resolveArg) b = b := fun b hb =>
      ih b hb (hknows b hb)
    calc t.spellArg (t.resolveArg (.ofClass name args))
        = t.spell (.ofClass id (args.map t.resolveArg)) := by
          rw [hresolve, spellArg]
      _ = .ofClass name args := by
          rw [spell, hname, spellArgs_eq_map, List.map_map, List.map_congr_left hargs, List.map_id']

/-- What stands at a position of a resolved argument is what stands there in the given one,
resolved. -/
theorem WellFormed.at?_resolveArg (ht : t.WellFormed) {b : BinaryType} (h : t.Knows b)
    (path : List Nat) : (t.resolveArg b).at? path = (b.at? path).map t.resolveArg := by
  induction path generalizing b with
  | nil => simp [TypeArg.at?, BinaryType.at?]
  | cons i path ih =>
    cases b with
    | primitive p => rfl
    | typeVar name => rfl
    | wildcard => rfl
    | array elem =>
      cases i with
      | zero => exact ih (knows_array_iff.mp h)
      | succ i => rfl
    | ofClass name args =>
      obtain ⟨hfits, hknows⟩ := knows_ofClass_iff.mp h
      obtain ⟨id, -, hresolve⟩ := ht.exists_resolveArg_eq hfits
      rw [hresolve, TypeArg.at?, BinaryType.at?, List.getElem?_map]
      cases hi : args[i]? with
      | none => rfl
      | some b => exact ih (hknows b (List.mem_of_getElem? hi))

end ClassTable

/-! ## Hierarchies -/

namespace Hierarchy

variable {h : Hierarchy}

/-- **Resolving loses nothing of an exact type.**  A type of compiled metadata whose class
references all name classes of the hierarchy, with as many arguments as these have type parameters,
and that is no wildcard by itself, is spelled out again by its resolved type.  So no two such types
mean the same; and in the resolved type a star stands exactly where a wildcard stood, and an
unresolved name nowhere. -/
theorem Reachable.spelled_resolve (hr : h.Reachable) {b : BinaryType} (hb : h.classes.Exact b) :
    let ty := h.classes.resolve b
    h.classes.spell ty = b ∧
      (∀ b', h.classes.Exact b' → h.classes.resolve b' = ty → b' = b) ∧
      (∀ path, (TypeArg.type ty).at? path = some .star ↔ b.at? path = some .wildcard) ∧
      ∀ path name, (TypeArg.type ty).at? path ≠ some (.type (.unresolved name)) := by
  intro ty
  have hclasses := hr.wellFormed_classes
  have hspell (b : BinaryType) (hb : h.classes.Exact b) :
      h.classes.spell (h.classes.resolve b) = b := by
    have harg := hclasses.spellArg_resolveArg hb.knows
    rwa [ClassTable.resolveArg_eq_type_iff.mpr ⟨hb.ne_wildcard, rfl⟩] at harg
  have hat (path : List Nat) :
      (TypeArg.type ty).at? path = (b.at? path).map h.classes.resolveArg := by
    rw [← hclasses.at?_resolveArg hb.knows,
      ClassTable.resolveArg_eq_type_iff.mpr ⟨hb.ne_wildcard, rfl⟩]
  refine ⟨hspell b hb, fun b' hb' heq => ?_, fun path => ?_, fun path name hunresolved => ?_⟩
  · rw [← hspell b hb, ← hspell b' hb', heq]
  · simp only [hat, Option.map_eq_some_iff, ClassTable.resolveArg_eq_star_iff, exists_eq_right]
  · rw [hat, Option.map_eq_some_iff] at hunresolved
    obtain ⟨b', hb', harg⟩ := hunresolved
    exact hclasses.resolveArg_ne_unresolved hb.knows hb' name harg

/-- An array of boxes of anything is exact where boxes are declared, and its resolved type has its
one star at the argument of the box. -/
theorem boxes_spelled_resolve :
    let b : BinaryType := .array (.ofClass "Box" [.wildcard])
    let ty := boxes.classes.resolve b
    boxes.classes.Exact b ∧ ty = .array (.type (.ofClass ⟨1⟩ [.star])) ∧
      boxes.classes.spell ty = b ∧ (TypeArg.type ty).at? [0, 0] = some .star ∧
      (∀ path name, (TypeArg.type ty).at? path ≠ some (.type (.unresolved name))) := by
  intro b ty
  have hbox : ∃ c ∈ boxes.classes.entries, c.qualifiedName = "Box" ∧ 1 = c.typeParams.length := by
    decide +kernel
  have hexact : boxes.classes.Exact b := by
    refine ⟨ClassTable.knows_array_iff.mpr (ClassTable.knows_ofClass_iff.mpr ⟨hbox, ?_⟩), nofun⟩
    rintro _ (_ | ⟨_, ⟨⟩⟩)
    exact ClassTable.knows_wildcard _
  obtain ⟨hspell, -, hstars, hnone⟩ := Reachable.spelled_resolve boxes_reachable hexact
  exact ⟨hexact, by decide +kernel, hspell, (hstars _).mpr rfl, hnone⟩

end Hierarchy

end BackingFields
