import BackingFields.Proofs.Hierarchy.Invariant

set_option relaxedAutoImplicit false
set_option autoImplicit false

/-!
# What an exposure exposes

An exposure answers with names, and a query compares them with the names of fields.  Behind both are
texts: the name of a field is exposed on a class exactly when its text is, whatever has been
interned in between.

## Main definitions

* `BackingFields.FixedNames.BuiltOver` — a table of fixed names that a host has listed for a
  hierarchy, bit by bit.
* `BackingFields.Exposure.Exposes` — the exposures of the library, with the texts that each exposes
  on a class.

## Main results

* `BackingFields.Exposure.Exposes.contains_iff` — a known name is exposed exactly when its text is.

## Design notes

A host may list names for a class at any time and go on to use the hierarchy before it lists more.
What it has listed is therefore kept per class beside the table of names, and compared through the
names that the hierarchy has issued.
-/

namespace BackingFields

/-! ## Interned texts -/

/-- The names of several texts are those that the texts have afterwards. -/
theorem NameM.mem_run_internAll_iff (texts : List String) (t : NameTable) (n : Name) :
    n ∈ ((internAll texts).run t).1 ↔ ∃ s ∈ texts, (t.internAll texts).find? s = some n := by
  induction texts generalizing t with
  | nil => simp
  | cons s texts ih =>
    have hs : ((t.intern s).2.internAll texts).find? s = some (t.intern s).1 :=
      NameTable.GrowsTo.find?_eq_some ⟨texts, rfl⟩ (t.find?_intern_self s)
    simp [ih, hs, eq_comm]

/-! ## Names listed by the host -/

namespace FixedNames

/-- A host has built a table of fixed names over a hierarchy, and has listed these texts for each
class.  Whatever else it has asked of the hierarchy in between makes no difference. -/
inductive BuiltOver : Hierarchy → FixedNames → (ClassId → List String) → Prop
  | empty (h : Hierarchy) : BuiltOver h ∅ fun _ => []
  | add {h : Hierarchy} {f : FixedNames} {listed : ClassId → List String}
      (built : BuiltOver h f listed) (id : ClassId) (texts : List String) :
      BuiltOver (h.query (f.add id texts)).2 (h.query (f.add id texts)).1
        fun i => if i = id then listed i ++ texts else listed i
  | later {h : Hierarchy} {f : FixedNames} {listed : ClassId → List String}
      (built : BuiltOver h f listed) (op : Operation) : BuiltOver (op.apply h) f listed

/-- Listing names for a class adds their names to it and to no other. -/
theorem mem_namesOf_add (f : FixedNames) (id i : ClassId) (texts : List String) (t : NameTable)
    (n : Name) : n ∈ (((f.add id texts).run t).1).namesOf i ↔
      n ∈ f.namesOf i ∨ i = id ∧ n ∈ ((NameM.internAll texts).run t).1 := by
  have hadd : ((f.add id texts).run t).1 =
      f.insert id ((f.namesOf id).insertMany ((NameM.internAll texts).run t).1) := rfl
  rw [hadd, namesOf, Std.TreeMap.getElem?_insert]
  by_cases hi : i = id
  · subst hi
    simp [Std.TreeSet.mem_insertMany_list]
  · have hne : ¬ compare id i = .eq := fun h => hi (Std.LawfulEqOrd.eq_of_compare h).symm
    simp [hne, hi, namesOf]

/-- A table of fixed names holds the names of some texts for each class. -/
structure NamedBy (names : NameTable) (f : FixedNames) (listed : ClassId → List String) : Prop where
  /-- Each text has a name. -/
  known : ∀ id, ∀ s ∈ listed id, ∃ n, names.find? s = some n
  /-- The names for a class are those of its texts. -/
  mem_namesOf_iff : ∀ id n, n ∈ f.namesOf id ↔ ∃ s ∈ listed id, names.find? s = some n

/-- A table of fixed names stays right when more texts are interned. -/
theorem NamedBy.growsTo {names names' : NameTable} {f : FixedNames} {listed : ClassId → List String}
    (h : f.NamedBy names listed) (hgrow : names.GrowsTo names') : f.NamedBy names' listed where
  known id s hs := by
    obtain ⟨n, hn⟩ := h.known id s hs
    exact ⟨n, hgrow.find?_eq_some hn⟩
  mem_namesOf_iff id n := by
    rw [h.mem_namesOf_iff]
    refine exists_congr fun s => and_congr_right fun hs => ⟨hgrow.find?_eq_some, fun hn => ?_⟩
    -- the text has been interned before, so it had this name already
    obtain ⟨n', hn'⟩ := h.known id s hs
    rw [hgrow.find?_eq_some hn'] at hn
    rw [hn', hn]

/-- Listing names for a class adds its texts to those of the class. -/
theorem NamedBy.add {names : NameTable} {f : FixedNames} {listed : ClassId → List String}
    (h : f.NamedBy names listed) (id : ClassId) (texts : List String) :
    (((f.add id texts).run names).1).NamedBy ((f.add id texts).run names).2
      fun i => if i = id then listed i ++ texts else listed i := by
  have hgrow : names.GrowsTo ((f.add id texts).run names).2 := f.onlyInterns_add id texts names
  have htable : ((f.add id texts).run names).2 = names.internAll texts :=
    NameM.snd_run_internAll texts names
  have hold := h.growsTo hgrow
  refine ⟨fun i s hs => ?_, fun i n => ?_⟩
  · by_cases hi : i = id
    · rw [if_pos hi, List.mem_append] at hs
      rcases hs with hs | hs
      · exact hold.known i s hs
      · rw [htable]
        exact names.exists_find?_internAll hs
    · rw [if_neg hi] at hs
      exact hold.known i s hs
  · rw [mem_namesOf_add, hold.mem_namesOf_iff, NameM.mem_run_internAll_iff, ← htable]
    by_cases hi : i = id
    · simp only [hi, true_and, if_true, List.mem_append, or_and_right, exists_or]
    · simp only [hi, false_and, or_false, if_false]

/-- What a host has listed for a hierarchy is right.

**Proof sketch.** Listing further names keeps the table right, and so does any other operation,
since it only interns. -/
theorem BuiltOver.namedBy {h : Hierarchy} {f : FixedNames} {listed : ClassId → List String}
    (hf : f.BuiltOver h listed) : f.NamedBy h.names listed := by
  induction hf with
  | empty h =>
    exact ⟨fun _ _ hs => absurd hs List.not_mem_nil, fun id n => by simp [namesOf]⟩
  | add built id texts ih => exact ih.add id texts
  | later built op ih => exact ih.growsTo (op.names_apply _)

end FixedNames

/-! ## Exposures and texts -/

/-- The exposures of the library, with the texts that each exposes on a class: the properties that
the accessor methods of the class stand for, or what the host has listed for the class. -/
inductive Exposure.Exposes (h : Hierarchy) : Exposure → (ClassEntry → List String) → Prop
  | accessors : Exposes h .accessors fun c => c.members.methods.filterMap Method.propertyName?
  | fixed {f : FixedNames} {listed : ClassId → List String} (built : f.BuiltOver h listed) :
      Exposes h (.fixed f) fun c => listed c.id

variable {h : Hierarchy} {e : Exposure} {exposed : ClassEntry → List String}

/-- Asking a class for its accessor methods interns what they stand for. -/
theorem Exposure.run_accessors {classes : ClassTable} {id : ClassId} {c : ClassEntry}
    (hc : classes.get? id = some c) (t : NameTable) :
    let texts := c.members.methods.filterMap Method.propertyName?
    (Exposure.accessors classes id).run t =
      (.ofList ((NameM.internAll texts).run t).1, t.internAll texts) := by
  intro texts
  rw [Exposure.accessors_eq hc, ← NameM.snd_run_internAll]
  rfl

/-- An exposure that exposes some texts is one of the library. -/
theorem Exposure.Exposes.builtIn (he : e.Exposes h exposed) : e.BuiltIn := by
  cases he with
  | accessors => exact .accessors
  | fixed built => exact .fixed _

/-- A known name is exposed on a class exactly when its text is.

**Proof sketch.** The exposed names are those of the exposed texts, in the table at the end.  This
table is consistent, and the known name has the same text in it as before. -/
theorem Exposure.Exposes.contains_iff (he : e.Exposes h exposed) {c : ClassEntry}
    (hc : h.classes.get? c.id = some c) {t : NameTable} (hgrow : h.names.GrowsTo t)
    (hconsistent : ((e h.classes c.id).run t).2.Consistent) {n : Name} {s : String}
    (hn : h.names.text? n = some s) :
    ((e h.classes c.id).run t).1.contains n = true ↔ s ∈ exposed c := by
  have hgrow' := hgrow.trans (he.builtIn.onlyInterns h.classes c.id t)
  -- the name belongs to the text and to no other
  have huniq (s' : String) :
      ((e h.classes c.id).run t).2.find? s' = some n ↔ s' = s := by
    rw [hconsistent, hgrow'.text?_eq_some hn, Option.some_inj, eq_comm]
  cases he with
  | accessors =>
    rw [Exposure.run_accessors hc] at huniq ⊢
    rw [Std.TreeSet.contains_ofList, List.contains_iff_mem, NameM.mem_run_internAll_iff]
    simp [huniq]
  | @fixed f _ built =>
    have hnamed := built.namedBy.growsTo hgrow
    rw [Exposure.run_fixed] at huniq ⊢
    rw [← Std.TreeSet.mem_iff_contains, hnamed.mem_namesOf_iff]
    simp [huniq]

end BackingFields
