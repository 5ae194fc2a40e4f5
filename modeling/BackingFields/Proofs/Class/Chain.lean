import BackingFields.Class.Climb
import BackingFields.Proofs.Class.WellFormed

set_option relaxedAutoImplicit false
set_option autoImplicit false

/-!
# Chains of superclasses

A class of a well-formed table and its superclasses up to but without the root form a chain, which
ends because every superclass was declared before its subclasses.  A climb goes along this chain:
all that it does follows from the list of classes and the limit.

## Main definitions

* `BackingFields.ClassTable.Chain` — a class and its superclasses, from the class upwards.
* `BackingFields.Climb.along` — the climb along a list of classes.

## Main results

* `BackingFields.ClassTable.WellFormed.exists_chain` — every class of a well-formed table has a
  chain.
* `BackingFields.ClassTable.climb_eq_along` — a climb goes along the chain of its start.
* `BackingFields.Climb.visited_along`, `BackingFields.Climb.fault_along` — what such a climb visits,
  and what stops it.
-/

namespace BackingFields

/-! ## Chains -/

/-- Whether the metadata of a class was never loaded. -/
def ClassEntry.isUnloaded (c : ClassEntry) : Bool := c.kind == .unloaded

namespace ClassTable

/-- The classes from one on upwards, up to but without the root. -/
inductive Chain (t : ClassTable) : ClassId → List ClassEntry → Prop where
  | root : Chain t .root []
  | step {id s : ClassId} {c : ClassEntry} {chain : List ClassEntry} (notRoot : id ≠ .root)
      (entry : t.get? id = some c) (superclass : c.superclass = some s) (rest : Chain t s chain) :
      Chain t id (c :: chain)

variable {t t' : ClassTable} {id : ClassId} {chain chain' : List ClassEntry}

/-- A class has only one chain. -/
theorem Chain.unique (h : t.Chain id chain) (h' : t.Chain id chain') : chain = chain' := by
  induction h generalizing chain' with
  | root =>
    cases h' with
    | root => rfl
    | step notRoot => exact absurd rfl notRoot
  | step notRoot entry superclass rest ih =>
    cases h' with
    | root => exact absurd rfl notRoot
    | step notRoot' entry' superclass' rest' =>
      rw [entry] at entry'
      cases entry'
      rw [superclass] at superclass'
      cases superclass'
      rw [ih rest']

/-- A class keeps its chain when its table grows. -/
theorem Chain.growsTo (h : t.Chain id chain) (hgrow : t.GrowsTo t') : t'.Chain id chain := by
  induction h with
  | root => exact .root
  | step notRoot entry superclass rest ih =>
    exact .step notRoot (hgrow.get?_eq_some entry) superclass ih

/-- Every class of a well-formed table has a chain.

**Proof sketch.** Strong induction on the position: the superclass of a class that is not the root
lies at a smaller position, hence is in the table and has a chain. -/
theorem WellFormed.exists_chain (h : t.WellFormed) {c : ClassEntry} (hc : t.get? id = some c) :
    ∃ chain, t.Chain id chain := by
  induction hi : id.index.toNat using Nat.strongRecOn generalizing id c with
  | _ i ih =>
  subst hi
  by_cases hroot : id = .root
  · exact ⟨[], hroot ▸ .root⟩
  · have hpos : 0 < id.index.toNat := by
      exact Nat.pos_of_ne_zero fun hzero => hroot (ClassId.eq_of_toNat_index_eq hzero)
    obtain ⟨s, hs, hlt⟩ := h.superclass_lt hc hpos
    obtain ⟨c', hc'⟩ := exists_get?_of_lt_size (Nat.lt_trans hlt (lt_size_of_get?_eq_some hc))
    obtain ⟨chain, hchain⟩ := ih _ hlt hc' rfl
    exact ⟨c :: chain, .step hroot hc hs hchain⟩

/-- The classes of a chain are those of the table with their handles. -/
theorem WellFormed.get?_of_mem_chain (h : t.WellFormed) (hchain : t.Chain id chain) :
    ∀ c ∈ chain, t.get? c.id = some c := by
  induction hchain with
  | root => simp
  | step notRoot entry superclass rest ih =>
    intro c hc
    rcases List.mem_cons.mp hc with rfl | hc
    · exact h.get?_id entry
    · exact ih c hc

/-- The root is in no chain. -/
theorem WellFormed.ne_root_of_mem_chain (h : t.WellFormed) (hchain : t.Chain id chain) :
    ∀ c ∈ chain, c.id ≠ .root := by
  induction hchain with
  | root => simp
  | step notRoot entry superclass rest ih =>
    intro c hc
    rcases List.mem_cons.mp hc with rfl | hc
    · rw [h.id_eq entry]
      exact notRoot
    · exact ih c hc

end ClassTable

/-! ## Climbs along a list of classes -/

/-- A class that was never loaded lists no fields. -/
@[simp]
theorem ClassEntry.declaredFields_of_isUnloaded {c : ClassEntry} (h : c.isUnloaded = true) :
    c.declaredFields = .error (.unsupportedRepresentation c.qualifiedName .unloaded) := by
  unfold isUnloaded kind at h
  unfold declaredFields
  cases hm : c.members <;> simp_all

/-- Any other class lists its fields. -/
theorem ClassEntry.exists_declaredFields {c : ClassEntry} (h : c.isUnloaded = false) :
    ∃ fields, c.declaredFields = .ok fields := by
  unfold isUnloaded kind at h
  unfold declaredFields
  cases hm : c.members <;> simp_all

/-- A class that lists its fields is a source class or a compiled one, with these fields. -/
theorem ClassEntry.members_of_declaredFields {c : ClassEntry} {fields : DeclaredFields}
    (h : c.declaredFields = .ok fields) :
    (∃ fs, c.members = .source fs ∧ fields = .source fs) ∨
      ∃ fs methods, c.members = .binary fs methods ∧ fields = .binary fs := by
  unfold declaredFields at h
  cases hm : c.members with
  | source fs =>
    rw [hm] at h
    cases h
    exact .inl ⟨fs, rfl, rfl⟩
  | binary fs methods =>
    rw [hm] at h
    cases h
    exact .inr ⟨fs, methods, rfl, rfl⟩
  | unloaded => simp [hm] at h

namespace Climb

/-- The climb along a list of classes with a number of visits left. -/
@[simp]
def along (tooDeep : ResolveError) : Nat → List ClassEntry → Climb
  | _, [] => .done
  | 0, _ :: _ => .stop tooDeep
  | left + 1, c :: chain =>
    match c.declaredFields with
    | .error fault => .stop fault
    | .ok fields => .cons ⟨c, fields⟩ (along tooDeep left chain)

/-- A climb visits the classes within its limit up to the first that was never loaded. -/
@[simp]
theorem visited_along (tooDeep : ResolveError) (left : Nat) (chain : List ClassEntry) :
    (along tooDeep left chain).visited.map Visit.entry =
      (chain.take left).takeWhile fun c => !c.isUnloaded := by
  induction chain generalizing left with
  | nil => simp
  | cons c chain ih =>
    cases left with
    | zero => simp
    | succ left =>
      cases hc : c.isUnloaded with
      | true => simp [hc]
      | false =>
        obtain ⟨fields, hfields⟩ := c.exists_declaredFields hc
        simp [hfields, hc, ih left]

/-- Every visit comes with the fields that its class declares. -/
theorem declaredFields_of_mem_along {tooDeep : ResolveError} {left : Nat}
    {chain : List ClassEntry} :
    ∀ v ∈ (along tooDeep left chain).visited, v.entry.declaredFields = .ok v.fields := by
  induction chain generalizing left with
  | nil => simp
  | cons c chain ih =>
    cases left with
    | zero => simp
    | succ left =>
      cases hc : c.declaredFields with
      | error fault => simp [hc]
      | ok fields => simpa [hc] using ih

/-- A climb is stopped by the first class within its limit that was never loaded, or else by the
limit if the chain is longer. -/
@[simp]
theorem fault_along (tooDeep : ResolveError) (left : Nat) (chain : List ClassEntry) :
    (along tooDeep left chain).fault =
      match (chain.take left).find? ClassEntry.isUnloaded with
      | some c => some (.unsupportedRepresentation c.qualifiedName .unloaded)
      | none => if left < chain.length then some tooDeep else none := by
  induction chain generalizing left with
  | nil => simp
  | cons c chain ih =>
    cases left with
    | zero => simp
    | succ left =>
      cases hc : c.isUnloaded with
      | true => simp [hc]
      | false =>
        obtain ⟨fields, hfields⟩ := c.exists_declaredFields hc
        simp [hfields, hc, ih left]

end Climb

namespace ClassTable

variable {t : ClassTable} {id : ClassId} {chain : List ClassEntry}

/-- The proper superclass of a class is its superclass, or there is none if this is the root. -/
theorem properSuperclass?_eq_ite {s : ClassId} {c : ClassEntry} (hc : t.get? id = some c)
    (hs : c.superclass = some s) :
    t.properSuperclass? id = if s.isRoot then none else some s := by
  simp only [properSuperclass?, hc, Option.bind_some, hs, Option.filter_some]
  cases s.isRoot <;> rfl

/-- Climbing on from a class goes along its chain. -/
theorem climbFrom_eq_along (h : t.Chain id chain) (tooDeep : ResolveError) (left : Nat) :
    t.climbFrom tooDeep left (if id.isRoot then none else some id) = .along tooDeep left chain := by
  induction h generalizing left with
  | root => simp
  | @step id s c chain notRoot entry superclass rest ih =>
    rw [if_neg (by simpa using notRoot)]
    cases left with
    | zero => rfl
    | succ left =>
      rw [climbFrom, Climb.along, properSuperclass?_eq_ite entry superclass, ih left, visit, entry]
      cases hc : c.declaredFields <;> simp [hc, Except.map]

/-- A climb goes along the chain of the class that it starts from. -/
theorem climb_eq_along (h : t.Chain id chain) (limit : Nat) :
    t.climb limit id = .along (.hierarchyTooDeep (t.display id) limit) limit chain :=
  climbFrom_eq_along h _ limit

/-- A climb visits only classes of the chain. -/
theorem entry_mem_of_mem_climb (h : t.Chain id chain) {limit : Nat} {v : Visit}
    (hv : v ∈ (t.climb limit id).visited) : v.entry ∈ chain := by
  rw [climb_eq_along h] at hv
  have hmem := List.mem_map_of_mem (f := Visit.entry) hv
  rw [Climb.visited_along] at hmem
  exact List.mem_of_mem_take ((List.takeWhile_sublist _).mem hmem)

/-- Every visit of a climb comes with the fields that its class declares. -/
theorem declaredFields_of_mem_climb (h : t.Chain id chain) {limit : Nat} :
    ∀ v ∈ (t.climb limit id).visited, v.entry.declaredFields = .ok v.fields := by
  rw [climb_eq_along h]
  exact Climb.declaredFields_of_mem_along

end ClassTable

end BackingFields
