import BackingFields.Proofs.Class.Chain
import BackingFields.Proofs.Hierarchy.Invariant
import Mathlib.Data.List.Find
import Mathlib.Data.List.TakeWhile

set_option relaxedAutoImplicit false
set_option autoImplicit false

/-!
# How a query fails

Three faults can stop a query: a class that was never loaded, a start that is not in the hierarchy,
and a chain of superclasses longer than the limit.  Which one is reported follows from the handles
that a climb comes to, the path of its start, and from the limit.

## Main definitions

* `BackingFields.ClassTable.Path` — the handles that a climb comes to, from its start upwards.
* `BackingFields.ClassTable.firstUnloaded?` — the first class of a path that was never loaded.

## Main results

* `BackingFields.ClassTable.WellFormed.fault_climb` — what stops a climb.
* `BackingFields.Hierarchy.Reachable.outcome_collect` — when a query fails, and how.

## Design notes

The path of a class that is not in the table is the class itself, since a climb comes to it before
it finds it missing.  Further up no class can be missing: every superclass is in the table.
-/

namespace BackingFields

/-! ## Paths -/

namespace ClassTable

/-- The handles that a climb comes to: a class that is not in the table alone, or a class of the
table with its superclasses up to but without the root. -/
inductive Path (t : ClassTable) : ClassId → List ClassId → Prop where
  | unknown {id : ClassId} (notRoot : id ≠ .root) (missing : t.get? id = none) : Path t id [id]
  | known {id : ClassId} {classes : List ClassEntry} (chain : t.Chain id classes) :
      Path t id (classes.map ClassEntry.id)

/-- The first class among some handles that was never loaded. -/
def firstUnloaded? (t : ClassTable) (path : List ClassId) : Option ClassId :=
  path.find? fun id => t.kind? id == some .unloaded

variable {t : ClassTable} {id start : ClassId} {path path' : List ClassId}

/-- The chain of a class that is not the root begins with that class of the table. -/
theorem Chain.exists_entry {chain : List ClassEntry} (h : t.Chain id chain) (hroot : id ≠ .root) :
    ∃ c, t.get? id = some c := by
  cases h with
  | root => exact absurd rfl hroot
  | step notRoot entry superclass rest => exact ⟨_, entry⟩

/-- A class has only one path. -/
theorem Path.unique (h : t.Path id path) (h' : t.Path id path') : path = path' := by
  cases h with
  | unknown notRoot missing =>
    cases h' with
    | unknown => rfl
    | known hchain' =>
      obtain ⟨c, hc⟩ := hchain'.exists_entry notRoot
      rw [missing] at hc
      cases hc
  | known hchain =>
    cases h' with
    | unknown notRoot missing =>
      obtain ⟨c, hc⟩ := hchain.exists_entry notRoot
      rw [missing] at hc
      cases hc
    | known hchain' => rw [hchain.unique hchain']

/-- Every handle has a path in a well-formed table. -/
theorem WellFormed.exists_path (h : t.WellFormed) (id : ClassId) : ∃ path, t.Path id path := by
  by_cases hroot : id = .root
  · exact ⟨[], hroot ▸ .known .root⟩
  · cases hc : t.get? id with
    | none => exact ⟨[id], .unknown hroot hc⟩
    | some c =>
      obtain ⟨chain, hchain⟩ := h.exists_chain hc
      exact ⟨_, .known hchain⟩

/-- The path of a missing class is that class alone. -/
theorem Path.eq_of_unknown (h : t.Path id path) (hroot : id ≠ .root) (hmissing : t.get? id = none) :
    path = [id] :=
  h.unique (.unknown hroot hmissing)

/-! ## Faults -/

/-- A class shows by its qualified name, and by its handle if it is not in the table. -/
theorem eq_display_iff {name : String} : name = t.display id ↔
    (∃ c, t.get? id = some c ∧ name = c.qualifiedName) ∨
      t.get? id = none ∧ name = "ClassId(" ++ toString id.index ++ ")" := by
  rw [display]
  cases t.get? id with
  | none => simp [ClassId.describe, toString]
  | some c => simp

/-- No class that was never loaded lies within the path of a missing class. -/
theorem Path.firstUnloaded?_take_eq_none (h : t.Path id path) (hroot : id ≠ .root)
    (hmissing : t.get? id = none) (limit : Nat) : t.firstUnloaded? (path.take limit) = none := by
  rw [h.eq_of_unknown hroot hmissing]
  cases limit with
  | zero => rfl
  | succ limit => simp [firstUnloaded?, kind?, hmissing]

/-- The first class of a path that was never loaded is in the table. -/
theorem exists_of_firstUnloaded? (h : t.firstUnloaded? path = some id) :
    ∃ c, t.get? id = some c ∧ c.isUnloaded = true := by
  have hkind := List.find?_some h
  simp only [kind?, beq_iff_eq, Option.map_eq_some_iff] at hkind
  obtain ⟨c, hc, hkind⟩ := hkind
  exact ⟨c, hc, by simp [ClassEntry.isUnloaded, hkind]⟩

/-- The first class of a chain that was never loaded is found by its handle. -/
theorem WellFormed.firstUnloaded?_map_id (h : t.WellFormed) {chain : List ClassEntry}
    (hchain : t.Chain start chain) (limit : Nat) :
    t.firstUnloaded? ((chain.map ClassEntry.id).take limit) =
      ((chain.take limit).find? ClassEntry.isUnloaded).map ClassEntry.id := by
  rw [firstUnloaded?, ← List.map_take, List.find?_map]
  congr 1
  refine List.find?_congr fun c hc => ?_
  have hget := h.get?_of_mem_chain hchain c (List.mem_of_mem_take hc)
  simp [kind?, hget, ClassEntry.isUnloaded]

/-- A climb is stopped by the first class within its limit that was never loaded, or else by its
start if that is missing and the limit lets the climb come to it, or else by the limit if the path
is longer.

**Proof sketch.** A missing start is found missing at the first visit, if there is one.  A chain has
no other faults than those of its classes and of its length, and each of its classes is the one that
the table holds under its handle. -/
theorem WellFormed.fault_climb (h : t.WellFormed) (hpath : t.Path start path) (limit : Nat) :
    (t.climb limit start).fault =
      match t.firstUnloaded? (path.take limit) with
      | some id => some (.unsupportedRepresentation (t.display id) .unloaded)
      | none =>
        if (start ≠ .root ∧ t.get? start = none) ∧ 1 ≤ limit then some (.unknownClass start)
        else if limit < path.length then some (.hierarchyTooDeep (t.display start) limit)
        else none := by
  cases hpath with
  | unknown notRoot missing =>
    rw [climb_of_unknown notRoot missing, Climb.fault_stop,
      (Path.unknown notRoot missing).firstUnloaded?_take_eq_none notRoot missing]
    cases limit with
    | zero => simp
    | succ limit => simp [notRoot, missing]
  | @known chain hchain =>
    have hknown : ¬ ((start ≠ .root ∧ t.get? start = none) ∧ 1 ≤ limit) := by
      rintro ⟨⟨hroot, hmissing⟩, -⟩
      obtain ⟨c, hc⟩ := hchain.exists_entry hroot
      rw [hmissing] at hc
      cases hc
    rw [climb_eq_along hchain, Climb.fault_along, h.firstUnloaded?_map_id hchain, if_neg hknown,
      List.length_map]
    cases hfirst : (chain.take limit).find? ClassEntry.isUnloaded with
    | none => rfl
    | some c =>
      have hget := h.get?_of_mem_chain hchain c
        (List.mem_of_mem_take (List.mem_of_find?_eq_some hfirst))
      simp [display_of_get?_eq_some hget]

/-- A climb without a fault visits the whole chain of its start. -/
theorem WellFormed.chain_of_fault_eq_none (h : t.WellFormed) {limit : Nat}
    (hfault : (t.climb limit start).fault = none) :
    t.Chain start ((t.climb limit start).visited.map Visit.entry) := by
  obtain ⟨path, hpath⟩ := h.exists_path start
  cases hpath with
  | unknown notRoot missing =>
    rw [h.fault_climb (.unknown notRoot missing),
      (Path.unknown notRoot missing).firstUnloaded?_take_eq_none notRoot missing] at hfault
    cases limit <;> simp [notRoot, missing] at hfault
  | @known chain hchain =>
    rw [climb_eq_along hchain] at hfault ⊢
    rw [Climb.fault_along] at hfault
    cases hfirst : (chain.take limit).find? ClassEntry.isUnloaded with
    | some c => simp [hfirst] at hfault
    | none =>
      have hle : chain.length ≤ limit := by
        by_contra hlt
        simp [hfirst, Nat.lt_of_not_le hlt] at hfault
      rw [List.take_of_length_le hle, List.find?_eq_none] at hfirst
      rw [Climb.visited_along, List.take_of_length_le hle,
        List.takeWhile_eq_self_iff.mpr fun c hc => by simpa using hfirst c hc]
      exact hchain

end ClassTable

/-! ## Outcomes -/

/-- A query from the root finds nothing and does not fail, whatever the limit. -/
theorem Synthesizer.run_collect_root (s : Synthesizer) (classes : ClassTable) (names : NameTable) :
    (s.collect classes .root).run.run names = (.ok .empty, names) := by
  rw [run_collect, ClassTable.climb_root]
  rfl

/-- The outcome of a query is the fault of its climb, or else what it has found. -/
theorem Synthesizer.exists_fst_run_collect (s : Synthesizer) (classes : ClassTable)
    (start : ClassId) (names : NameTable) : ∃ found, ((s.collect classes start).run.run names).1 =
      (classes.climb s.settings.depthLimit start).fault.elim (.ok found) .error := by
  rw [run_collect]
  exact ⟨_, rfl⟩

namespace Hierarchy

open ClassTable

variable {h : Hierarchy}

/-- **When a query fails, and how.**  The path of the start ends before the root, so it is empty for
the root, and the limit counts its classes.

* A class that was never loaded is reported exactly when one is within the limit, and then the
  first.
* A class is reported as unknown exactly when it is the start, is not in the hierarchy and the limit
  is not zero.
* The limit is reported exactly when the path is longer than it and neither of the others applies,
  with the qualified name of the start, or its handle if the start is unknown.
* In all other cases the query has an answer, and from the root this is empty.

**Proof sketch.** The outcome of a query depends on what it finds only if its climb has no fault,
and `ClassTable.WellFormed.fault_climb` tells the fault. -/
theorem Reachable.outcome_collect (hr : h.Reachable) (s : Synthesizer) (start : ClassId) :
    ∃ path, h.classes.Path start path ∧
      let limit := s.settings.depthLimit
      let outcome := ((s.collect h.classes start).run.run h.names).1
      let unloaded := h.classes.firstUnloaded? (path.take limit)
      let unknown := (start ≠ .root ∧ h.classes.get? start = none) ∧ 1 ≤ limit
      (∀ name kind, outcome = .error (.unsupportedRepresentation name kind) ↔
        ∃ id c, unloaded = some id ∧ h.classes.get? id = some c ∧ name = c.qualifiedName ∧
          kind = .unloaded) ∧
      (∀ id, outcome = .error (.unknownClass id) ↔ id = start ∧ unknown) ∧
      (∀ name n, outcome = .error (.hierarchyTooDeep name n) ↔
        (((∃ c, h.classes.get? start = some c ∧ name = c.qualifiedName) ∨
            h.classes.get? start = none ∧ name = "ClassId(" ++ toString start.index ++ ")") ∧
          n = limit) ∧ limit < path.length ∧ unloaded = none ∧ ¬ unknown) ∧
      ((∃ found, outcome = .ok found) ↔ path.length ≤ limit ∧ unloaded = none ∧ ¬ unknown) ∧
      (start = .root → outcome = .ok .empty) := by
  have hclasses := hr.wellFormed_classes
  obtain ⟨path, hpath⟩ := hclasses.exists_path start
  refine ⟨path, hpath, ?_⟩
  intro limit outcome unloaded unknown
  simp only [← eq_display_iff]
  obtain ⟨found, hrun⟩ : ∃ found, outcome = _ :=
    s.exists_fst_run_collect h.classes start h.names
  rw [hclasses.fault_climb hpath] at hrun
  have hroot : start = .root → outcome = .ok .empty := by
    rintro rfl
    exact congrArg Prod.fst (s.run_collect_root h.classes h.names)
  cases hfirst : h.classes.firstUnloaded? (path.take limit) with
  | some id =>
    have hunloaded : unloaded = some id := hfirst
    obtain ⟨c, hc, -⟩ := exists_of_firstUnloaded? hfirst
    have hknown : ¬ unknown := by
      rintro ⟨⟨hroot, hmissing⟩, -⟩
      rw [hpath.firstUnloaded?_take_eq_none hroot hmissing limit] at hfirst
      cases hfirst
    have houtcome : outcome = .error (.unsupportedRepresentation c.qualifiedName .unloaded) := by
      rw [hrun, hfirst]
      simp [display_of_get?_eq_some hc]
    refine ⟨?_, ?_, ?_, ?_, hroot⟩ <;> simp [houtcome, hunloaded, hknown, hc, eq_comm]
  | none =>
    have hunloaded : unloaded = none := hfirst
    rw [hfirst] at hrun
    by_cases hunknown : unknown
    · have houtcome : outcome = .error (.unknownClass start) := by
        rw [hrun, if_pos hunknown]
        rfl
      refine ⟨?_, ?_, ?_, ?_, hroot⟩ <;> simp [houtcome, hunloaded, hunknown, eq_comm]
    · rw [if_neg hunknown] at hrun
      by_cases hlimit : limit < path.length
      · have houtcome : outcome = .error (.hierarchyTooDeep (h.classes.display start) limit) := by
          rw [hrun, if_pos hlimit]
          rfl
        refine ⟨?_, ?_, ?_, ?_, hroot⟩ <;>
          simp [houtcome, hunloaded, hunknown, hlimit, eq_comm]
      · rw [if_neg hlimit, Option.elim_none] at hrun
        refine ⟨?_, ?_, ?_, ?_, hroot⟩ <;>
          simp [hrun, hunloaded, hunknown, hlimit, Nat.le_of_not_lt]

/-- A class that is not in the hierarchy is unknown if the climb may come to it, and too deep by its
handle if the limit is zero; a class two below the root is too deep by its name if the limit is
one. -/
theorem shapes_outcome_collect :
    let outcome (limit : Nat) (start : ClassId) :=
      ((({ settings := { depthLimit := limit } } : Synthesizer).collect shapes.classes
        start).run.run shapes.names).1
    outcome 1 ⟨9⟩ = .error (.unknownClass ⟨9⟩) ∧
      outcome 0 ⟨9⟩ = .error (.hierarchyTooDeep "ClassId(9)" 0) ∧
      outcome 1 ⟨2⟩ = .error (.hierarchyTooDeep "Circle" 1) := by
  intro outcome
  have hmissing : shapes.classes.get? ⟨9⟩ = none := by decide +kernel
  have hpath : shapes.classes.Path ⟨9⟩ [⟨9⟩] := .unknown (by decide) hmissing
  refine ⟨?_, ?_, ?_⟩
  · obtain ⟨path, -, -, hunknown, -⟩ :=
      Reachable.outcome_collect shapes_reachable { settings := { depthLimit := 1 } } ⟨9⟩
    exact (hunknown _).mpr ⟨rfl, ⟨by decide, hmissing⟩, by decide⟩
  · obtain ⟨path, hpath', -, -, hdeep, -⟩ :=
      Reachable.outcome_collect shapes_reachable { settings := { depthLimit := 0 } } ⟨9⟩
    obtain rfl := hpath'.unique hpath
    exact (hdeep _ _).mpr ⟨⟨.inr ⟨hmissing, by decide +kernel⟩, rfl⟩, by decide, rfl, by simp⟩
  · obtain ⟨circle, hcircle, hid, hname, hsuperclass⟩ : ∃ c, shapes.classes.get? ⟨2⟩ = some c ∧
        c.id = ⟨2⟩ ∧ "Circle" = c.qualifiedName ∧ c.superclass = some ⟨1⟩ :=
      ⟨_, rfl, by decide +kernel, by decide +kernel, by decide +kernel⟩
    obtain ⟨shape, hshape, hroot⟩ : ∃ c, shapes.classes.get? ⟨1⟩ = some c ∧
        c.superclass = some .root := ⟨_, rfl, by decide +kernel⟩
    have hchain : shapes.classes.Chain ⟨2⟩ [circle, shape] :=
      .step (by decide) hcircle hsuperclass (.step (by decide) hshape hroot .root)
    have hloaded : shapes.classes.firstUnloaded? [⟨2⟩] = none := by decide +kernel
    obtain ⟨path, hpath', -, -, hdeep, -⟩ :=
      Reachable.outcome_collect shapes_reachable { settings := { depthLimit := 1 } } ⟨2⟩
    obtain rfl := hpath'.unique (.known hchain)
    refine (hdeep _ _).mpr ⟨⟨.inl ⟨circle, hcircle, hname⟩, rfl⟩, by simp, ?_, by simp [hcircle]⟩
    rw [List.map_cons, hid]
    exact hloaded

end Hierarchy

end BackingFields
