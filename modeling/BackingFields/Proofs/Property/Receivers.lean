import BackingFields.Proofs.Hierarchy.History

set_option relaxedAutoImplicit false
set_option autoImplicit false

/-!
# Several receivers

The properties of some receiver types are those of their classes, found from left to right.  Each
query begins with the names that the one before it has left, and the first that fails ends them all:
its fault is the answer, and what has been interned by then stays.

## Main definitions

* `BackingFields.Synthesizer.Walked` — queries over several classes that have all found an answer.
* `BackingFields.Synthesizer.Stopped` — queries over several classes of which one has failed.

## Main results

* `BackingFields.Synthesizer.run_mapM_collect_iff` — the queries over several classes end in one of
  these two ways.
* `BackingFields.Synthesizer.properties_append` — receivers can be asked for in two parts.
* `BackingFields.Synthesizer.scope_properties` — the law of the properties of several receivers.

## Design notes

All of this holds of any classes and any names, and whatever the host has supplied.
-/

namespace BackingFields.Synthesizer

variable {s : Synthesizer} {classes : ClassTable} {id : ClassId} {ids : List ClassId}
  {names names' : NameTable}

/-! ## Queries from left to right -/

/-- The queries over some classes find the given maps, each beginning with the names that the one
before it has left. -/
inductive Walked (s : Synthesizer) (classes : ClassTable) :
    List ClassId → NameTable → List FieldMap → NameTable → Prop where
  | nil (names : NameTable) : Walked s classes [] names [] names
  | cons {id : ClassId} {ids : List ClassId} {names names₁ names' : NameTable} {found : FieldMap}
      {maps : List FieldMap}
      (first : (s.collect classes id).run.run names = (.ok found, names₁))
      (rest : Walked s classes ids names₁ maps names') :
      Walked s classes (id :: ids) names (found :: maps) names'

/-- The query over one of some classes fails, after those over all classes before it have found
something; no class behind it is queried. -/
def Stopped (s : Synthesizer) (classes : ClassTable) (ids : List ClassId) (names : NameTable)
    (fault : ResolveError) (names' : NameTable) : Prop :=
  ∃ before id after maps names₁, ids = before ++ id :: after ∧
    s.Walked classes before names maps names₁ ∧
    (s.collect classes id).run.run names₁ = (.error fault, names')

/-- Queries fail at the first class if its query fails. -/
theorem stopped_of_collect {fault : ResolveError}
    (h : (s.collect classes id).run.run names = (.error fault, names')) (ids : List ClassId) :
    s.Stopped classes (id :: ids) names fault names' :=
  ⟨[], id, ids, [], names, rfl, .nil names, h⟩

/-- Queries fail behind the first class if its query finds something and the later ones fail. -/
theorem Stopped.cons {fault : ResolveError} {found : FieldMap} {names₁ : NameTable}
    (first : (s.collect classes id).run.run names = (.ok found, names₁))
    (rest : s.Stopped classes ids names₁ fault names') :
    s.Stopped classes (id :: ids) names fault names' := by
  obtain ⟨before, id', after, maps, names₂, rfl, hwalked, hfault⟩ := rest
  exact ⟨id :: before, id', after, found :: maps, names₂, rfl, .cons first hwalked, hfault⟩

/-- The queries over several classes find what each of them does. -/
theorem Walked.run_mapM_collect {maps : List FieldMap}
    (h : s.Walked classes ids names maps names') :
    (ids.mapM (s.collect classes)).run.run names = (.ok maps, names') := by
  induction h with
  | nil names => rfl
  | cons first rest ih =>
    rw [List.mapM_cons, NameM.run_exceptBind, first]
    dsimp only
    rw [NameM.run_exceptBind_pure, ih]
    rfl

/-- The queries over several classes fail with the first of them that does. -/
theorem Stopped.run_mapM_collect {fault : ResolveError}
    (h : s.Stopped classes ids names fault names') :
    (ids.mapM (s.collect classes)).run.run names = (.error fault, names') := by
  obtain ⟨before, id, after, maps, names₁, rfl, hwalked, hfault⟩ := h
  rw [List.mapM_append, NameM.run_exceptBind, hwalked.run_mapM_collect]
  dsimp only
  rw [List.mapM_cons, NameM.run_exceptBind, NameM.run_exceptBind, hfault]

/-- The queries over several classes find what each of them does, or fail with the first that does.

**Proof sketch.** Induction on the classes shows that one of the two must happen, and in either case
the outcome is known. -/
theorem run_mapM_collect_iff (s : Synthesizer) (classes : ClassTable) (ids : List ClassId)
    (names names' : NameTable) (outcome : Except ResolveError (List FieldMap)) :
    (ids.mapM (s.collect classes)).run.run names = (outcome, names') ↔
      (∃ maps, outcome = .ok maps ∧ s.Walked classes ids names maps names') ∨
        ∃ fault, outcome = .error fault ∧ s.Stopped classes ids names fault names' := by
  constructor
  · intro h
    induction ids generalizing names names' outcome with
    | nil =>
      cases h
      exact .inl ⟨[], rfl, .nil names⟩
    | cons id ids ih =>
      rw [List.mapM_cons, NameM.run_exceptBind] at h
      cases hfirst : (s.collect classes id).run.run names with
      | mk first names₁ =>
        rw [hfirst] at h
        cases first with
        | error fault =>
          cases h
          exact .inr ⟨fault, rfl, stopped_of_collect hfirst ids⟩
        | ok found =>
          dsimp only at h
          rw [NameM.run_exceptBind_pure] at h
          cases hrest : (ids.mapM (s.collect classes)).run.run names₁ with
          | mk rest names₂ =>
            rw [hrest] at h
            cases h
            rcases ih names₁ names₂ rest hrest with ⟨maps, rfl, hwalked⟩ | ⟨fault, rfl, hstopped⟩
            · exact .inl ⟨found :: maps, rfl, .cons hfirst hwalked⟩
            · exact .inr ⟨fault, rfl, hstopped.cons hfirst⟩
  · rintro (⟨maps, rfl, hwalked⟩ | ⟨fault, rfl, hstopped⟩)
    · exact hwalked.run_mapM_collect
    · exact hstopped.run_mapM_collect

/-! ## Receivers -/

variable {files : FileRegistry} {location : Location}

/-- Where raw fields may be seen, receivers can be asked for in two parts. -/
theorem properties_append (s : Synthesizer) (classes : ClassTable)
    (happlicable : files.isApplicable location = true) (receivers receivers' : List Ty) :
    s.properties classes files (receivers ++ receivers') location = (do
      let found ← s.properties classes files receivers location
      let found' ← s.properties classes files receivers' location
      return found ++ found') := by
  simp only [properties, happlicable, if_true, List.filterMap_append, List.mapM_append, bind_assoc,
    pure_bind, List.flatMap_append]

/-- **The law of several receivers.**  Where raw fields may not be seen, a query has the empty
answer and interns nothing, whatever the receivers are.  Where they may, it has an answer exactly if
the query over the class of each receiver has one, and then the properties that these find, in the
order of the receivers; otherwise it ends with the first query that fails, its fault and the names
that it leaves.  A receiver that is no class type makes no difference, and neither do type
arguments.  So the receivers can be asked for in two parts, the second if the first has an answer.

**Proof sketch.** The queries over the classes end in one of two ways, and the properties are read
off the maps that they find. -/
theorem scope_properties (s : Synthesizer) (classes : ClassTable) (files : FileRegistry)
    (location : Location) :
    (files.isApplicable location = false → ∀ receivers text names,
      (s.properties classes files receivers location).run.run names = (.ok [], names) ∧
      (s.propertiesNamed classes files receivers location text).run.run names = (.ok [], names)) ∧
    (files.isApplicable location = true →
      (∀ receivers names names' outcome,
        (s.properties classes files receivers location).run.run names = (outcome, names') ↔
          (∃ maps, outcome = .ok (maps.flatMap fun m => m.entries.map Prod.snd) ∧
            s.Walked classes (receivers.filterMap Ty.classId?) names maps names') ∨
          ∃ fault, outcome = .error fault ∧
            s.Stopped classes (receivers.filterMap Ty.classId?) names fault names') ∧
      ∀ receivers receivers',
        s.properties classes files (receivers ++ receivers') location = (do
          let found ← s.properties classes files receivers location
          let found' ← s.properties classes files receivers' location
          return found ++ found')) := by
  refine ⟨fun hclosed receivers text names => ?_, fun happlicable => ⟨?_, ?_⟩⟩
  · have hnone : s.properties classes files receivers location = pure [] := by
      rw [properties, hclosed, if_neg Bool.false_ne_true]
    constructor
    · rw [hnone]
      rfl
    · rw [propertiesNamed, hnone]
      rfl
  · intro receivers names names' outcome
    have hrun : (s.properties classes files receivers location).run.run names =
        ((((receivers.filterMap Ty.classId?).mapM (s.collect classes)).run.run names).1.map
          (List.flatMap FieldMap.properties),
          (((receivers.filterMap Ty.classId?).mapM (s.collect classes)).run.run names).2) := by
      rw [properties, if_pos happlicable, NameM.run_exceptBind_pure]
    rw [hrun]
    constructor
    · intro h
      cases hmaps : ((receivers.filterMap Ty.classId?).mapM (s.collect classes)).run.run names with
      | mk maps names₁ =>
        rw [hmaps] at h
        cases h
        rcases (run_mapM_collect_iff s classes _ names names₁ maps).mp hmaps with
          ⟨maps, rfl, hwalked⟩ | ⟨fault, rfl, hstopped⟩
        · exact .inl ⟨maps, rfl, hwalked⟩
        · exact .inr ⟨fault, rfl, hstopped⟩
    · rintro (⟨maps, rfl, hwalked⟩ | ⟨fault, rfl, hstopped⟩)
      · rw [hwalked.run_mapM_collect]
        rfl
      · rw [hstopped.run_mapM_collect]
        rfl
  · exact s.properties_append classes happlicable

/-- Where raw fields may be seen, a receiver that is no class adds nothing to the properties of the
other two, and the second of these finds a field once more that the first has from its superclass;
the query over a class that is not in the hierarchy ends those over three receivers.  Elsewhere
neither is run. -/
theorem shapes_scope_properties :
    let files := (FileRegistry.empty.registerFragment "/fragment.kt" .jvm true).2
    let location : Location := .element (some ⟨0⟩) default
    let s : Synthesizer := {}
    let classes := Hierarchy.shapes.classes
    let names := Hierarchy.shapes.names
    let known : List Ty := [.ofClass ⟨2⟩ [.star], .primitive .int, .simple ⟨1⟩]
    let missing : List Ty := [.ofClass ⟨2⟩ [.star], .primitive .int, .simple ⟨9⟩]
    let answer := (s.properties classes files known location).run.run names
    let refusal := (s.properties classes files missing location).run.run names
    (∀ receivers ∈ [known, missing],
      (s.properties classes files receivers .unplaced).run.run names = (.ok [], names)) ∧
      (∃ maps found, s.Walked classes [⟨2⟩, ⟨1⟩] names maps answer.2 ∧
        found = (maps.flatMap fun m => m.entries.map Prod.snd) ∧ answer.1 = .ok found ∧
        found.map (fun p => (p.owner, answer.2.text? p.fieldName, answer.2.text? p.name)) =
          [(⟨2⟩, some "radius", some "radius_field"), (⟨1⟩, some "area", some "area_field"),
            (⟨1⟩, some "area", some "area_field")]) ∧
      refusal.1 = .error (.unknownClass ⟨9⟩) ∧
      s.Stopped classes [⟨2⟩, ⟨9⟩] names (.unknownClass ⟨9⟩) refusal.2 := by
  intro files location s classes names known missing answer refusal
  have hfound : answer.1.toOption.map (List.map fun p =>
      (p.owner, answer.2.text? p.fieldName, answer.2.text? p.name)) =
      some [(⟨2⟩, some "radius", some "radius_field"), (⟨1⟩, some "area", some "area_field"),
        (⟨1⟩, some "area", some "area_field")] := by decide +kernel
  have hfault : refusal.1 = .error (.unknownClass ⟨9⟩) := by decide +kernel
  obtain ⟨-, hopen⟩ := scope_properties s classes files location
  obtain ⟨hclosed, -⟩ := scope_properties s classes files .unplaced
  obtain ⟨hends, -⟩ := hopen (by decide +kernel)
  refine ⟨fun receivers _ => (hclosed rfl receivers "" names).1, ?_, hfault, ?_⟩
  · rcases (hends known names answer.2 answer.1).mp (Prod.eta answer).symm with
      ⟨maps, hok, hwalked⟩ | ⟨fault, herror, -⟩
    · rw [hok] at hfound
      exact ⟨maps, _, hwalked, rfl, hok, Option.some_inj.mp hfound⟩
    · rw [herror] at hfound
      cases hfound
  · rcases (hends missing names refusal.2 refusal.1).mp (Prod.eta refusal).symm with
      ⟨maps, hok, -⟩ | ⟨fault, herror, hstopped⟩
    · rw [hfault] at hok
      cases hok
    · rw [hfault] at herror
      cases herror
      exact hstopped

end BackingFields.Synthesizer
