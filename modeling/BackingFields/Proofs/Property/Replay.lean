import BackingFields.Proofs.Class.Chain
import BackingFields.Proofs.Hierarchy.Invariant
import BackingFields.Proofs.Name.Replay
import BackingFields.Proofs.Property.Candidates
import BackingFields.Proofs.Ty.Growth

set_option relaxedAutoImplicit false
set_option autoImplicit false

/-!
# Asking the same query again

A query that has been run once can be run again at any later time: it interns nothing, fails if and
only if it failed before, and finds the same properties in the same order.  Only the type of a
compiled field may have changed, and only because the class that it refers to has been declared in
the meantime.

## Main definitions

* `BackingFields.FieldProperty.ReplayedAs` — what becomes of a property.
* `BackingFields.FieldMap.ReplayedAs`, `BackingFields.Synthesizer.ReplayedAs` — what becomes of an
  answer, and of the outcome of a query.

## Main results

* `BackingFields.Synthesizer.replays_collect` — a query over a larger table of classes replays the
  query over the smaller one.
* `BackingFields.Hierarchy.Reachable.replay_collect` — the same across any operations in between.
-/

namespace BackingFields

open NameM (Replays)

variable {t t' : ClassTable} {base : NameTable}

/-! ## Properties -/

namespace FieldProperty

/-- A property with another type, which its accessors share. -/
def retype (p : FieldProperty) (ty : Ty) : FieldProperty :=
  { p with
    ty := ty
    getter := { p.getter with returnType := ty }
    setter := p.setter.map fun setter =>
      { setter with parameter := setter.parameter.map fun value => { value with ty := ty } } }

/-- What becomes of a property from one table of classes to a later one: all that may change is its
type, which its accessors share before and after, and this changes as the type of its field does. -/
structure ReplayedAs (t t' : ClassTable) (p p' : FieldProperty) : Prop where
  /-- The accessors had the type of the property. -/
  retype_self : p.retype p.ty = p
  /-- The accessors have the type of the property, and nothing else is new. -/
  eq_retype : p' = p.retype p'.ty
  /-- The type is that of the field. -/
  retyped : t.RetypedSince t' p.owner p.fieldName p.ty p'.ty

end FieldProperty

/-- What becomes of the facts about a field of a class, whose name is known. -/
structure FieldFacts.ReplayedAs (base : NameTable) (t t' : ClassTable) (owner : ClassEntry)
    (f f' : FieldFacts) : Prop where
  /-- The name of the field has a text. -/
  known : ∃ s, base.text? f.name = some s
  /-- Nothing but the type is new. -/
  eq_with : f' = { f with ty := f'.ty }
  /-- The type is that of the field. -/
  retyped : t.RetypedSince t' owner.id f.name f.ty f'.ty

/-- Making the property for a field again makes the same property, up to its type. -/
theorem FieldProperty.replays_ofField {owner : ClassEntry} {f f' : FieldFacts}
    (hf : f.ReplayedAs base t t' owner f') (description : String) :
    Replays base (ReplayedAs t t') (ofField owner f description)
      (ofField owner f' description) := by
  obtain ⟨ty, rfl⟩ : ∃ ty, f' = { f with ty := ty } := ⟨f'.ty, hf.eq_with⟩
  obtain ⟨s, hs⟩ := hf.known
  have hsetter : Replays base (fun setter setter' => ∃ name,
      setter = (if f.isVar then some (f.setter name) else none) ∧
        setter' = if f.isVar then some (FieldFacts.setter { f with ty := ty } name) else none)
      (setterOf f) (setterOf { f with ty := ty }) := by
    rw [setterOf, setterOf]
    cases hvar : f.isVar with
    | true =>
      refine .bind (.intern parameterName) fun name name' hname => .pure ⟨name, rfl, ?_⟩
      rw [hname]
      rfl
    | false => exact .pure ⟨default, rfl, rfl⟩
  refine .bind (.display hs) fun text text' htext => .bind hsetter fun setter setter' hsetters => ?_
  subst htext
  refine .bind (.intern (text ++ symbolSuffix)) fun name name' hname => .pure ?_
  subst hname
  obtain ⟨parameter, rfl, rfl⟩ := hsetters
  refine ⟨?_, ?_, hf.retyped⟩
  · unfold retype
    cases f.isVar <;> rfl
  · unfold retype
    cases f.isVar <;> rfl

/-! ## Answers -/

namespace FieldMap

/-- What becomes of an answer: it has the same keys in the same order, and the properties become
what they may. -/
def ReplayedAs (t t' : ClassTable) (m m' : FieldMap) : Prop :=
  List.Forall₂ (fun e e' => e'.1 = e.1 ∧ e.2.ReplayedAs t t' e'.2) m.entries m'.entries

variable {m m' : FieldMap}

/-- An answer keeps its keys, in their order. -/
theorem ReplayedAs.keys_eq (h : m.ReplayedAs t t' m') : m'.keys = m.keys := by
  obtain ⟨entries⟩ := m
  obtain ⟨entries'⟩ := m'
  unfold ReplayedAs at h
  unfold keys
  dsimp only at h ⊢
  induction h with
  | nil => rfl
  | cons he _ ih => rw [List.map_cons, List.map_cons, he.1, ih]

/-- An answer knows the same names as before. -/
theorem ReplayedAs.contains_eq (h : m.ReplayedAs t t' m') (name : Name) :
    m'.contains name = m.contains name := by
  rw [Bool.eq_iff_iff, contains_iff_mem_keys, contains_iff_mem_keys, h.keys_eq]

/-- Offering a field again does the same, up to its type. -/
theorem replays_offer (hm : m.ReplayedAs t t' m') (name : Name) {make make' : NameM FieldProperty}
    (hmake : Replays base (FieldProperty.ReplayedAs t t') make make') :
    Replays base (ReplayedAs t t') (m.offer name make) (m'.offer name make') := by
  rw [offer, offer, hm.contains_eq]
  split
  · exact .pure hm
  · exact .bind hmake fun p p' hp => .pure (List.rel_append hm (.cons ⟨rfl, hp⟩ .nil))

end FieldMap

/-! ## Queries -/

/-- Asking an exposure of the library for a class again gives the same names, however many classes
have been declared in between. -/
theorem Exposure.BuiltIn.replays {e : Exposure} (he : e.BuiltIn) {id : ClassId} {c : ClassEntry}
    (hc : t.get? id = some c) (hgrow : t.GrowsTo t') :
    Replays base (· = ·) (e t id) (e t' id) := by
  cases he with
  | accessors =>
    rw [Exposure.accessors_eq hc, Exposure.accessors_eq (hgrow.get?_eq_some hc)]
    refine .bind (.internAll _) fun names names' hnames => .pure ?_
    rw [hnames]
  | fixed f => exact .pure rfl

/-- A synthesizer of the library: an exposure of the library, with its meaning of types and its
attribution of fields.  Limit and descriptions may be any. -/
structure Synthesizer.Standard (s : Synthesizer) : Prop where
  exposure : s.exposure.BuiltIn
  typeOf : s.typeOf = TypeMeaning.resolved
  originOf : s.originOf = Attribution.external

/-- A synthesizer of the library follows the reading of the library. -/
theorem Synthesizer.Standard.follows {s : Synthesizer} (hs : s.Standard) : s.Follows .standard where
  typeOf _ _ := by
    rw [hs.typeOf]
    rfl
  originOf _ _ := by
    rw [hs.originOf]
    rfl

/-- A synthesizer of the library only interns. -/
theorem Synthesizer.Standard.onlyInterns {s : Synthesizer} (hs : s.Standard) : s.OnlyInterns :=
  hs.follows.onlyInterns hs.exposure.onlyInterns

/-- What becomes of the outcome of a query: a fault stays, and an answer becomes what it may. -/
inductive Synthesizer.ReplayedAs (t t' : ClassTable) :
    Except ResolveError FieldMap → Except ResolveError FieldMap → Prop
  | fault (fault : ResolveError) : ReplayedAs t t' (.error fault) (.error fault)
  | found {m m' : FieldMap} (found : m.ReplayedAs t t' m') : ReplayedAs t t' (.ok m) (.ok m')

section Queries

variable {h : Hierarchy} {s : Synthesizer} (hs : s.Standard) (hn : h.WellNamed)
  (hclasses : h.classes.WellFormed) (hgrow : h.classes.GrowsTo t')

include hs hgrow in
/-- The fields of interest of a class are the same again. -/
theorem Synthesizer.replays_candidates {c : ClassEntry} {fields : DeclaredFields}
    (hc : h.classes.get? c.id = some c) :
    Replays h.names (· = ·) (s.candidates h.classes c fields) (s.candidates t' c fields) := by
  cases fields with
  | source fs => exact .pure rfl
  | binary fs =>
    cases fs with
    | nil => exact .pure rfl
    | cons f fs =>
      refine .bind (hs.exposure.replays hc hgrow) fun names names' hnames => .pure ?_
      rw [hnames]

include hn hclasses hgrow in
/-- The facts about a field of a class are the same again, up to its type. -/
theorem Reading.standard_replayedAs {c : ClassEntry} (hc : h.classes.get? c.id = some c)
    {f : Candidate} (hf : f ∈ c.members.candidates) :
    (standard.facts h.classes c f).ReplayedAs h.names h.classes t' c (standard.facts t' c f) := by
  obtain ⟨text, htext, -⟩ := hn.exists_text hc hf
  cases hm : c.members with
  | unloaded => simp [hm, Members.candidates] at hf
  | source fs =>
    rw [hm] at hf
    obtain ⟨g, -, rfl⟩ := List.mem_map.mp hf
    exact ⟨⟨text, htext⟩, rfl, ClassTable.retypedSince_of_source hc hm _ _⟩
  | binary fs methods =>
    rw [hm] at hf
    obtain ⟨g, hg, rfl⟩ := List.mem_map.mp hf
    exact ⟨⟨text, htext⟩, rfl, ClassTable.retypedSince_starProject hclasses hgrow hc hm hg⟩

include hs hn hclasses hgrow

/-- Collecting from a class again does the same, up to types. -/
theorem Synthesizer.replays_collectVisit {v : Visit}
    (hget : h.classes.get? v.entry.id = some v.entry) (hv : v.entry.declaredFields = .ok v.fields)
    {m m' : FieldMap} (hm : m.ReplayedAs h.classes t' m') :
    Replays h.names (FieldMap.ReplayedAs h.classes t') (s.collectVisit h.classes m v)
      (s.collectVisit t' m' v) := by
  have hcandidates : Replays h.names
      (fun fields fields' => fields = fields' ∧ ∀ f ∈ fields, f ∈ v.entry.members.candidates)
      (s.candidates h.classes v.entry v.fields) (s.candidates t' v.entry v.fields) :=
    (s.replays_candidates hs hgrow hget).and_left fun _ _ hf => s.mem_candidates h.classes hv hf
  refine .bind hcandidates fun fields _ ⟨hsame, hmem⟩ => ?_
  subst hsame
  have hfields : List.Forall₂ (fun f f' => f' = f ∧ f ∈ v.entry.members.candidates) fields fields :=
    List.forall₂_same.mpr fun f hf => ⟨rfl, hmem f hf⟩
  refine .foldlM (fun found found' f f' hfound hf => ?_) hfields hm
  obtain ⟨rfl, hf⟩ := hf
  refine FieldMap.replays_offer hfound f'.name ?_
  rw [hs.follows.propertyOf_eq, hs.follows.propertyOf_eq]
  exact FieldProperty.replays_ofField
    (Reading.standard_replayedAs hn hclasses hgrow hget hf) (s.description v.fields)

/-- A query over a larger table of classes replays the query over the smaller one.

**Proof sketch.** The start has kept its chain, so both queries climb it in the same way, visit the
same classes and have the same fault. -/
theorem Synthesizer.replays_collect {start : ClassId} {c : ClassEntry}
    (hc : h.classes.get? start = some c) :
    Replays h.names (Synthesizer.ReplayedAs h.classes t') (s.collect h.classes start).run
      (s.collect t' start).run := by
  obtain ⟨chain, hchain⟩ := hclasses.exists_chain hc
  have hclimb : t'.climb s.settings.depthLimit start =
      h.classes.climb s.settings.depthLimit start := by
    rw [ClassTable.climb_eq_along hchain, ClassTable.climb_eq_along (hchain.growsTo hgrow)]
    rw [ClassTable.display, ClassTable.display, hc, hgrow.get?_eq_some hc]
  have hvisits : List.Forall₂ (fun v v' => v' = v ∧ h.classes.get? v.entry.id = some v.entry ∧
      v.entry.declaredFields = .ok v.fields)
      (h.classes.climb s.settings.depthLimit start).visited
      (h.classes.climb s.settings.depthLimit start).visited := by
    refine List.forall₂_same.mpr fun v hv => ⟨rfl, ?_,
      ClassTable.declaredFields_of_mem_climb hchain v hv⟩
    exact hclasses.get?_of_mem_chain hchain v.entry (ClassTable.entry_mem_of_mem_climb hchain hv)
  simp only [Synthesizer.collect, ExceptT.run_mk, hclimb]
  refine .bind (.foldlM ?_ hvisits (Q := FieldMap.ReplayedAs h.classes t') .nil) fun m m' hm => ?_
  · rintro m m' v _ hm ⟨rfl, hget, hv⟩
    exact s.replays_collectVisit hs hn hclasses hgrow hget hv hm
  · cases (h.classes.climb s.settings.depthLimit start).fault with
    | none => exact .pure (.found hm)
    | some fault => exact .pure (.fault fault)

end Queries

/-! ## Histories between two queries -/

namespace Hierarchy

variable {h : Hierarchy} {s : Synthesizer} {start : ClassId}

/-- **A query can be repeated.**  If a query from a class of the hierarchy is run, then any
operations, and then the same query once more, the second run changes neither the classes nor the
names, and its outcome is that of the first: the same fault, or the same keys in the same order with
the same properties.  Only the type of a compiled field differs, with the types of its accessors,
exactly if it refers to a class that was missing at the first run and has been declared since; then
it was unresolved, and is now that class with a star for each type parameter.

**Proof sketch.** The operations in between forget nothing, so the second run climbs the same chain
and finds every text interned. -/
theorem Reachable.replay_collect (hr : h.Reachable) (hs : s.Standard)
    (hstart : ∃ c, h.classes.get? start = some c) (ops : List Operation)
    (hsize : ((h.query (s.collect h.classes start).run).2.run ops).names.size < UInt32.size) :
    let first := h.query (s.collect h.classes start).run
    let later := first.2.run ops
    let second := later.query (s.collect later.classes start).run
    second.2 = later ∧ Synthesizer.ReplayedAs h.classes later.classes first.1 second.1 := by
  intro first later second
  have hfirst : h.names.GrowsTo first.2.names :=
    s.onlyInterns_collect hs.onlyInterns h.classes start h.names
  have hlater : first.2.GrowsTo later := first.2.growsTo_run ops
  have hgrow : h.classes.GrowsTo later.classes := hlater.classes
  have hn : h.WellNamed := by
    refine hr.wellNamed (Nat.le_of_lt (Nat.lt_of_le_of_lt ?_ hsize))
    exact (hfirst.trans hlater.names).size_le
  obtain ⟨c, hc⟩ := hstart
  have hreplays :=
    s.replays_collect hs hn hr.wellFormed_classes hgrow hc h.names (.refl h.names)
  obtain ⟨hnames, houtcome⟩ := hreplays.2 later.names hlater.names
  refine ⟨?_, houtcome⟩
  have hsecond : second.2 = ⟨later.classes, second.2.names⟩ := rfl
  rw [hsecond, show second.2.names = later.names from hnames]

/-- The type of a field is resolved once its class has been declared. -/
theorem shapes_replay_collect :
    let collect (h : Hierarchy) := h.query (({} : Synthesizer).collect h.classes ⟨2⟩).run
    let types (outcome : Except ResolveError FieldMap) :=
      outcome.toOption.map fun found => found.properties.map FieldProperty.ty
    let later := (collect shapes).2.run
      [.declare { name := "Unit", typeParams := ["T"], members := .binary [] [] }]
    (collect later).2 = later ∧
      Synthesizer.ReplayedAs shapes.classes later.classes (collect shapes).1 (collect later).1 ∧
      types (collect shapes).1 = some [.primitive .double, .unresolved "Unit"] ∧
      types (collect later).1 = some [.primitive .double, .ofClass ⟨3⟩ [.star]] := by
  have hstart : ∃ c, shapes.classes.get? ⟨2⟩ = some c :=
    Option.isSome_iff_exists.mp (by decide +kernel)
  have hstandard : ({} : Synthesizer).Standard := ⟨.accessors, rfl, rfl⟩
  obtain ⟨hlater, houtcome⟩ := Reachable.replay_collect shapes_reachable hstandard hstart
    [.declare { name := "Unit", typeParams := ["T"], members := .binary [] [] }] (by decide +kernel)
  exact ⟨hlater, houtcome, by decide +kernel, by decide +kernel⟩

end Hierarchy

end BackingFields
