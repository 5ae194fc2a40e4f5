import BackingFields.Proofs.Name.Forecast
import BackingFields.Proofs.Property.Nearest

set_option relaxedAutoImplicit false
set_option autoImplicit false

/-!
# The answer of a query in closed form

What a query does to the names and what it answers can be told before it is run.  Each visited class
has a share in the answer: its fields of interest that no nearer class shadows.  The shares tell the
texts that are interned, and the properties follow from the shares and the names that these texts
have afterwards.

## Main definitions

* `BackingFields.FieldProperty.texts`, `BackingFields.FieldFacts.property` — what is interned for
  the property of a field, and the property made for it.
* `BackingFields.Exposure.Asks` — the texts that an exposure of the library interns for a class.
* `BackingFields.Share`, `BackingFields.Share.ofClasses` — the fields of some classes that get a
  property.
* `BackingFields.ClassTable.Visits` — the classes that a query visits.

## Main results

* `BackingFields.Synthesizer.interns_foldlM_collectVisit` — what some visits intern and find.
* `BackingFields.Hierarchy.Reachable.run_collect_eq` — a query in closed form.
* `BackingFields.Hierarchy.Reachable.interned_collect` — exactly what a query interns.

## Design notes

A query that fails has visited the classes below the fault, so its texts are those of their shares
just as for a query with an answer.
-/

namespace BackingFields

open NameM (Interns OnlyInterns)

variable {base : NameTable}

/-! ## Properties -/

/-- The texts that are interned for the property of a field: the name of the parameter of its
setter, if the field is mutable, and its symbol name. -/
def FieldProperty.texts (names : NameTable) (name : Name) (isVar : Bool) : List String :=
  (if isVar then ["value"] else []) ++ [names.display name ++ "_field"]

/-- The symbol name of a field whose name is known begins with its text. -/
theorem FieldProperty.texts_of_text? {names : NameTable} {name : Name} {text : String}
    (h : names.text? name = some text) (isVar : Bool) : FieldProperty.texts names name isVar =
      (if isVar then [parameterName] else []) ++ [text ++ symbolSuffix] := by
  rw [texts, NameTable.display_of_text?_eq_some h, parameterName, symbolSuffix]

/-- The property for a field of a class, by a table in which its texts have names. -/
def FieldFacts.property (names : NameTable) (owner : ClassEntry) (description : String)
    (f : FieldFacts) : FieldProperty where
  owner := owner.id
  fieldName := f.name
  name := names.nameOf (names.display f.name ++ FieldProperty.symbolSuffix)
  description := description
  isVar := f.isVar
  ty := f.ty
  receiver := owner.defaultType.starProject
  getter := f.getter
  setter := if f.isVar then some (f.setter (names.nameOf FieldProperty.parameterName)) else none
  origin := f.origin

namespace FieldProperty

/-- The setter of a mutable field is made by interning its parameter name, and no other. -/
theorem interns_setterOf (f : FieldFacts) :
    Interns base (setterOf f) (if f.isVar then [parameterName] else []) fun t =>
      if f.isVar then some (f.setter (t.nameOf parameterName)) else none := by
  unfold setterOf
  cases f.isVar with
  | false => exact .pure none
  | true => exact .bind (.intern parameterName) (fun _ => .pure _) fun t _ => .pure _

/-- The property for a field is made by interning its texts. -/
theorem interns_ofField {f : FieldFacts} {text : String} (hf : base.text? f.name = some text)
    (owner : ClassEntry) (description : String) :
    Interns base (ofField owner f description) (texts base f.name f.isVar) fun t =>
      f.property t owner description := by
  refine .congr (.bind (.display hf) (fun _ => ?_) fun _ _ => .bind (interns_setterOf f)
    (fun _ => ?_) fun _ _ => .bind (.intern _) (fun _ => .pure _) fun _ _ => .pure _) ?_ ?_
  · exact .bind (onlyInterns_setterOf f) fun _ => .bind (.intern _) fun _ => .pure _
  · exact .bind (.intern _) fun _ => .pure _
  · rw [texts_of_text? hf]
    rfl
  · intro t hgrow
    rw [FieldFacts.property, hgrow.display_eq hf]

end FieldProperty

/-! ## Fields of interest -/

/-- The exposures of the library, with the texts that each interns when it is asked for a class: the
properties that the accessor methods stand for, or nothing. -/
inductive Exposure.Asks : Exposure → (ClassEntry → List String) → Prop
  | accessors : Asks .accessors fun c => c.members.methods.filterMap Method.propertyName?
  | fixed (f : FixedNames) : Asks (.fixed f) fun _ => []

/-- The texts that are interned to find the fields of interest of a class.  The exposure is asked
only for a compiled class, and only if this lists any fields. -/
def ClassEntry.consulted (asked : ClassEntry → List String) (c : ClassEntry) : List String :=
  match c.members with
  | .binary (_ :: _) _ => asked c
  | _ => []

/-- Asking an exposure for a class leaves the names with its texts. -/
theorem Exposure.Asks.snd_run {e : Exposure} {asked : ClassEntry → List String} (he : e.Asks asked)
    {classes : ClassTable} {c : ClassEntry} (hc : classes.get? c.id = some c) (t : NameTable) :
    ((e classes c.id).run t).2 = t.internAll (asked c) := by
  cases he with
  | accessors =>
    rw [Exposure.run_accessors hc]
  | fixed f => rfl

section Queries

variable {h : Hierarchy} {s : Synthesizer} {r : Reading} {exposed asked : ClassEntry → List String}

/-- Finding the fields of interest of a class leaves the names with the consulted texts. -/
theorem Synthesizer.interns_candidates (hi : s.OnlyInterns) (hn : h.WellNamed)
    (hs : s.exposure.Exposes h exposed) (hasks : s.exposure.Asks asked) {c : ClassEntry}
    {fields : DeclaredFields} (hc : h.classes.get? c.id = some c)
    (hfields : c.declaredFields = .ok fields) :
    Interns h.names (s.candidates h.classes c fields) (c.consulted asked) fun _ =>
      c.interests h.names exposed := by
  intro t hgrow hsize
  refine ⟨?_, fun _ _ => fst_run_candidates hi hn hs hc hfields hgrow hsize⟩
  unfold ClassEntry.consulted
  rcases c.members_of_declaredFields hfields with ⟨fs, hm, rfl⟩ | ⟨fs, methods, hm, rfl⟩
  · rw [hm]
    rfl
  · rw [hm]
    cases fs with
    | nil => rfl
    | cons f fs => exact hasks.snd_run hc t

/-! ## Shares -/

/-- What a class contributes to an answer. -/
structure Share where
  /-- The class. -/
  owner : ClassEntry
  /-- Its fields that get a property. -/
  fields : List Candidate

namespace Share

/-- The shares of some classes, where some names are taken already.  A field of interest gets a
property unless its name is taken, and its name is then taken for the classes further up. -/
def ofClasses (names : NameTable) (exposed : ClassEntry → List String) :
    List Name → List ClassEntry → List Share
  | _, [] => []
  | taken, c :: classes =>
    let fields := (c.interests names exposed).filter fun f => !taken.contains f.name
    ⟨c, fields⟩ :: ofClasses names exposed (taken ++ fields.map Candidate.name) classes

/-- The texts that are interned for a class: those that find its fields of interest, and then those
of each field that gets a property. -/
def texts (names : NameTable) (asked : ClassEntry → List String) (share : Share) : List String :=
  share.owner.consulted asked ++
    share.fields.flatMap fun f => FieldProperty.texts names f.name f.isVar

/-- The names of the fields that get a property. -/
def fieldNames (share : Share) : List Name := share.fields.map Candidate.name

end Share

/-- The description of the properties of a class. -/
def Synthesizer.label (s : Synthesizer) (c : ClassEntry) : String :=
  match c.kind with
  | .binary => s.settings.externalLabel
  | _ => s.settings.backingLabel

/-- The fields of a class are described by its representation. -/
theorem Synthesizer.description_eq_label (s : Synthesizer) {c : ClassEntry}
    {fields : DeclaredFields} (hfields : c.declaredFields = .ok fields) :
    s.description fields = s.label c := by
  unfold label ClassEntry.kind
  rcases c.members_of_declaredFields hfields with ⟨fs, hm, rfl⟩ | ⟨fs, methods, hm, rfl⟩
  · rw [hm]
    rfl
  · rw [hm]
    rfl

/-- The properties of a class under the names of their fields, by the reading of the host. -/
def Share.entries (s : Synthesizer) (r : Reading) (classes : ClassTable) (names : NameTable)
    (share : Share) : List (Name × FieldProperty) :=
  share.fields.map fun f =>
    (f.name, (r.facts classes share.owner f).property names share.owner (s.label share.owner))

/-- The keys of a share are the names of its fields. -/
@[simp]
theorem Share.map_fst_entries (s : Synthesizer) (r : Reading) (classes : ClassTable)
    (names : NameTable) (share : Share) :
    (share.entries s r classes names).map Prod.fst = share.fieldNames :=
  List.map_map

/-! ## Visits -/

/-- Offering some fields makes the property for each whose name is not taken.

**Proof sketch.** Induction on the fields.  A property that has been added takes the name of its own
field, which no other field has. -/
theorem FieldMap.interns_foldlM_offer {fields : List Candidate}
    {make : Candidate → NameM FieldProperty} {texts : Candidate → List String}
    {value : NameTable → Candidate → FieldProperty} (honly : ∀ f, OnlyInterns (make f))
    (hmake : ∀ f ∈ fields, Interns base (make f) (texts f) fun t => value t f)
    (hnodup : (fields.map Candidate.name).Nodup) (m : FieldMap) :
    let kept := fields.filter fun f => !m.keys.contains f.name
    Interns base (fields.foldlM (fun (m : FieldMap) f => m.offer f.name (make f)) m)
      (kept.flatMap texts) fun t => ⟨m.entries ++ kept.map fun f => (f.name, value t f)⟩ := by
  intro kept
  induction fields generalizing m with
  | nil => exact .congr (.pure m) rfl fun t _ => by simp [kept]
  | cons f fields ih =>
    rw [List.map_cons, List.nodup_cons] at hnodup
    obtain ⟨hnew, hnodup⟩ := hnodup
    have ih := ih (fun g hg => hmake g (List.mem_cons_of_mem f hg)) hnodup
    have hloop (m : FieldMap) : OnlyInterns
        (fields.foldlM (fun (m : FieldMap) f => m.offer f.name (make f)) m) :=
      .foldlM (fun m f => m.onlyInterns_offer f.name (honly f)) fields m
    rw [List.foldlM_cons, offer]
    by_cases htaken : f.name ∈ m.keys
    · have hkept : kept = fields.filter fun g => !m.keys.contains g.name := by
        simp [kept, htaken]
      rw [hkept, if_pos (contains_iff_mem_keys.mpr htaken), pure_bind]
      exact ih m
    · have hkept : kept = f :: fields.filter fun g => !m.keys.contains g.name := by
        simp [kept, htaken]
      have hrest (p : FieldProperty) := ih (m.push f.name p)
      -- the new key is the name of no other field, so the rest is filtered as before
      have hsame (p : FieldProperty) : (fields.filter fun g =>
          !(m.push f.name p).keys.contains g.name) =
            fields.filter fun g => !m.keys.contains g.name := by
        refine List.filter_congr fun g hg => ?_
        have hne : g.name ≠ f.name := fun heq => hnew (heq ▸ List.mem_map_of_mem hg)
        simp [hne]
      simp only [hsame] at hrest
      rw [hkept, if_neg (mt contains_iff_mem_keys.mp htaken)]
      refine .congr (.bind
        (.bind (hmake f List.mem_cons_self) (fun p => .pure _) fun t _ => .pure _)
        hloop fun t _ => hrest _) ?_ fun t _ => ?_
      · rw [List.flatMap_cons, List.append_nil]
      · rw [push, List.map_cons, List.append_assoc, List.singleton_append]

/-- The fields of interest of a class are among its fields, in their order. -/
theorem ClassEntry.interests_sublist (names : NameTable) (exposed : ClassEntry → List String)
    (c : ClassEntry) : (c.interests names exposed).Sublist c.members.candidates := by
  unfold interests Members.candidates
  cases c.members with
  | source fields => exact List.filter_sublist.map _
  | binary fields methods => exact List.filter_sublist.map _
  | unloaded => exact .slnil

section Visits

variable (hn : h.WellNamed) (hclasses : h.classes.WellFormed) (hs : s.exposure.Exposes h exposed)
  (hasks : s.exposure.Asks asked) (hreading : s.Follows r)

include hn hclasses hs hasks hreading

/-- Collecting from a class interns the texts of its share and finds its properties. -/
theorem Synthesizer.interns_collectVisit {v : Visit}
    (hget : h.classes.get? v.entry.id = some v.entry) (hv : v.entry.declaredFields = .ok v.fields)
    (m : FieldMap) :
    let share : Share :=
      ⟨v.entry, (v.entry.interests h.names exposed).filter fun f => !m.keys.contains f.name⟩
    Interns h.names (s.collectVisit h.classes m v) (share.texts h.names asked) fun t =>
      ⟨m.entries ++ share.entries s r h.classes t⟩ := by
  intro share
  have hi := hreading.onlyInterns hs.builtIn.onlyInterns
  have hsublist := v.entry.interests_sublist h.names exposed
  have hnodup : ((v.entry.interests h.names exposed).map Candidate.name).Nodup := by
    refine (hsublist.map Candidate.name).nodup ?_
    rw [Members.map_name_candidates]
    exact (hclasses.wellFormed_entry hget).nodup_fieldNames
  have hmake : ∀ f ∈ v.entry.interests h.names exposed,
      Interns h.names (s.propertyOf h.classes v f) (FieldProperty.texts h.names f.name f.isVar)
        fun t => (r.facts h.classes v.entry f).property t v.entry (s.label v.entry) := by
    intro f hf
    obtain ⟨text, htext, -⟩ := hn.exists_text hget (hsublist.mem hf)
    rw [← r.name_facts h.classes v.entry f] at htext
    have hfield := FieldProperty.interns_ofField htext v.entry (s.label v.entry)
    rw [r.name_facts, r.isVar_facts] at hfield
    rw [hreading.propertyOf_eq, s.description_eq_label hv]
    exact hfield
  exact .bind (s.interns_candidates hi hn hs hasks hget hv)
    (fun fields => s.onlyInterns_foldlM_offer hi h.classes v fields m)
    fun t _ =>
      FieldMap.interns_foldlM_offer (s.onlyInterns_propertyOf hi h.classes v) hmake hnodup m

/-- Collecting from some classes one after the other interns the texts of their shares and finds
their properties.

**Proof sketch.** Induction on the classes.  What a class adds to the map takes the names of its
share. -/
theorem Synthesizer.interns_foldlM_collectVisit {visits : List Visit}
    (hget : ∀ v ∈ visits, h.classes.get? v.entry.id = some v.entry)
    (hv : ∀ v ∈ visits, v.entry.declaredFields = .ok v.fields) (m : FieldMap) :
    let shares := Share.ofClasses h.names exposed m.keys (visits.map Visit.entry)
    Interns h.names (visits.foldlM (s.collectVisit h.classes) m)
      (shares.flatMap (Share.texts h.names asked)) fun t =>
        ⟨m.entries ++ shares.flatMap (Share.entries s r h.classes t)⟩ := by
  induction visits generalizing m with
  | nil =>
    exact .congr (.pure m) rfl fun t _ => by
      simp [Share.ofClasses]
  | cons v visits ih =>
    have hvisit := s.interns_collectVisit hn hclasses hs hasks hreading (hget v List.mem_cons_self)
      (hv v List.mem_cons_self) m
    have ih := ih (fun w hw => hget w (List.mem_cons_of_mem v hw))
      (fun w hw => hv w (List.mem_cons_of_mem v hw))
    have hi := hreading.onlyInterns hs.builtIn.onlyInterns
    have hkeys (entries : List (Name × FieldProperty)) :
        (FieldMap.mk (m.entries ++ entries)).keys = m.keys ++ entries.map Prod.fst :=
      List.map_append
    have hrest (share : Share) (t : NameTable) := ih ⟨m.entries ++ share.entries s r h.classes t⟩
    simp only [hkeys, Share.map_fst_entries] at hrest
    rw [List.foldlM_cons]
    refine .congr (.bind hvisit (s.onlyInterns_foldlM_collectVisit hi h.classes visits)
      fun t _ => hrest _ t) rfl fun t _ => ?_
    simp only [Share.ofClasses, List.map_cons, List.flatMap_cons, List.append_assoc]
    rfl

end Visits

end Queries

/-! ## Queries -/

namespace ClassTable

variable {t : ClassTable} {start : ClassId}

/-- The classes that a query visits: none from a start that is not in the table, and otherwise those
of its chain that are within the limit, up to the first that was never loaded. -/
inductive Visits (t : ClassTable) (limit : Nat) : ClassId → List ClassEntry → Prop where
  | unknown {start : ClassId} (notRoot : start ≠ .root) (missing : t.get? start = none) :
      Visits t limit start []
  | known {start : ClassId} {chain : List ClassEntry} (along : t.Chain start chain) :
      Visits t limit start ((chain.take limit).takeWhile fun c => !c.isUnloaded)

/-- A climb visits the classes that a query does. -/
theorem WellFormed.visits_climb (h : t.WellFormed) (limit : Nat) (start : ClassId) :
    t.Visits limit start ((t.climb limit start).visited.map Visit.entry) := by
  obtain ⟨path, hpath⟩ := h.exists_path start
  cases hpath with
  | unknown notRoot missing =>
    rw [climb_of_unknown notRoot missing]
    exact .unknown notRoot missing
  | known along =>
    rw [climb_eq_along along, Climb.visited_along]
    exact .known along

/-- Every visit of a climb is one of a class of the table, with the fields that this declares. -/
theorem WellFormed.of_mem_climb (h : t.WellFormed) {limit : Nat} :
    ∀ v ∈ (t.climb limit start).visited,
      t.get? v.entry.id = some v.entry ∧ v.entry.declaredFields = .ok v.fields := by
  intro v hv
  obtain ⟨path, hpath⟩ := h.exists_path start
  cases hpath with
  | unknown notRoot missing =>
    rw [climb_of_unknown notRoot missing] at hv
    cases hv
  | known along =>
    exact ⟨h.get?_of_mem_chain along v.entry (entry_mem_of_mem_climb along hv),
      declaredFields_of_mem_climb along v hv⟩

end ClassTable

namespace Hierarchy

variable {h : Hierarchy} {s : Synthesizer} {r : Reading} {exposed asked : ClassEntry → List String}

/-- A query in closed form: the names grow by the texts of the shares of the visited classes, and
the answer, unless there is a fault, has the properties of these shares under the names that the
texts then have. -/
theorem Reachable.run_collect_eq (hr : h.Reachable) (hs : s.exposure.Exposes h exposed)
    (hasks : s.exposure.Asks asked) (hreading : s.Follows r) (start : ClassId)
    (hsize : ((s.collect h.classes start).run.run h.names).2.size ≤ UInt32.size) :
    let answer := (s.collect h.classes start).run.run h.names
    let climb := h.classes.climb s.settings.depthLimit start
    let shares := Share.ofClasses h.names exposed [] (climb.visited.map Visit.entry)
    answer.2 = h.names.internAll (shares.flatMap (Share.texts h.names asked)) ∧
      answer.1 = climb.fault.elim
        (.ok ⟨shares.flatMap (Share.entries s r h.classes answer.2)⟩) .error := by
  intro answer climb shares
  have hclasses := hr.wellFormed_classes
  have hi := hreading.onlyInterns hs.builtIn.onlyInterns
  have hgrow : h.names.GrowsTo answer.2 := s.onlyInterns_collect hi h.classes start h.names
  have hn := hr.wellNamed (Nat.le_trans hgrow.size_le hsize)
  have hrun : answer = _ := s.run_collect h.classes start h.names
  rw [s.run_collect] at hsize
  obtain ⟨htable, hfound⟩ := s.interns_foldlM_collectVisit hn hclasses hs hasks hreading
    (fun v hv => (hclasses.of_mem_climb v hv).1) (fun v hv => (hclasses.of_mem_climb v hv).2) .empty
    h.names (.refl h.names) hsize
  have hvisits : answer.2 = _ := congrArg Prod.snd hrun
  refine ⟨hvisits.trans htable, (congrArg Prod.fst hrun).trans ?_⟩
  have hfound := hfound answer.2 (hvisits ▸ .refl answer.2)
  exact congrArg (fun found => climb.fault.elim (Except.ok found) Except.error) hfound

/-- **Exactly what a query interns.**  A query of a host whose types and attributions do not depend
on names, whatever its outcome is, leaves the classes alone and stores the new ones among some texts
behind the others, each once and in the order of their first occurrence: for each visited class,
from the start upwards, first those that its exposure is asked for, and then for each of its fields
that gets a property, in the order of declaration, the parameter name of a setter, if the field is
mutable, and the symbol name.  The fields that get a property are the keys of the answer, if there
is one.

**Proof sketch.** This is read off the closed form of a query.  Nothing else is interned for a
class, since only its share in the answer has texts. -/
theorem Reachable.interned_collect (hr : h.Reachable) (hs : s.exposure.Exposes h exposed)
    (hasks : s.exposure.Asks asked) (hreading : s.Follows r) (start : ClassId)
    (hsize : (h.query (s.collect h.classes start).run).2.names.size < UInt32.size) :
    let outcome := (h.query (s.collect h.classes start).run).1
    let after := (h.query (s.collect h.classes start).run).2
    ∃ visited, h.classes.Visits s.settings.depthLimit start visited ∧
      let shares := Share.ofClasses h.names exposed [] visited
      let trace := shares.flatMap (Share.texts h.names asked)
      after.classes = h.classes ∧ after.names = h.names.internAll trace ∧
        after.names.texts.toList = h.names.texts.toList ++ h.names.newTexts trace ∧
        ∀ found, outcome = .ok found → found.keys = shares.flatMap Share.fieldNames := by
  intro outcome after
  obtain ⟨hnames, houtcome⟩ := hr.run_collect_eq hs hasks hreading start (Nat.le_of_lt hsize)
  refine ⟨_, hr.wellFormed_classes.visits_climb s.settings.depthLimit start, ?_⟩
  intro shares trace
  have hnames : after.names = h.names.internAll trace := hnames
  refine ⟨rfl, hnames, ?_, fun found hfound => ?_⟩
  · rw [hnames, NameTable.toList_texts_internAll]
  · have hfound := houtcome.symm.trans hfound
    cases hfault : (h.classes.climb s.settings.depthLimit start).fault with
    | some fault =>
      rw [hfault] at hfound
      cases hfound
    | none =>
      rw [hfault] at hfound
      cases hfound
      simp only [FieldMap.keys, List.map_flatMap, Share.map_fst_entries]
      rfl

/-- The limit stops a query above a compiled class: what the accessors of the class stand for has
been interned, and the symbol name of the one field that they expose, which is final. -/
theorem shapes_interned_collect :
    let h := shapes.run [.declare
      { name := "Canvas"
        superclass := some ⟨2⟩
        members := .binary [⟨"width", .primitive .int, [.final]⟩, ⟨"depth", .primitive .int, []⟩]
          [⟨"isOpen", .primitive .boolean, 0, false⟩, ⟨"getWidth", .primitive .int, 0, false⟩] }]
    let s : Synthesizer := { settings := { depthLimit := 1 } }
    let outcome := (h.query (s.collect h.classes ⟨3⟩).run).1
    let after := (h.query (s.collect h.classes ⟨3⟩).run).2
    let accessorNames (c : ClassEntry) := c.members.methods.filterMap Method.propertyName?
    outcome.toOption.isNone = true ∧
      after.names.texts.toList = h.names.texts.toList ++ ["isOpen", "width_field"] ∧
      ∃ visited, h.classes.Visits 1 ⟨3⟩ visited ∧
        after.names = h.names.internAll ((Share.ofClasses h.names accessorNames [] visited).flatMap
          (Share.texts h.names accessorNames)) := by
  intro h s outcome after accessorNames
  have hr : h.Reachable := shapes_reachable.run _
  obtain ⟨visited, hvisits, -, hnames, -⟩ := Reachable.interned_collect (s := s) hr .accessors
    .accessors (Synthesizer.follows_standard .accessors s.settings) ⟨3⟩ (by decide +kernel)
  exact ⟨by decide +kernel, by decide +kernel, visited, hvisits, hnames⟩

end Hierarchy

end BackingFields
