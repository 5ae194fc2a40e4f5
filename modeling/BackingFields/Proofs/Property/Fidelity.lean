import BackingFields.Proofs.Name.Forecast
import BackingFields.Proofs.Property.Nearest
import Mathlib.Data.List.Nodup

set_option relaxedAutoImplicit false
set_option autoImplicit false

/-!
# Properties tell the truth about their fields

A property is put together from a class, one of its fields, the settings and the names, and names
are issued in between.  Still every part of it follows from the field alone: what a map of
properties shows of a field is what the class declares about it, read off any later table of names.

## Main definitions

* `BackingFields.Synthesizer.Reads` — what is known about a field that a class declares.
* `BackingFields.Synthesizer.Steady` — types and attributions of a host do not depend on names.
* `BackingFields.FieldProperty.Presents` — a property shows this, and no more.
* `BackingFields.FieldMap.Faithful` — every property of a map does, under the name of its field.

## Main results

* `BackingFields.FieldMap.Faithful.offer`, `BackingFields.FieldMap.Faithful.collectVisit` — maps
  stay faithful when fields are offered.
* `BackingFields.Synthesizer.faithful_of_run_collect` — the answer of a query is faithful.
* `BackingFields.Hierarchy.Reachable.presents_collect` — what each property of an answer shows.

## Design notes

Only consistent tables tell the text of every name, and the tables that a query passes through are
consistent if the last one is.  So a map is compared with the tables that its own may grow to.
-/

namespace BackingFields

/-! ## What a class declares -/

/-- A computation gives a value on some table. -/
def NameM.Gives {α : Type} (m : NameM α) (a : α) : Prop := ∃ t : NameTable, (m.run t).1 = a

/-- What is known about a field that a class declares, and how fields of its kind are described.  A
field of a source class has its declared type, and is mutable if it is declared so; the type of a
field of a compiled class is the star projection of what the host makes of its metadata, and it is
mutable if it is not final. -/
inductive Synthesizer.Reads (s : Synthesizer) (classes : ClassTable) (c : ClassEntry) :
    FieldFacts → String → Prop where
  | source {fields : List (SourceField Name)} {f : SourceField Name}
      (members : c.members = .source fields) (mem : f ∈ fields) :
      Reads s classes c ⟨f.name, f.ty, f.isVar, f.origin⟩ s.settings.backingLabel
  | binary {fields : List (BinaryField Name)} {methods : List Method} {f : BinaryField Name}
      {ty : Ty} {origin : Origin} (members : c.members = .binary fields methods) (mem : f ∈ fields)
      (typed : (s.typeOf classes f.ty).Gives ty) (attributed : (s.originOf c f).Gives origin) :
      Reads s classes c ⟨f.name, ty.starProject, !f.isFinal, origin⟩ s.settings.externalLabel

/-- The types and attributions of a host do not depend on the names that have been issued. -/
structure Synthesizer.Steady (s : Synthesizer) : Prop where
  typeOf : ∀ {classes raw ty ty'}, (s.typeOf classes raw).Gives ty →
    (s.typeOf classes raw).Gives ty' → ty = ty'
  originOf : ∀ {owner field origin origin'}, (s.originOf owner field).Gives origin →
    (s.originOf owner field).Gives origin' → origin = origin'

namespace Synthesizer

/-- A host that follows a reading is steady. -/
theorem Follows.steady {s : Synthesizer} {r : Reading} (h : s.Follows r) : s.Steady where
  typeOf := by
    rintro classes raw _ _ ⟨t, rfl⟩ ⟨t', rfl⟩
    rw [h.typeOf]
    rfl
  originOf := by
    rintro owner field _ _ ⟨t, rfl⟩ ⟨t', rfl⟩
    rw [h.originOf]
    rfl

variable {s : Synthesizer} {classes : ClassTable} {c : ClassEntry} {f f' : FieldFacts}
  {description description' : String}

/-- A field that is known is one that the class lists. -/
theorem Reads.exists_candidate (h : s.Reads classes c f description) :
    ∃ g ∈ c.members.candidates, f.name = g.name := by
  cases h with
  | source members mem =>
    rw [members]
    exact ⟨_, List.mem_map_of_mem mem, rfl⟩
  | binary members mem =>
    rw [members]
    exact ⟨_, List.mem_map_of_mem mem, rfl⟩

/-- A class declares one field of a name, and a steady host has one answer for it. -/
theorem Reads.unique (hs : s.Steady) (hnodup : c.members.fieldNames.Nodup)
    (h : s.Reads classes c f description) (h' : s.Reads classes c f' description')
    (hname : f.name = f'.name) : f = f' ∧ description = description' := by
  cases h with
  | source members mem =>
    rw [members] at hnodup
    cases h' with
    | source members' mem' =>
      cases members.symm.trans members'
      cases List.inj_on_of_nodup_map hnodup mem mem' hname
      exact ⟨rfl, rfl⟩
    | binary members' mem' => cases members.symm.trans members'
  | binary members mem typed attributed =>
    rw [members] at hnodup
    cases h' with
    | source members' mem' => cases members.symm.trans members'
    | binary members' mem' typed' attributed' =>
      cases members.symm.trans members'
      cases List.inj_on_of_nodup_map hnodup mem mem' hname
      cases hs.typeOf typed typed'
      cases hs.originOf attributed attributed'
      exact ⟨rfl, rfl⟩

/-- The facts of a field that a visited class lists are known. -/
theorem reads_facts (s : Synthesizer) (classes : ClassTable) {v : Visit}
    (hv : v.entry.declaredFields = .ok v.fields) {f : Candidate}
    (hf : f ∈ v.entry.members.candidates) (t : NameTable) :
    s.Reads classes v.entry ((s.facts classes v.entry f).run t).1 (s.description v.fields) := by
  rcases v.entry.members_of_declaredFields hv with ⟨fs, members, hfields⟩ | ⟨fs, _, members, hfields⟩
  · rw [members] at hf
    rw [hfields]
    obtain ⟨field, mem, rfl⟩ := List.mem_map.mp hf
    exact .source members mem
  · rw [members] at hf
    rw [hfields]
    obtain ⟨field, mem, rfl⟩ := List.mem_map.mp hf
    exact .binary members mem ⟨t, rfl⟩ ⟨_, rfl⟩

end Synthesizer

/-! ## What a property shows -/

/-- A property shows of a field what is known about it.  It belongs to the class of the field and
extends its type with a star for each type parameter; its symbol name is the name of the field with
the suffix; it is mutable, and has a setter, exactly if the field is mutable; and its accessors are
made for the type of the field.  It and all its parts come from where the field does. -/
structure FieldProperty.Presents (names : NameTable) (c : ClassEntry) (f : FieldFacts)
    (description : String) (p : FieldProperty) : Prop where
  owner_eq : p.owner = c.id
  fieldName_eq : p.fieldName = f.name
  text?_name : ∃ text, names.text? f.name = some text ∧
    names.text? p.name = some (text ++ "_field")
  description_eq : p.description = description
  receiver_eq : p.receiver = .ofClass c.id (List.replicate c.typeParams.length .star)
  isVar_eq : p.isVar = f.isVar
  ty_eq : p.ty = f.ty
  getter_eq : p.getter =
    ⟨.getter, .everywhere, .final, .synthesized, f.ty, none, f.origin⟩
  isSome_setter : p.setter.isSome = f.isVar
  setter_eq : ∀ setter, p.setter = some setter → ∃ parameter,
    names.text? parameter = some "value" ∧ setter =
      ⟨.setter, .everywhere, .final, .synthesized, .primitive .void,
        some ⟨parameter, 0, f.ty, f.origin⟩, f.origin⟩
  origin_eq : p.origin = f.origin

/-- The receiver of a class has a star for each type parameter. -/
theorem ClassEntry.starProject_defaultType (c : ClassEntry) :
    c.defaultType.starProject = .ofClass c.id (List.replicate c.typeParams.length .star) := by
  rw [defaultType, Ty.starProject, List.map_map]
  exact congrArg (Ty.ofClass c.id) List.map_const'

namespace FieldProperty

variable {t names : NameTable}

/-- The setter of a mutable field, and no other, is made; its parameter is named for the value. -/
theorem setter_of_run_setterOf (f : FieldFacts)
    (hgrow : ((setterOf f).run t).2.GrowsTo names) (hnames : names.Consistent) :
    ((setterOf f).run t).1.isSome = f.isVar ∧
      ∀ setter, ((setterOf f).run t).1 = some setter → ∃ parameter,
        names.text? parameter = some parameterName ∧ setter = f.setter parameter := by
  unfold setterOf at hgrow ⊢
  cases hvar : f.isVar with
  | false =>
    refine ⟨rfl, fun setter hsetter => ?_⟩
    cases hsetter
  | true =>
    rw [hvar] at hgrow
    refine ⟨rfl, fun setter hsetter => ⟨(t.intern parameterName).1, ?_, ?_⟩⟩
    · exact (hnames _ _).mp (hgrow.find?_eq_some (t.find?_intern_self parameterName))
    · cases hsetter
      rfl

/-- A property is made from the names that its setter and its symbol name get, one after the other;
the text of the field is read before either is interned. -/
theorem run_ofField (c : ClassEntry) (f : FieldFacts) (description : String) (t : NameTable) :
    (ofField c f description).run t =
      let setter := (setterOf f).run t
      let name := setter.2.intern (t.display f.name ++ symbolSuffix)
      ({ owner := c.id
         fieldName := f.name
         name := name.1
         description := description
         isVar := f.isVar
         ty := f.ty
         receiver := c.defaultType.starProject
         getter := f.getter
         setter := setter.1
         origin := f.origin }, name.2) :=
  rfl

/-- The property made for a field shows what is known about it, by any consistent table that the
names grow to. -/
theorem presents_ofField {f : FieldFacts} {text : String} (hf : t.text? f.name = some text)
    (c : ClassEntry) (description : String)
    (hgrow : ((ofField c f description).run t).2.GrowsTo names) (hnames : names.Consistent) :
    ((ofField c f description).run t).1.Presents names c f description := by
  rw [run_ofField] at hgrow ⊢
  have htext : t.display f.name = text := NameTable.display_of_text?_eq_some hf
  have hgrow₁ := (((setterOf f).run t).2.growsTo_intern (t.display f.name ++ symbolSuffix)).trans
    hgrow
  obtain ⟨hsome, hsetter⟩ := setter_of_run_setterOf f hgrow₁ hnames
  exact {
    owner_eq := rfl
    fieldName_eq := rfl
    text?_name := by
      refine ⟨text, ((onlyInterns_setterOf f t).trans hgrow₁).text?_eq_some hf, ?_⟩
      rw [← hnames, ← htext]
      exact hgrow.find?_eq_some (NameTable.find?_intern_self _ _)
    description_eq := rfl
    receiver_eq := c.starProject_defaultType
    isVar_eq := rfl
    ty_eq := rfl
    getter_eq := rfl
    isSome_setter := hsome
    setter_eq := hsetter
    origin_eq := rfl }

end FieldProperty

/-! ## Maps of properties -/

/-- A map has at most one property for each field name, and each shows a field of this name that a
class other than the root declares, by any consistent table that the names grow to. -/
structure FieldMap.Faithful (s : Synthesizer) (classes : ClassTable) (t : NameTable)
    (m : FieldMap) : Prop where
  nodup_keys : m.keys.Nodup
  presents : ∀ names, t.GrowsTo names → names.Consistent → ∀ entry ∈ m.entries,
    ∃ c f description, classes.get? c.id = some c ∧ c.id ≠ .root ∧
      s.Reads classes c f description ∧ f.name = entry.1 ∧ entry.2.Presents names c f description

namespace FieldMap.Faithful

variable {s : Synthesizer} {classes : ClassTable} {t t' : NameTable} {m : FieldMap}

/-- The map without properties is faithful. -/
theorem empty (s : Synthesizer) (classes : ClassTable) (t : NameTable) :
    Faithful s classes t .empty :=
  ⟨.nil, fun _ _ _ _ hentry => absurd hentry List.not_mem_nil⟩

/-- A faithful map stays faithful when the names grow. -/
theorem growsTo (h : m.Faithful s classes t) (hgrow : t.GrowsTo t') : m.Faithful s classes t' :=
  ⟨h.nodup_keys, fun names hgrow' => h.presents names (hgrow.trans hgrow')⟩

/-- Offering a field keeps a map faithful if the property made for it shows a field of this name
that a class declares.

**Proof sketch.** A field whose name is taken changes nothing.  Any other adds one property under a
new key, and the names grow no less for it. -/
theorem offer (h : m.Faithful s classes t) {c : ClassEntry} (hc : classes.get? c.id = some c)
    (hroot : c.id ≠ .root) {f : FieldFacts} {description : String}
    (hf : s.Reads classes c f description) {make : NameM FieldProperty}
    (honly : NameM.OnlyInterns make)
    (hmake : ∀ names, (make.run t).2.GrowsTo names → names.Consistent →
      (make.run t).1.Presents names c f description) :
    let run := (m.offer f.name make).run t
    run.1.Faithful s classes run.2 := by
  intro run
  by_cases htaken : f.name ∈ m.keys
  · rw [show run = _ from run_offer_of_mem htaken make t]
    exact h
  · rw [show run = _ from run_offer_of_notMem htaken make t]
    refine ⟨?_, fun names hgrow hnames entry hentry => ?_⟩
    · rw [keys_push, List.nodup_append]
      refine ⟨h.nodup_keys, List.nodup_singleton _, fun n hn n' hn' => ?_⟩
      rintro rfl
      exact htaken (List.mem_singleton.mp hn' ▸ hn)
    · rcases List.mem_append.mp hentry with hold | hlast
      · exact h.presents names ((honly t).trans hgrow) hnames entry hold
      · rw [List.mem_singleton.mp hlast]
        exact ⟨c, f, description, hc, hroot, hf, rfl, hmake names hgrow hnames⟩

section Visits

variable {h : Hierarchy} (hi : s.OnlyInterns) (hn : h.WellNamed)

include hi hn

/-- Offering a field that a visited class lists keeps a map faithful.

**Proof sketch.** What the host answers makes the facts of the field known, and the names that it
issues on the way take no text from the name of the field. -/
theorem offer_propertyOf (hm : m.Faithful s h.classes t) (hgrow : h.names.GrowsTo t) {v : Visit}
    (hget : h.classes.get? v.entry.id = some v.entry) (hroot : v.entry.id ≠ .root)
    (hv : v.entry.declaredFields = .ok v.fields) {f : Candidate}
    (hf : f ∈ v.entry.members.candidates) :
    let run := (m.offer f.name (s.propertyOf h.classes v f)).run t
    run.1.Faithful s h.classes run.2 := by
  have hfacts := s.onlyInterns_facts hi h.classes v.entry f t
  obtain ⟨text, htext, -⟩ := hn.exists_text hget hf
  rw [← s.name_facts h.classes v.entry f t] at htext ⊢
  have htext := (hgrow.trans hfacts).text?_eq_some htext
  exact hm.offer hget hroot (s.reads_facts h.classes hv hf t)
    (s.onlyInterns_propertyOf hi h.classes v f)
    fun names hgrow' hnames => FieldProperty.presents_ofField htext v.entry _ hgrow' hnames

/-- Offering fields that a visited class lists, one after the other, keeps a map faithful. -/
theorem foldlM_offer (hm : m.Faithful s h.classes t) (hgrow : h.names.GrowsTo t) {v : Visit}
    (hget : h.classes.get? v.entry.id = some v.entry) (hroot : v.entry.id ≠ .root)
    (hv : v.entry.declaredFields = .ok v.fields) {fields : List Candidate}
    (hfields : ∀ f ∈ fields, f ∈ v.entry.members.candidates) :
    let run := (fields.foldlM
      (fun (m : FieldMap) f => m.offer f.name (s.propertyOf h.classes v f)) m).run t
    run.1.Faithful s h.classes run.2 := by
  induction fields generalizing m t with
  | nil => exact hm
  | cons f fields ih =>
    have hoffer := m.onlyInterns_offer f.name (s.onlyInterns_propertyOf hi h.classes v f) t
    rw [List.foldlM_cons]
    exact ih (hm.offer_propertyOf hi hn hgrow hget hroot hv (hfields f List.mem_cons_self))
      (hgrow.trans hoffer) fun g hg => hfields g (List.mem_cons_of_mem f hg)

/-- Collecting from a class keeps a map faithful. -/
theorem collectVisit (hm : m.Faithful s h.classes t) (hgrow : h.names.GrowsTo t) {v : Visit}
    (hget : h.classes.get? v.entry.id = some v.entry) (hroot : v.entry.id ≠ .root)
    (hv : v.entry.declaredFields = .ok v.fields) :
    let run := (s.collectVisit h.classes m v).run t
    run.1.Faithful s h.classes run.2 := by
  have hcandidates := s.onlyInterns_candidates hi h.classes v.entry v.fields t
  exact (hm.growsTo hcandidates).foldlM_offer hi hn (hgrow.trans hcandidates) hget hroot hv
    fun f hf => s.mem_candidates h.classes hv hf

/-- Collecting from some classes one after the other keeps a map faithful. -/
theorem foldlM_collectVisit (hm : m.Faithful s h.classes t) (hgrow : h.names.GrowsTo t)
    {visits : List Visit}
    (hvisits : ∀ v ∈ visits, h.classes.get? v.entry.id = some v.entry ∧ v.entry.id ≠ .root ∧
      v.entry.declaredFields = .ok v.fields) :
    let run := (visits.foldlM (s.collectVisit h.classes) m).run t
    run.1.Faithful s h.classes run.2 := by
  induction visits generalizing m t with
  | nil => exact hm
  | cons v visits ih =>
    obtain ⟨hget, hroot, hv⟩ := hvisits v List.mem_cons_self
    have hvisit := s.onlyInterns_collectVisit hi h.classes m v t
    rw [List.foldlM_cons]
    exact ih (hm.collectVisit hi hn hgrow hget hroot hv) (hgrow.trans hvisit)
      fun w hw => hvisits w (List.mem_cons_of_mem v hw)

end Visits

end FieldMap.Faithful

/-! ## Answers -/

/-- The answer of a query is faithful, from whatever names the query begins with. -/
theorem Synthesizer.faithful_of_run_collect {s : Synthesizer} {h : Hierarchy}
    (hclasses : h.classes.WellFormed) (hn : h.WellNamed) (hi : s.OnlyInterns)
    {start : ClassId} {found : FieldMap} {t names : NameTable} (hgrow : h.names.GrowsTo t)
    (hrun : (s.collect h.classes start).run.run t = (.ok found, names)) :
    found.Faithful s h.classes names := by
  obtain ⟨hfault, hfold⟩ := run_collect_eq_ok hrun
  have hchain := hclasses.chain_of_fault_eq_none hfault
  have hvisits : ∀ v ∈ (h.classes.climb s.settings.depthLimit start).visited,
      h.classes.get? v.entry.id = some v.entry ∧ v.entry.id ≠ .root ∧
        v.entry.declaredFields = .ok v.fields := fun v hv =>
    ⟨hclasses.get?_of_mem_chain hchain v.entry (List.mem_map_of_mem hv),
      hclasses.ne_root_of_mem_chain hchain v.entry (List.mem_map_of_mem hv),
      ClassTable.declaredFields_of_mem_climb hchain v hv⟩
  have hfaithful :=
    (FieldMap.Faithful.empty s h.classes t).foldlM_collectVisit hi hn hgrow hvisits
  rw [hfold] at hfaithful
  exact hfaithful

namespace Hierarchy

variable {h : Hierarchy} {s : Synthesizer} {start : ClassId} {found : FieldMap} {names : NameTable}

/-- **Properties tell the truth about their fields.**  If a query has an answer, then each of its
properties belongs to a class of the hierarchy other than the root, this class declares a field of
the name under which the property is kept, and the property shows what is known about this field:
its name, with the suffix for the symbol name, the type of its class as the receiver, its type, its
mutability and its origin, all of them again in the accessors.  This holds whatever the host has
supplied to expose names, to resolve types and to attribute fields, as long as its types and
attributions do not depend on names.

**Proof sketch.** The map that a query begins with is faithful, and collecting from a class keeps it
so.  A class declares no other field of the same name. -/
theorem Reachable.presents_collect (hr : h.Reachable) (hi : s.OnlyInterns) (hs : s.Steady)
    (hrun : (s.collect h.classes start).run.run h.names = (.ok found, names))
    (hsize : names.size < UInt32.size) :
    ∀ k p, (k, p) ∈ found.entries → ∃ c, h.classes.get? p.owner = some c ∧ p.owner ≠ .root ∧
      (∃ f description, s.Reads h.classes c f description ∧ f.name = k) ∧
      ∀ f description, s.Reads h.classes c f description → f.name = k →
        p.Presents names c f description := by
  have hclasses := hr.wellFormed_classes
  have hgrow : h.names.GrowsTo names := (s.onlyInterns_collect hi h.classes start).growsTo hrun
  have hle := Nat.le_of_lt hsize
  have hn := hr.wellNamed (Nat.le_trans hgrow.size_le hle)
  have hfaithful := Synthesizer.faithful_of_run_collect hclasses hn hi (.refl h.names) hrun
  intro k p hentry
  obtain ⟨c, f, description, hget, hroot, hreads, rfl, hpresents⟩ :=
    hfaithful.presents names (.refl names) (hgrow.consistent hn.consistent hle) (k, p) hentry
  rw [hpresents.owner_eq]
  refine ⟨c, hget, hroot, ⟨f, description, hreads, rfl⟩, fun f' description' hreads' hname => ?_⟩
  obtain ⟨rfl, rfl⟩ :=
    hreads'.unique hs (hclasses.wellFormed_entry hget).nodup_fieldNames hreads hname
  exact hpresents

/-- The properties of a source class and of the compiled class above it show their fields, one of
them mutable and the other of a type that no class has. -/
theorem shapes_presents_collect :
    let answer := (({} : Synthesizer).collect shapes.classes ⟨2⟩).run.run shapes.names
    answer.2.size < UInt32.size ∧ ∃ found, answer.1 = .ok found ∧
      found.properties.map (fun p => (answer.2.display p.name, p.isVar)) =
        [("radius_field", true), ("area_field", true)] ∧
      ∀ k p, (k, p) ∈ found.entries → ∃ c f description, shapes.classes.get? p.owner = some c ∧
        f.name = k ∧ p.Presents answer.2 c f description := by
  intro answer
  have hsize : answer.2.size < UInt32.size := by decide +kernel
  have htexts : (answer.1.toOption.map fun found =>
      found.properties.map fun p => (answer.2.display p.name, p.isVar)) =
        some [("radius_field", true), ("area_field", true)] := by decide +kernel
  have hfollows := Synthesizer.follows_standard .accessors {}
  have hinterns := hfollows.onlyInterns Exposure.onlyInterns_accessors
  have hsteady := hfollows.steady
  refine ⟨hsize, ?_⟩
  cases houtcome : answer.1 with
  | error fault =>
    rw [houtcome] at htexts
    cases htexts
  | ok found =>
    rw [houtcome] at htexts
    refine ⟨found, rfl, Option.some_inj.mp htexts, fun k p hentry => ?_⟩
    obtain ⟨c, hget, -, ⟨f, description, hreads, hname⟩, hpresents⟩ :=
      Reachable.presents_collect shapes_reachable hinterns hsteady (Prod.ext houtcome rfl) hsize k p
        hentry
    exact ⟨c, f, description, hget, hname, hpresents f description hreads hname⟩

end Hierarchy

end BackingFields
