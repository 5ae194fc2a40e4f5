import BackingFields.Proofs.Hierarchy.Correspondence
import BackingFields.Proofs.Property.Answer
import BackingFields.Proofs.Property.Replay

set_option relaxedAutoImplicit false
set_option autoImplicit false

/-!
# Answers do not depend on what else has been interned

A name is a position in a table, and its position depends on everything that has been interned
before: by earlier queries, by refused declarations, by the host itself.  A query compares names at
every step, and nevertheless its answer depends on their texts only.  So the same query of two
hierarchies with the same accepted declarations has the same fault, or the same properties in the
same order, up to names that have the same text.

## Main definitions

* `BackingFields.FieldProperty.Alike`, `BackingFields.FieldMap.Alike` — two properties, and two
  answers, are the same up to names.
* `BackingFields.Exposure.Alike`, `BackingFields.Synthesizer.Alike` — two hosts ask for the same.
* `BackingFields.Synthesizer.OutcomesAlike` — two outcomes are the same up to names.

## Main results

* `BackingFields.Hierarchy.Alike.outcomesAlike` — a query of two hierarchies that are alike.
* `BackingFields.Hierarchy.independent_collect` — a query after two histories with the same accepted
  declarations.

## Design notes

The relations between parts of properties are stated for any relations between their names and
between their origins.  Only for a field of a compiled class does the library make the origin, with
the name of the field in it; any other origin comes from the declaration and is the same in both.
-/

namespace BackingFields

/-! ## Properties up to names -/

section Relations

variable (N : Name → Name → Prop) (O : Origin → Origin → Prop)

/-- Two parameters are the same up to names and origins. -/
structure ValueParameter.Alike (p p' : ValueParameter) : Prop where
  name : N p.name p'.name
  index_eq : p'.index = p.index
  ty_eq : p'.ty = p.ty
  origin : O p.origin p'.origin

/-- Two accessors are the same up to names and origins. -/
structure Accessor.Alike (a a' : Accessor) : Prop where
  kind_eq : a'.kind = a.kind
  visibility_eq : a'.visibility = a.visibility
  modality_eq : a'.modality = a.modality
  memberKind_eq : a'.memberKind = a.memberKind
  returnType_eq : a'.returnType = a.returnType
  parameter : Option.Rel (ValueParameter.Alike N O) a.parameter a'.parameter
  origin : O a.origin a'.origin

/-- Two properties are the same up to names and origins. -/
structure FieldProperty.Alike (p p' : FieldProperty) : Prop where
  owner_eq : p'.owner = p.owner
  fieldName : N p.fieldName p'.fieldName
  name : N p.name p'.name
  description_eq : p'.description = p.description
  isVar_eq : p'.isVar = p.isVar
  ty_eq : p'.ty = p.ty
  receiver_eq : p'.receiver = p.receiver
  getter : p.getter.Alike N O p'.getter
  setter : Option.Rel (Accessor.Alike N O) p.setter p'.setter
  origin : O p.origin p'.origin

/-- Two fields are the same up to names and origins. -/
structure FieldFacts.Alike (f f' : FieldFacts) : Prop where
  name : N f.name f'.name
  ty_eq : f'.ty = f.ty
  isVar_eq : f'.isVar = f.isVar
  origin : O f.origin f'.origin

/-- Two origins of fields of a class are the same up to names: a field of a compiled class is
attributed to this class and the name of a field, and any other to what it was declared with. -/
def ClassTable.OriginsAlike (t : ClassTable) (owner : ClassId) (o o' : Origin) : Prop :=
  match t.kind? owner with
  | some .binary => ∃ n n', N n n' ∧ o = .compiled owner n ∧ o' = .compiled owner n'
  | _ => o' = o

/-- Two answers are the same up to names: entry by entry, in their order. -/
def FieldMap.Alike (t : ClassTable) (m m' : FieldMap) : Prop :=
  List.Forall₂ (fun e e' => N e.1 e'.1 ∧ e.2.Alike N (t.OriginsAlike N e.2.owner) e'.2) m.entries
    m'.entries

/-- Two outcomes of a query are the same up to names: the same fault, or answers that are the same
up to names. -/
inductive Synthesizer.OutcomesAlike (t : ClassTable) :
    Except ResolveError FieldMap → Except ResolveError FieldMap → Prop
  | fault (fault : ResolveError) : OutcomesAlike t (.error fault) (.error fault)
  | found {m m' : FieldMap} (found : m.Alike N t m') : OutcomesAlike t (.ok m) (.ok m')

end Relations

variable {N N' : Name → Name → Prop} {O : Origin → Origin → Prop}

/-- Origins stay the same up to names that are related in another way. -/
theorem ClassTable.OriginsAlike.imp (hN : ∀ n n', N n n' → N' n n') {t : ClassTable}
    {owner : ClassId} {o o' : Origin} (h : t.OriginsAlike N owner o o') :
    t.OriginsAlike N' owner o o' := by
  unfold OriginsAlike at h ⊢
  generalize t.kind? owner = kind at h ⊢
  rcases kind with _ | _ | _ | _
  · exact h
  · exact h
  · obtain ⟨n, n', hn, ho, ho'⟩ := h
    exact ⟨n, n', hN n n' hn, ho, ho'⟩
  · exact h

/-- The names of one text in two tables that know it have the same text. -/
theorem NameTable.sameText_nameOf {t t' : NameTable} {s : String} (ht : t.Consistent)
    (ht' : t'.Consistent) (hs : ∃ n, t.find? s = some n) (hs' : ∃ n, t'.find? s = some n) :
    t.SameText t' (t.nameOf s) (t'.nameOf s) := by
  obtain ⟨n, hn⟩ := hs
  obtain ⟨n', hn'⟩ := hs'
  rw [(GrowsTo.refl t).nameOf_eq hn, (GrowsTo.refl t').nameOf_eq hn']
  exact sameText_of_find? ht ht' hn hn'

/-- The properties for two fields that are the same are the same, once their texts are interned.

**Proof sketch.** The two fields have names of one text, hence symbol names of one text. -/
theorem FieldFacts.Alike.property {base base' t t' : NameTable} {f f' : FieldFacts}
    (hf : f.Alike (base.SameText base') O f') (hgrow : base.GrowsTo t) (hgrow' : base'.GrowsTo t')
    (ht : t.Consistent) (ht' : t'.Consistent)
    (hknown : ∀ s ∈ FieldProperty.texts base f.name f.isVar, ∃ n, t.find? s = some n)
    (hknown' : ∀ s ∈ FieldProperty.texts base' f'.name f'.isVar, ∃ n, t'.find? s = some n)
    {c c' : ClassEntry} (hc : c.Alike base base' c') (description : String) :
    (f.property t c description).Alike (t.SameText t') O (f'.property t' c' description) := by
  obtain ⟨text, htext, htext'⟩ := hf.name
  rw [FieldProperty.texts_of_text? htext] at hknown
  rw [FieldProperty.texts_of_text? htext', hf.isVar_eq] at hknown'
  have hsymbol := NameTable.sameText_nameOf ht ht'
    (hknown (text ++ FieldProperty.symbolSuffix) (by simp))
    (hknown' (text ++ FieldProperty.symbolSuffix) (by simp))
  refine ⟨hc.id_eq, hf.name.growsTo hgrow hgrow', ?_, rfl, hf.isVar_eq, hf.ty_eq, ?_, ?_, ?_,
    hf.origin⟩
  · simp only [FieldFacts.property, hgrow.display_eq htext, hgrow'.display_eq htext']
    exact hsymbol
  · simp only [FieldFacts.property, hc.defaultType_eq]
  · exact ⟨rfl, rfl, rfl, rfl, hf.ty_eq, .none, hf.origin⟩
  · simp only [FieldFacts.property, hf.isVar_eq]
    cases hvar : f.isVar with
    | false => exact .none
    | true =>
      rw [hvar] at hknown hknown'
      have hparameter := NameTable.sameText_nameOf ht ht'
        (hknown FieldProperty.parameterName (by simp))
        (hknown' FieldProperty.parameterName (by simp))
      exact .some ⟨rfl, rfl, rfl, rfl, rfl, .some ⟨hparameter, rfl, hf.ty_eq, hf.origin⟩, hf.origin⟩

/-! ## Hosts that ask for the same -/

/-- Two exposures of the library that expose the same on two hierarchies: the names of accessor
methods, or names that the host has listed, of the same texts for each class. -/
inductive Exposure.Alike (h h' : Hierarchy) : Exposure → Exposure → Prop
  | accessors : Alike h h' .accessors .accessors
  | fixed {f f' : FixedNames} {listed listed' : ClassId → List String}
      (built : f.BuiltOver h listed) (built' : f'.BuiltOver h' listed')
      (same : ∀ id s, s ∈ listed' id ↔ s ∈ listed id) :
      Alike h h' (.fixed f) (.fixed f')

/-- Two synthesizers of the library that ask for the same, with the same limit and the same
descriptions. -/
structure Synthesizer.Alike (h h' : Hierarchy) (s s' : Synthesizer) : Prop where
  exposure : s.exposure.Alike h h' s'.exposure
  standard : s.Standard
  standard' : s'.Standard
  settings_eq : s'.settings = s.settings

/-- Exposures that expose the same have some texts, the same for classes that are the same up to
names. -/
theorem Exposure.Alike.exists_exposes {h h' : Hierarchy} {e e' : Exposure} (he : e.Alike h h' e') :
    ∃ exposed exposed' asked asked', e.Exposes h exposed ∧ e'.Exposes h' exposed' ∧
      e.Asks asked ∧ e'.Asks asked' ∧
      ∀ c c', c.Alike h.names h'.names c' →
        ∀ s, (exposed' c').contains s = (exposed c).contains s := by
  cases he with
  | accessors =>
    refine ⟨_, _, _, _, .accessors, .accessors, .accessors, .accessors, fun c c' hc s => ?_⟩
    rw [hc.methods_eq]
  | fixed built built' same =>
    refine ⟨_, _, _, _, .fixed built, .fixed built', .fixed _, .fixed _, fun c c' hc s => ?_⟩
    rw [hc.id_eq, Bool.eq_iff_iff, List.contains_iff_mem, List.contains_iff_mem, same]

/-! ## Shares -/

/-- Two fields of two classes are the same up to names: what the library makes their properties from
is. -/
def Candidate.Alike (h h' : Hierarchy) (c c' : ClassEntry) (f f' : Candidate) : Prop :=
  (Reading.standard.facts h.classes c f).Alike (h.names.SameText h'.names)
    (h.classes.OriginsAlike (h.names.SameText h'.names) c.id)
    (Reading.standard.facts h'.classes c' f')

/-- Fields that are the same up to names have names of the same text. -/
theorem Candidate.Alike.sameText_name {h h' : Hierarchy} {c c' : ClassEntry} {f f' : Candidate}
    (hf : f.Alike h h' c c' f') : h.names.SameText h'.names f.name f'.name := by
  have hname := FieldFacts.Alike.name hf
  rwa [Reading.name_facts, Reading.name_facts] at hname

/-- Two shares are the same up to names. -/
structure Share.Alike (h h' : Hierarchy) (share share' : Share) : Prop where
  owner : share.owner.Alike h.names h'.names share'.owner
  fields : List.Forall₂ (Candidate.Alike h h' share.owner share'.owner) share.fields share'.fields

section Shares

variable {h h' : Hierarchy} {c c' : ClassEntry} {n n' : Name}

/-- Fields of source classes that are declared as one are the same up to names. -/
theorem SourceField.alike (hkind : h.classes.kind? c.id = some .source) {d : SourceField String}
    {f f' : SourceField Name} (hf : f = d.withName n) (hf' : f' = d.withName n')
    (hname : h.names.SameText h'.names n n') :
    Candidate.Alike h h' c c' (.source f) (.source f') := by
  subst hf hf'
  refine ⟨hname, rfl, rfl, ?_⟩
  rw [ClassTable.OriginsAlike, hkind]
  rfl

/-- Fields of compiled classes that are declared as one are the same up to names. -/
theorem BinaryField.alike (ha : h.Alike h') (hid : c'.id = c.id)
    (hkind : h.classes.kind? c.id = some .binary) {d : BinaryField String} {f f' : BinaryField Name}
    (hf : f = d.withName n) (hf' : f' = d.withName n') (hname : h.names.SameText h'.names n n') :
    Candidate.Alike h h' c c' (.binary f) (.binary f') := by
  subst hf hf'
  refine ⟨hname, ha.starProject_resolve_eq d.ty, rfl, ?_⟩
  rw [ClassTable.OriginsAlike, hkind]
  exact ⟨n, n', hname, rfl, hid ▸ rfl⟩

variable (ha : h.Alike h') (hn : h.names.Consistent) (hn' : h'.names.Consistent)
  {exposed exposed' : ClassEntry → List String}
  (hexposed : ∀ c c', c.Alike h.names h'.names c' →
    ∀ s, (exposed' c').contains s = (exposed c).contains s)

include ha hn hn' hexposed

/-- Classes that are the same up to names have the same fields of interest.

**Proof sketch.** There is one list of declared fields for both.  A field has the declared text
under either of its names, and this is exposed on both classes or on neither. -/
theorem ClassEntry.forall₂_interests (hc : h.classes.get? c.id = some c)
    (hcc : c.Alike h.names h'.names c') :
    List.Forall₂ (Candidate.Alike h h' c c') (c.interests h.names exposed)
      (c'.interests h'.names exposed') := by
  obtain ⟨declared, hnamed, hnamed'⟩ := hcc.members_namedIn
  have hkind : h.classes.kind? c.id = some c.members.kind := by
    rw [ClassTable.kind?, hc]
    rfl
  unfold interests
  generalize c.members = members at hnamed hkind ⊢
  generalize c'.members = members' at hnamed' ⊢
  cases hnamed with
  | unloaded =>
    cases hnamed' with
    | unloaded => exact .nil
  | source named =>
    cases hnamed' with
    | source named' =>
      refine List.rel_map ?_ (List.rel_filter ?_ (named.forall₂ named'))
      · rintro f f' ⟨d, hd, hd', hf, hf'⟩
        exact SourceField.alike hkind hf hf' (NameTable.sameText_of_find? hn hn' hd hd')
      · rintro f f' ⟨d, -, -, hf, hf'⟩
        show f.hasBackingField = true ↔ f'.hasBackingField = true
        rw [hf, hf']
        rfl
  | binary named valid =>
    cases hnamed' with
    | binary named' valid' =>
      refine List.rel_map ?_ (List.rel_filter ?_ (named.forall₂ named'))
      · rintro f f' ⟨d, hd, hd', hf, hf'⟩
        have hname := NameTable.sameText_of_find? hn hn' hd hd'
        exact BinaryField.alike ha hcc.id_eq hkind hf hf' hname
      · rintro f f' ⟨d, hd, hd', hf, hf'⟩
        have hmodifiers : f'.modifiers = f.modifiers := by
          rw [hf, hf']
          rfl
        dsimp only [BinaryField.isStatic, BinaryField.isEnumEntry]
        rw [(hn d.name f.name).mp hd, (hn' d.name f'.name).mp hd', hmodifiers, Option.any_some,
          Option.any_some, hexposed c c' hcc]

/-- Classes that are the same up to names have the same shares, where the names that are taken have
the same texts.

**Proof sketch.** Induction on the classes.  A field of interest is shadowed in both hierarchies or
in neither, since having the same text is one-to-one. -/
theorem Share.forall₂_ofClasses {visited visited' : List ClassEntry}
    (hvisited : List.Forall₂ (ClassEntry.Alike h.names h'.names) visited visited')
    (hget : ∀ c ∈ visited, h.classes.get? c.id = some c) {taken taken' : List Name}
    (htaken : List.Forall₂ (h.names.SameText h'.names) taken taken') :
    List.Forall₂ (Share.Alike h h') (ofClasses h.names exposed taken visited)
      (ofClasses h'.names exposed' taken' visited') := by
  induction hvisited generalizing taken taken' with
  | nil => exact .nil
  | @cons c c' visited visited' hcc _ ih =>
    have hfields : List.Forall₂ (Candidate.Alike h h' c c')
        ((c.interests h.names exposed).filter fun f => !taken.contains f.name)
        ((c'.interests h'.names exposed').filter fun f => !taken'.contains f.name) := by
      refine List.rel_filter ?_
        (ClassEntry.forall₂_interests ha hn hn' hexposed (hget c List.mem_cons_self) hcc)
      intro f f' hf
      dsimp only
      rw [hf.sameText_name.contains_eq hn hn' htaken]
    have hnames := List.rel_append htaken (List.rel_map (fun f f' hf => hf.sameText_name) hfields)
    rw [ofClasses, ofClasses]
    exact .cons ⟨hcc, hfields⟩ (ih (fun d hd => hget d (List.mem_cons_of_mem c hd)) hnames)

end Shares

/-- A relation between the items of two lists may be replaced by another one that follows from it
for the items of these lists. -/
theorem forall₂_imp_of_mem {α β : Type} {R S : α → β → Prop} {as : List α} {bs : List β}
    (h : List.Forall₂ R as bs) (himp : ∀ a ∈ as, ∀ b ∈ bs, R a b → S a b) :
    List.Forall₂ S as bs := by
  refine List.forall₂_iff_zip.mpr ⟨h.length_eq, fun hab => ?_⟩
  obtain ⟨ha, hb⟩ := List.of_mem_zip hab
  exact himp _ ha _ hb (List.forall₂_zip h hab)

section Answers

variable {h h' : Hierarchy} {s s' : Synthesizer}

/-- Classes that are the same up to names have the same description. -/
theorem Synthesizer.Alike.label_eq (hs : s.Alike h h' s') {c c' : ClassEntry}
    (hcc : c.Alike h.names h'.names c') : s'.label c' = s.label c := by
  rw [label, label, hcc.kind_eq, hs.settings_eq]

/-- Shares that are the same up to names have the same properties, once the texts of their fields
are interned. -/
theorem Share.Alike.forall₂_entries (hs : s.Alike h h' s') {t t' : NameTable}
    (hgrow : h.names.GrowsTo t) (hgrow' : h'.names.GrowsTo t') (ht : t.Consistent)
    (ht' : t'.Consistent) {share share' : Share} (hshare : share.Alike h h' share')
    (hknown : ∀ f ∈ share.fields, ∀ r ∈ FieldProperty.texts h.names f.name f.isVar,
      ∃ n, t.find? r = some n)
    (hknown' : ∀ f ∈ share'.fields, ∀ r ∈ FieldProperty.texts h'.names f.name f.isVar,
      ∃ n, t'.find? r = some n) :
    List.Forall₂ (fun e e' => t.SameText t' e.1 e'.1 ∧
      e.2.Alike (t.SameText t') (h.classes.OriginsAlike (t.SameText t') e.2.owner) e'.2)
      (share.entries s .standard h.classes t) (share'.entries s' .standard h'.classes t') := by
  rw [entries, entries, List.forall₂_map_left_iff, List.forall₂_map_right_iff]
  refine forall₂_imp_of_mem hshare.fields ?_
  intro f hf f' hf' hff
  have hlater : (Reading.standard.facts h.classes share.owner f).Alike (h.names.SameText h'.names)
      (h.classes.OriginsAlike (t.SameText t') share.owner.id)
      (Reading.standard.facts h'.classes share'.owner f') :=
    { hff with origin := hff.origin.imp fun n n' hnn => hnn.growsTo hgrow hgrow' }
  refine ⟨hff.sameText_name.growsTo hgrow hgrow', ?_⟩
  rw [hs.label_eq hshare.owner]
  refine hlater.property hgrow hgrow' ht ht' ?_ ?_ hshare.owner _
  · rw [Reading.name_facts, Reading.isVar_facts]
    exact hknown f hf
  · rw [Reading.name_facts, Reading.isVar_facts]
    exact hknown' f' hf'

/-- Lists of shares that are the same up to names have the same properties, once the texts of their
fields are interned. -/
theorem Share.forall₂_flatMap_entries (hs : s.Alike h h' s') {t t' : NameTable}
    (hgrow : h.names.GrowsTo t) (hgrow' : h'.names.GrowsTo t') (ht : t.Consistent)
    (ht' : t'.Consistent) {shares shares' : List Share}
    (hshares : List.Forall₂ (Share.Alike h h') shares shares')
    (hknown : ∀ share ∈ shares, ∀ f ∈ share.fields,
      ∀ r ∈ FieldProperty.texts h.names f.name f.isVar, ∃ n, t.find? r = some n)
    (hknown' : ∀ share ∈ shares', ∀ f ∈ share.fields,
      ∀ r ∈ FieldProperty.texts h'.names f.name f.isVar, ∃ n, t'.find? r = some n) :
    FieldMap.Alike (t.SameText t') h.classes
      ⟨shares.flatMap (Share.entries s .standard h.classes t)⟩
      ⟨shares'.flatMap (Share.entries s' .standard h'.classes t')⟩ := by
  unfold FieldMap.Alike
  induction hshares with
  | nil => exact .nil
  | @cons share share' shares shares' hshare _ ih =>
    rw [List.forall_mem_cons] at hknown hknown'
    rw [List.flatMap_cons, List.flatMap_cons]
    exact List.rel_append (hshare.forall₂_entries hs hgrow hgrow' ht ht' hknown.1 hknown'.1)
      (ih hknown.2 hknown'.2)

/-- The texts of the fields that get a property have names once those of their shares are
interned. -/
theorem Share.exists_find?_internAll {shares : List Share} {asked : ClassEntry → List String}
    {names : NameTable} {share : Share} (hshare : share ∈ shares) {f : Candidate}
    (hf : f ∈ share.fields) {r : String} (hr : r ∈ FieldProperty.texts names f.name f.isVar) :
    ∃ n, (names.internAll (shares.flatMap (Share.texts names asked))).find? r = some n := by
  refine names.exists_find?_internAll (List.mem_flatMap.mpr ⟨share, hshare, ?_⟩)
  exact List.mem_append_right _ (List.mem_flatMap.mpr ⟨f, hf, hr⟩)

/-- **The same query of two hierarchies that are alike.**  It has the same fault in both, or answers
that are the same up to names.

**Proof sketch.** Both queries visit the same classes and have the same fault.  The shares of these
classes are the same, and so are the properties of the shares. -/
theorem Hierarchy.Alike.outcomesAlike (ha : h.Alike h') (hr : h.Reachable) (hr' : h'.Reachable)
    (hs : s.Alike h h' s') (start : ClassId)
    (hsize : ((s.collect h.classes start).run.run h.names).2.size ≤ UInt32.size)
    (hsize' : ((s'.collect h'.classes start).run.run h'.names).2.size ≤ UInt32.size) :
    let answer := (s.collect h.classes start).run.run h.names
    let answer' := (s'.collect h'.classes start).run.run h'.names
    Synthesizer.OutcomesAlike (answer.2.SameText answer'.2) h.classes answer.1 answer'.1 := by
  intro answer answer'
  obtain ⟨exposed, exposed', asked, asked', hexposes, hexposes', hasks, hasks', hexposed⟩ :=
    hs.exposure.exists_exposes
  have hgrow : h.names.GrowsTo answer.2 :=
    s.onlyInterns_collect hs.standard.onlyInterns h.classes start h.names
  have hgrow' : h'.names.GrowsTo answer'.2 :=
    s'.onlyInterns_collect hs.standard'.onlyInterns h'.classes start h'.names
  have hn := (hr.wellNamed (Nat.le_trans hgrow.size_le hsize)).consistent
  have hn' := (hr'.wellNamed (Nat.le_trans hgrow'.size_le hsize')).consistent
  obtain ⟨hnames, houtcome⟩ := hr.run_collect_eq hexposes hasks hs.standard.follows start hsize
  obtain ⟨hnames', houtcome'⟩ :=
    hr'.run_collect_eq hexposes' hasks' hs.standard'.follows start hsize'
  rw [hs.settings_eq] at hnames' houtcome'
  have hclimb := ha.climb s.settings.depthLimit start
  have hget : ∀ c ∈ (h.classes.climb s.settings.depthLimit start).visited.map Visit.entry,
      h.classes.get? c.id = some c := by
    intro c hc
    obtain ⟨v, hv, rfl⟩ := List.mem_map.mp hc
    exact (hr.wellFormed_classes.of_mem_climb v hv).1
  have hshares := Share.forall₂_ofClasses ha hn hn' hexposed hclimb.visited hget .nil
  have hfound := Share.forall₂_flatMap_entries hs hgrow hgrow' (hgrow.consistent hn hsize)
    (hgrow'.consistent hn' hsize') hshares
    (fun share hshare f hf r hr => by
      rw [show answer.2 = _ from hnames]
      exact Share.exists_find?_internAll hshare hf hr)
    (fun share hshare f hf r hr => by
      rw [show answer'.2 = _ from hnames']
      exact Share.exists_find?_internAll hshare hf hr)
  rw [show answer.1 = _ from houtcome, show answer'.1 = _ from houtcome', hclimb.fault_eq]
  cases (h.classes.climb s.settings.depthLimit start).fault with
  | none => exact .found hfound
  | some fault => exact .fault fault

end Answers

/-! ## Histories -/

namespace Hierarchy

/-- **Answers do not depend on what else has been interned.**  If two histories that begin with
roots of one name have the same accepted declarations, whatever else is asked in between, then the
classes have the same handles in both, and the same query has the same fault after both, or answers
that are the same up to names of the same text.

**Proof sketch.** The accepted declarations determine the classes up to names, so the two
hierarchies are alike. -/
theorem independent_collect (rootName : String) (ops ops' : List Operation) (s s' : Synthesizer)
    (start : ClassId) :
    let h := (ofRoot rootName).run ops
    let h' := (ofRoot rootName).run ops'
    let query := h.query (s.collect h.classes start).run
    let query' := h'.query (s'.collect h'.classes start).run
    ((ofRoot rootName).accepted ops').map Prod.fst = ((ofRoot rootName).accepted ops).map Prod.fst →
    s.Alike h h' s' → query.2.names.size < UInt32.size → query'.2.names.size < UInt32.size →
      (ofRoot rootName).accepted ops' = (ofRoot rootName).accepted ops ∧
        (∀ qualifiedName, h'.classes.named? qualifiedName = h.classes.named? qualifiedName) ∧
        Synthesizer.OutcomesAlike (query.2.names.SameText query'.2.names) h.classes query.1
          query'.1 := by
  intro h h' query query' hsame hs hsize hsize'
  have hr : h.Reachable := (Reachable.ofRoot rootName).run ops
  have hr' : h'.Reachable := (Reachable.ofRoot rootName).run ops'
  have hl := (lists_ofRoot rootName).run ops
  have hl' := (lists_ofRoot rootName).run ops'
  rw [hsame] at hl'
  have ha : h.Alike h' := hl.alike hl' hr.wellFormed_classes hr'.wellFormed_classes
  refine ⟨?_, ha.named?_eq, ?_⟩
  · rw [accepted_eq_zipIdx, accepted_eq_zipIdx (ofRoot rootName) ops, hsame]
  · exact ha.outcomesAlike hr hr' hs start (Nat.le_of_lt hsize) (Nat.le_of_lt hsize')

/-- The symbol name of one field and the parameter name of setters have been interned before any
class is declared, and the fields of the answer have other names but the same texts. -/
theorem shapes_independent_collect :
    let ops' := .intern "value" :: .intern "area_field" :: shapesHistory
    let h := (ofRoot "Any").run shapesHistory
    let h' := (ofRoot "Any").run ops'
    let s : Synthesizer := {}
    let query := h.query (s.collect h.classes ⟨2⟩).run
    let query' := h'.query (s.collect h'.classes ⟨2⟩).run
    (query.1.toOption.map FieldMap.keys = some [⟨4⟩, ⟨1⟩] ∧
      query'.1.toOption.map FieldMap.keys = some [⟨6⟩, ⟨3⟩]) ∧
      Synthesizer.OutcomesAlike (query.2.names.SameText query'.2.names) h.classes query.1
        query'.1 := by
  have hsame : (ofRoot "Any").accepted (.intern "value" :: .intern "area_field" :: shapesHistory) =
      (ofRoot "Any").accepted shapesHistory := by
    have hl := ((lists_ofRoot "Any").apply (.intern "value")).apply (.intern "area_field")
    have hr := ((Reachable.ofRoot "Any").apply (.intern "value")).apply (.intern "area_field")
    exact (lists_ofRoot "Any").accepted_eq hl (.ofRoot "Any") hr shapesHistory (by decide +kernel)
      (by decide +kernel)
  have hstandard : ({} : Synthesizer).Standard := ⟨.accessors, rfl, rfl⟩
  refine ⟨by decide +kernel, ?_⟩
  exact (independent_collect "Any" shapesHistory _ {} {} ⟨2⟩
    (congrArg (List.map Prod.fst) hsame) ⟨.accessors, hstandard, hstandard, rfl⟩ (by decide +kernel)
    (by decide +kernel)).2.2

end Hierarchy

end BackingFields
