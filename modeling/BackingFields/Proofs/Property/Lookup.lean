import BackingFields.Proofs.Property.Fidelity
import BackingFields.Proofs.Property.Receivers

set_option relaxedAutoImplicit false
set_option autoImplicit false

/-!
# Looking properties up by name

Evaluated code asks for a property by its symbol name, and what comes back is filtered by the texts
of these names, although only field names are known to be unique.  Since the symbol name of a field
is its text with a fixed suffix, a symbol name leads back to one field name, and each receiver
answers with the property of this field or not at all.

## Main definitions

* `BackingFields.FieldMap.ofText?` — the property of a map for the field name with a given text.

## Main results

* `BackingFields.FieldMap.Faithful.filter_properties` — what a symbol name picks from a map.
* `BackingFields.FieldMap.Faithful.nodup_names` — symbol names of one map are pairwise distinct.
* `BackingFields.Hierarchy.Reachable.named_properties` — what a query by name answers.
-/

namespace BackingFields

/-! ## Maps -/

/-- A filter that no two items of a list pass keeps the first item that passes it, if there is
one. -/
theorem filter_eq_toList_find? {α : Type} {p : α → Bool} {l : List α}
    (h : l.Pairwise fun a b => p a = true → p b = false) : l.filter p = (l.find? p).toList := by
  induction l with
  | nil => rfl
  | cons a l ih =>
    obtain ⟨hfirst, hrest⟩ := List.pairwise_cons.mp h
    rw [List.filter_cons, List.find?_cons]
    cases ha : p a with
    | true =>
      have hnone : l.filter p = [] := by
        rw [List.filter_eq_nil_iff]
        intro b hb
        rw [hfirst b hb ha]
        exact Bool.false_ne_true
      rw [if_pos rfl, hnone]
      rfl
    | false => exact ih hrest

/-- The property of a map for the field name with a given text. -/
def FieldMap.ofText? (m : FieldMap) (names : NameTable) (text : String) : Option FieldProperty :=
  (m.entries.find? fun entry => names.text? entry.1 == some text).map Prod.snd

namespace FieldMap.Faithful

variable {s : Synthesizer} {h : Hierarchy} {names : NameTable} {m : FieldMap}

section Names

variable (hm : m.Faithful s h.classes names) (hn : h.WellNamed) (hgrow : h.names.GrowsTo names)
  (hnames : names.Consistent)

include hm hn hgrow hnames

/-- The name of a field in a map has a text that is not empty, and the symbol name of its property
has the text with the suffix. -/
theorem exists_text {entry : Name × FieldProperty} (hentry : entry ∈ m.entries) :
    ∃ text, text ≠ "" ∧ names.text? entry.1 = some text ∧
      names.text? entry.2.fieldName = some text ∧
      names.text? entry.2.name = some (text ++ "_field") := by
  obtain ⟨c, f, description, hget, -, hreads, hname, hpresents⟩ :=
    hm.presents names (.refl names) hnames entry hentry
  obtain ⟨g, hg, hfg⟩ := hreads.exists_candidate
  obtain ⟨text, htext, hne⟩ := hn.exists_text hget hg
  rw [← hfg] at htext
  obtain ⟨text', htext', hsymbol⟩ := hpresents.text?_name
  have htext := hgrow.text?_eq_some htext
  rw [htext, Option.some_inj] at htext'
  refine ⟨text, hne, ?_, ?_, htext' ▸ hsymbol⟩
  · rw [← hname]
    exact htext
  · rw [hpresents.fieldName_eq]
    exact htext

/-- Two properties of a map with the same symbol name are kept under the same field name. -/
theorem fst_eq_of_name_eq {entry entry' : Name × FieldProperty} (hentry : entry ∈ m.entries)
    (hentry' : entry' ∈ m.entries) (hname : entry.2.name = entry'.2.name) :
    entry.1 = entry'.1 := by
  obtain ⟨text, -, hkey, -, hsymbol⟩ := hm.exists_text hn hgrow hnames hentry
  obtain ⟨text', -, hkey', -, hsymbol'⟩ := hm.exists_text hn hgrow hnames hentry'
  rw [hname, hsymbol', Option.some_inj, String.append_left_inj] at hsymbol
  rw [hsymbol, ← hnames] at hkey'
  rw [← hnames, hkey', Option.some_inj] at hkey
  exact hkey.symm

/-- The symbol names of a map are pairwise distinct. -/
theorem nodup_names : (m.properties.map FieldProperty.name).Nodup := by
  rw [properties, List.map_map]
  have hkeys : m.entries.Pairwise fun entry entry' => entry.1 ≠ entry'.1 :=
    List.pairwise_map.mp hm.nodup_keys
  refine List.pairwise_map.mpr (hkeys.imp_of_mem fun hentry hentry' hne hname => hne ?_)
  exact hm.fst_eq_of_name_eq hn hgrow hnames hentry hentry' hname

/-- A symbol name picks from a map the property of the field whose text it has before the suffix. -/
theorem filter_properties (text : String) :
    (m.properties.filter fun p => names.display p.name == text ++ "_field") =
      (m.ofText? names text).toList := by
  have hsame : ∀ entry ∈ m.entries, (names.display entry.2.name == text ++ "_field") =
      (names.text? entry.1 == some text) := by
    intro entry hentry
    obtain ⟨text', -, hkey, -, hsymbol⟩ := hm.exists_text hn hgrow hnames hentry
    rw [NameTable.display_of_text?_eq_some hsymbol, hkey, Bool.eq_iff_iff, beq_iff_eq,
      beq_iff_eq, String.append_left_inj, Option.some_inj]
  have honce : m.entries.Pairwise fun entry entry' => (names.text? entry.1 == some text) = true →
      (names.text? entry'.1 == some text) = false := by
    have hkeys : m.entries.Pairwise fun entry entry' => entry.1 ≠ entry'.1 :=
      List.pairwise_map.mp hm.nodup_keys
    refine hkeys.imp fun {entry entry'} hne hentry => Bool.eq_false_iff.mpr fun hentry' => hne ?_
    rw [beq_iff_eq, ← hnames] at hentry hentry'
    rw [hentry, Option.some_inj] at hentry'
    exact hentry'
  rw [properties, List.filter_map]
  have hfilter : m.entries.filter ((fun p => names.display p.name == text ++ "_field") ∘ Prod.snd) =
      m.entries.filter fun entry => names.text? entry.1 == some text :=
    List.filter_congr hsame
  rw [hfilter, filter_eq_toList_find? honce, ofText?]
  cases m.entries.find? fun entry => names.text? entry.1 == some text <;> rfl

/-- A text that is no symbol name picks nothing from a map. -/
theorem filter_properties_eq_nil {text : String}
    (htext : text = "_field" ∨ ∀ field, text ≠ field ++ "_field") :
    (m.properties.filter fun p => names.display p.name == text) = [] := by
  rw [List.filter_eq_nil_iff]
  intro p hp hdisplay
  obtain ⟨entry, hentry, rfl⟩ := List.mem_map.mp hp
  obtain ⟨field, hne, -, -, hsymbol⟩ := hm.exists_text hn hgrow hnames hentry
  rw [NameTable.display_of_text?_eq_some hsymbol, beq_iff_eq] at hdisplay
  rcases htext with rfl | hnot
  · refine hne ?_
    have hempty : field ++ "_field" = "" ++ "_field" := hdisplay
    exact (String.append_left_inj "_field").mp hempty
  · exact hnot field hdisplay.symm

/-- A text picks no property of a field that is named by the whole text. -/
theorem exists_text_ne {p : FieldProperty} (hp : p ∈ m.properties) :
    ∃ field, names.text? p.fieldName = some field ∧ field ≠ names.display p.name := by
  obtain ⟨entry, hentry, rfl⟩ := List.mem_map.mp hp
  obtain ⟨field, -, -, hfield, hsymbol⟩ := hm.exists_text hn hgrow hnames hentry
  refine ⟨field, hfield, fun heq => ?_⟩
  rw [NameTable.display_of_text?_eq_some hsymbol] at heq
  have hlength := congrArg String.length heq
  rw [String.length_append, show "_field".length = 6 from rfl] at hlength
  omega

end Names

end FieldMap.Faithful

/-! ## Queries -/

namespace Synthesizer

variable {s : Synthesizer} {h : Hierarchy} {files : FileRegistry} {location : Location}

/-- The maps that queries over several classes find are faithful to the names in the end. -/
theorem Walked.faithful (hclasses : h.classes.WellFormed) (hn : h.WellNamed)
    (hs : s.OnlyInterns) {ids : List ClassId} {t names : NameTable} {maps : List FieldMap}
    (hwalked : s.Walked h.classes ids t maps names) (hgrow : h.names.GrowsTo t) :
    t.GrowsTo names ∧ ∀ m ∈ maps, m.Faithful s h.classes names := by
  induction hwalked with
  | nil t => exact ⟨.refl t, fun _ hm => absurd hm List.not_mem_nil⟩
  | @cons id ids t t₁ names found maps first rest ih =>
    have hgrow₁ : t.GrowsTo t₁ := (s.onlyInterns_collect hs h.classes id).growsTo first
    obtain ⟨hgrow₂, hmaps⟩ := ih (hgrow.trans hgrow₁)
    have hfound := faithful_of_run_collect hclasses hn hs hgrow first
    exact ⟨hgrow₁.trans hgrow₂, List.forall_mem_cons.mpr ⟨hfound.growsTo hgrow₂, hmaps⟩⟩

/-- Where raw fields may be seen, the properties of some receivers are those of the maps that the
queries over their classes find, and these maps are faithful to the names in the end. -/
theorem exists_walked_of_run_properties (hclasses : h.classes.WellFormed) (hn : h.WellNamed)
    (hs : s.OnlyInterns) (happlicable : files.isApplicable location = true)
    {receivers : List Ty} {found : List FieldProperty} {names : NameTable}
    (hrun : (s.properties h.classes files receivers location).run.run h.names =
      (.ok found, names)) :
    ∃ maps, s.Walked h.classes (receivers.filterMap Ty.classId?) h.names maps names ∧
      found = maps.flatMap FieldMap.properties ∧ ∀ m ∈ maps, m.Faithful s h.classes names := by
  rw [properties, if_pos happlicable] at hrun
  obtain ⟨maps, _, hmaps, hreturn⟩ := NameM.run_bind_eq_ok hrun
  cases hreturn
  rcases (run_mapM_collect_iff s h.classes _ h.names names (.ok maps)).mp hmaps with
    ⟨maps', heq, hwalked⟩ | ⟨fault, heq, -⟩
  · cases heq
    exact ⟨maps, hwalked, rfl, (hwalked.faithful hclasses hn hs (.refl h.names)).2⟩
  · cases heq

/-- A query by name filters the answer of the query for all properties, and interns no more. -/
theorem run_propertiesNamed (s : Synthesizer) (classes : ClassTable) (files : FileRegistry)
    (receivers : List Ty) (location : Location) (text : String) (t : NameTable) :
    (s.propertiesNamed classes files receivers location text).run.run t =
      let all := (s.properties classes files receivers location).run.run t
      (all.1.map fun found => found.filter fun p => all.2.display p.name == text, all.2) := by
  rw [propertiesNamed, NameM.run_exceptBind]
  cases (s.properties classes files receivers location).run.run t with
  | mk outcome names => cases outcome <;> rfl

end Synthesizer

namespace Hierarchy

variable {h : Hierarchy} {s : Synthesizer} {files : FileRegistry} {location : Location}

/-- **Properties by name.**  Where raw fields may be seen, a query by name fails exactly if the
query for all properties does, with the same fault, whatever the name is, and interns the same.  If
it does not fail, then for a text with the suffix it answers with the property, in the map of each
receiver that is a class type, for the field name with the text before the suffix, if there is one;
for the bare suffix, and for any other text, with nothing.  So it never answers with a property of a
field that is named by the whole text.  The symbol names in the answer of a query over one class are
pairwise distinct.

**Proof sketch.** The map of each receiver is faithful to the names in the end.  Adding the suffix
is injective, and so is the text of a name. -/
theorem Reachable.named_properties (hr : h.Reachable) (hs : s.OnlyInterns)
    (happlicable : files.isApplicable location = true) (receivers : List Ty)
    (hsize : ((s.properties h.classes files receivers location).run.run h.names).2.size <
      UInt32.size) :
    let all := (s.properties h.classes files receivers location).run.run h.names
    let named (text : String) :=
      (s.propertiesNamed h.classes files receivers location text).run.run h.names
    (∀ text, (named text).2 = all.2) ∧
    (∀ text fault, (named text).1 = .error fault ↔ all.1 = .error fault) ∧
    (∀ found, all.1 = .ok found → ∃ maps,
      s.Walked h.classes (receivers.filterMap Ty.classId?) h.names maps all.2 ∧
      found = maps.flatMap FieldMap.properties ∧
      (∀ field, (named (field ++ "_field")).1 =
        .ok (maps.filterMap fun m => m.ofText? all.2 field)) ∧
      (∀ text, (text = "_field" ∨ ∀ field, text ≠ field ++ "_field") → (named text).1 = .ok []) ∧
      ∀ m ∈ maps, (m.properties.map FieldProperty.name).Nodup) ∧
    (∀ text picked, (named text).1 = .ok picked →
      ∀ p ∈ picked, ∃ field, all.2.text? p.fieldName = some field ∧ field ≠ text) ∧
    ∀ start found names, (s.collect h.classes start).run.run h.names = (.ok found, names) →
      names.size < UInt32.size → (found.properties.map FieldProperty.name).Nodup := by
  intro all named
  have hclasses := hr.wellFormed_classes
  have hgrow : h.names.GrowsTo all.2 :=
    s.onlyInterns_properties hs h.classes files receivers location h.names
  have hn := hr.wellNamed (Nat.le_trans hgrow.size_le (Nat.le_of_lt hsize))
  have hnames : all.2.Consistent := hgrow.consistent hn.consistent (Nat.le_of_lt hsize)
  have hnamed (text : String) : named text =
      (all.1.map fun found => found.filter fun p => all.2.display p.name == text, all.2) :=
    s.run_propertiesNamed h.classes files receivers location text h.names
  have hmaps (found : List FieldProperty) (hfound : all.1 = .ok found) :=
    Synthesizer.exists_walked_of_run_properties hclasses hn hs happlicable (Prod.ext hfound rfl)
  refine ⟨fun text => ?_, fun text fault => ?_, fun found hfound => ?_,
    fun text picked hpicked p hp => ?_, fun start found names hrun hfew => ?_⟩
  · rw [hnamed]
  · rw [hnamed]
    exact NameM.map_eq_error_iff
  · obtain ⟨maps, hwalked, rfl, hfaithful⟩ := hmaps found hfound
    have houtcome (text : String) : (named text).1 = .ok (maps.flatMap fun m =>
        m.properties.filter fun p => all.2.display p.name == text) := by
      rw [hnamed, hfound, ← List.filter_flatMap]
      rfl
    refine ⟨maps, hwalked, rfl, fun field => ?_, fun text htext => ?_, fun m hm => ?_⟩
    · rw [houtcome, List.filterMap_eq_flatMap_toList]
      refine congrArg Except.ok (List.flatMap_congr fun m hm => ?_)
      exact (hfaithful m hm).filter_properties hn hgrow hnames field
    · rw [houtcome, List.flatMap_eq_nil_iff.mpr fun m hm =>
        (hfaithful m hm).filter_properties_eq_nil hn hgrow hnames htext]
    · exact (hfaithful m hm).nodup_names hn hgrow hnames
  · rw [hnamed] at hpicked
    cases hfound : all.1 with
    | error fault =>
      rw [hfound] at hpicked
      cases hpicked
    | ok found =>
      rw [hfound] at hpicked
      cases hpicked
      obtain ⟨maps, -, rfl, hfaithful⟩ := hmaps found hfound
      obtain ⟨hp, hdisplay⟩ := List.mem_filter.mp hp
      obtain ⟨m, hm, hp⟩ := List.mem_flatMap.mp hp
      rw [beq_iff_eq] at hdisplay
      rw [← hdisplay]
      exact (hfaithful m hm).exists_text_ne hn hgrow hnames hp
  · have hgrow' : h.names.GrowsTo names :=
      (s.onlyInterns_collect hs h.classes start).growsTo hrun
    exact (Synthesizer.faithful_of_run_collect hclasses hn hs (.refl h.names) hrun).nodup_names hn
      hgrow' (hgrow'.consistent hn.consistent (Nat.le_of_lt hfew))

/-- Of four receivers, three have an area, which its symbol name finds and the name of the field
does not. -/
theorem shapes_named_properties :
    let files := (FileRegistry.empty.registerFragment "/fragment.kt" .jvm true).2
    let location : Location := .element (some ⟨0⟩) default
    let s : Synthesizer := {}
    let receivers : List Ty := [.simple ⟨2⟩, .primitive .int, .ofClass ⟨1⟩ [], .simple ⟨2⟩]
    let all := (s.properties shapes.classes files receivers location).run.run shapes.names
    let named (text : String) :=
      (s.propertiesNamed shapes.classes files receivers location text).run.run shapes.names
    files.isApplicable location = true ∧ all.2.size < UInt32.size ∧
      (named "area").1 = .ok [] ∧
      ∃ maps, s.Walked shapes.classes [⟨2⟩, ⟨1⟩, ⟨2⟩] shapes.names maps all.2 ∧
        (named "area_field").1 = .ok (maps.filterMap fun m => m.ofText? all.2 "area") ∧
        (maps.filterMap fun m => m.ofText? all.2 "area").map FieldProperty.owner =
          [⟨1⟩, ⟨1⟩, ⟨1⟩] := by
  intro files location s receivers all named
  have happlicable : files.isApplicable location = true := by decide +kernel
  have hsize : all.2.size < UInt32.size := by decide +kernel
  have howners : (named "area_field").1.toOption.map (List.map FieldProperty.owner) =
      some [⟨1⟩, ⟨1⟩, ⟨1⟩] := by decide +kernel
  have hs : s.OnlyInterns :=
    (Synthesizer.follows_standard .accessors {}).onlyInterns Exposure.onlyInterns_accessors
  obtain ⟨-, hfails, hanswer, -, -⟩ :=
    Reachable.named_properties shapes_reachable hs happlicable receivers hsize
  refine ⟨happlicable, hsize, ?_⟩
  cases hall : all.1 with
  | error fault =>
    have hnamed : (named "area_field").1 = .error fault :=
      (hfails "area_field" fault).mpr hall
    rw [hnamed] at howners
    cases howners
  | ok found =>
    obtain ⟨maps, hwalked, -, hsuffixed, hother, -⟩ := hanswer found hall
    have hnamed : (named "area_field").1 = .ok (maps.filterMap fun m => m.ofText? all.2 "area") :=
      hsuffixed "area"
    refine ⟨hother "area" (.inr fun field h => ?_), maps, hwalked, hnamed, ?_⟩
    · have hlength := congrArg String.length h
      rw [String.length_append, show "area".length = 4 from rfl,
        show "_field".length = 6 from rfl] at hlength
      omega
    · rw [hnamed] at howners
      exact Option.some_inj.mp howners

end Hierarchy

end BackingFields
