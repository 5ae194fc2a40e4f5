import BackingFields.Proofs.Property.Candidates
import BackingFields.Proofs.Property.Exposure
import BackingFields.Proofs.Property.Failure

set_option relaxedAutoImplicit false
set_option autoImplicit false

/-!
# The nearest declaration wins

A query offers the fields of interest of each class to its map, from the start upwards, and the map
keeps the first of each name.  So the keys of the answer are the offered names without repetition,
and each belongs to the nearest class that offers it.  A field of no interest is never offered, and
hence hides nothing.

## Main definitions

* `BackingFields.ClassEntry.interests`, `BackingFields.ClassEntry.contributing` — the fields of
  interest of a class, and their names.
* `BackingFields.FieldMap.Shows` — the first of each name among some offers is in a map.

## Main results

* `BackingFields.Synthesizer.fst_run_candidates` — these are the candidates of the class.
* `BackingFields.FieldMap.Shows.foldlM_collectVisit` — what the visits of a climb do to a map.
* `BackingFields.Hierarchy.Reachable.nearest_collect` — the keys of an answer, their order and their
  owners.
-/

namespace BackingFields

/-! ## Fields of interest -/

/-- The names of the fields of a class that an exposure of some texts makes properties of, in the
order of declaration: the stored fields of a source class, and the fields of a compiled class that
are neither static nor enum entries and whose text is exposed on this very class. -/
def ClassEntry.contributing (names : NameTable) (exposed : ClassEntry → List String)
    (c : ClassEntry) : List Name :=
  match c.members with
  | .source fields => (fields.filter SourceField.hasBackingField).map SourceField.name
  | .binary fields _ =>
    (fields.filter fun f => !f.isStatic && !f.isEnumEntry &&
      (names.text? f.name).any (exposed c).contains).map BinaryField.name
  | .unloaded => []

/-- The fields of a class that an exposure of some texts makes properties of, in the order of
declaration. -/
def ClassEntry.interests (names : NameTable) (exposed : ClassEntry → List String)
    (c : ClassEntry) : List Candidate :=
  match c.members with
  | .source fields => (fields.filter SourceField.hasBackingField).map .source
  | .binary fields _ =>
    (fields.filter fun f => !f.isStatic && !f.isEnumEntry &&
      (names.text? f.name).any (exposed c).contains).map .binary
  | .unloaded => []

/-- The fields of interest have their names. -/
@[simp]
theorem ClassEntry.map_name_interests (names : NameTable) (exposed : ClassEntry → List String)
    (c : ClassEntry) :
    (c.interests names exposed).map Candidate.name = c.contributing names exposed := by
  unfold interests contributing
  cases c.members with
  | source fields => exact List.map_map
  | binary fields methods => exact List.map_map
  | unloaded => rfl

/-- The names that a class offers with the class. -/
def ClassEntry.offers (names : NameTable) (exposed : ClassEntry → List String) (c : ClassEntry) :
    List (Name × ClassId) :=
  (c.contributing names exposed).map fun n => (n, c.id)

/-- The offers of a class have the names of its fields of interest. -/
@[simp]
theorem ClassEntry.map_fst_offers (names : NameTable) (exposed : ClassEntry → List String)
    (c : ClassEntry) : (c.offers names exposed).map Prod.fst = c.contributing names exposed := by
  simp [offers, Function.comp_def]

/-- The offers of a class have its fields of interest, and no others, belong to it. -/
theorem ClassEntry.lookup_offers (names : NameTable) (exposed : ClassEntry → List String)
    (c : ClassEntry) (n : Name) : (c.offers names exposed).lookup n =
      if (c.contributing names exposed).contains n then some c.id else none := by
  unfold offers
  induction c.contributing names exposed with
  | nil => rfl
  | cons name rest ih =>
    rw [List.map_cons, List.lookup_cons, ih, List.contains_cons]
    cases n == name <;> simp

/-- Among the offers of several classes, the first of a name is that of the first class with a field
of interest of this name. -/
theorem ClassEntry.lookup_flatMap_offers (names : NameTable) (exposed : ClassEntry → List String)
    (chain : List ClassEntry) (n : Name) : (chain.flatMap (offers names exposed)).lookup n =
      (chain.find? fun c => (c.contributing names exposed).contains n).map ClassEntry.id := by
  induction chain with
  | nil => rfl
  | cons c chain ih =>
    rw [List.flatMap_cons, List.lookup_append, lookup_offers, ih, List.find?_cons]
    cases (c.contributing names exposed).contains n <;> simp

/-- The candidates of a class are its fields of interest, whatever has been interned in between.

**Proof sketch.** An enum entry is static, so it suffices to test the latter.  The name of every
field has a text, and it is exposed exactly when this is. -/
theorem Synthesizer.fst_run_candidates {h : Hierarchy} {s : Synthesizer}
    {exposed : ClassEntry → List String} {c : ClassEntry} (hi : s.OnlyInterns) (hn : h.WellNamed)
    (hs : s.exposure.Exposes h exposed) {fields : DeclaredFields}
    (hc : h.classes.get? c.id = some c) (hfields : c.declaredFields = .ok fields) {t : NameTable}
    (hgrow : h.names.GrowsTo t)
    (hsize : ((s.candidates h.classes c fields).run t).2.size ≤ UInt32.size) :
    ((s.candidates h.classes c fields).run t).1 = c.interests h.names exposed := by
  have hgrow' := hgrow.trans (onlyInterns_candidates hi h.classes c fields t)
  have hconsistent := hgrow'.consistent hn.consistent hsize
  unfold ClassEntry.interests
  rcases c.members_of_declaredFields hfields with ⟨fs, hm, rfl⟩ | ⟨fs, methods, hm, rfl⟩
  · rw [hm]
    rfl
  · rw [hm]
    cases fs with
    | nil => rfl
    | cons f fs =>
      have hrun : ((s.candidates h.classes c (.binary (f :: fs))).run t).1 =
          ((f :: fs).filter fun f => !f.isStatic &&
            ((s.exposure h.classes c.id).run t).1.contains f.name).map .binary := rfl
      rw [hrun]
      refine congrArg (List.map Candidate.binary) (List.filter_congr fun f hf => ?_)
      obtain ⟨text, htext, -⟩ := (hn.namedBy_entry hc).text?_fieldName f.name (by
        rw [hm]
        exact List.mem_map_of_mem hf)
      have hcontains : ((s.exposure h.classes c.id).run t).1.contains f.name =
          (exposed c).contains text := by
        rw [Bool.eq_iff_iff, hs.contains_iff hc hgrow hconsistent htext, List.contains_iff_mem]
      rw [hcontains, htext, Option.any_some]
      cases hentry : f.isEnumEntry with
      | true => simp [(BinaryField.isStatic_and_isFinal_of_isEnumEntry hentry).1]
      | false => simp

/-! ## Maps of offers -/

namespace FieldMap

/-- A map shows some offers if its keys are their names, in order and without repetition, and each
belongs to the class that offered it first. -/
structure Shows (m : FieldMap) (offers : List (Name × ClassId)) : Prop where
  keys_eq : m.keys = (offers.map Prod.fst).eraseDups
  owner_eq : ∀ n, (m.get? n).map FieldProperty.owner = offers.lookup n

variable {m : FieldMap} {offers : List (Name × ClassId)}

/-- The map without properties shows no offers. -/
theorem shows_empty : empty.Shows [] := ⟨rfl, fun _ => rfl⟩

/-- Offering a field shows it behind the earlier offers.

**Proof sketch.** A name that was offered before is a key, and changes neither the keys nor the
first offer of any name.  A new name becomes the last key, and this is its first offer. -/
theorem Shows.offer (hm : m.Shows offers) (name : Name) {owner : ClassId}
    {make : NameM FieldProperty} {names : NameTable} (hmake : (make.run names).1.owner = owner) :
    ((m.offer name make).run names).1.Shows (offers ++ [(name, owner)]) := by
  have hmem : name ∈ m.keys ↔ name ∈ offers.map Prod.fst := by
    rw [hm.keys_eq, List.mem_eraseDups]
  by_cases htaken : name ∈ m.keys
  · rw [run_offer_of_mem htaken]
    rw [hmem] at htaken
    refine ⟨?_, fun n => ?_⟩
    · rw [hm.keys_eq, List.map_append, List.eraseDups_append]
      simp [List.removeAll, htaken]
    · rw [hm.owner_eq, List.lookup_append, lookup_singleton]
      by_cases hn : n = name
      · have hsome : (offers.lookup n).isSome = true := by
          simpa [List.lookup_isSome_iff, hn] using htaken
        rw [Option.or_of_isSome hsome]
      · rw [if_neg hn, Option.or_none]
  · rw [run_offer_of_notMem htaken]
    rw [hmem] at htaken
    refine ⟨?_, fun n => ?_⟩
    · rw [keys_push, hm.keys_eq, List.map_append, List.eraseDups_append]
      simp [List.removeAll, htaken, List.eraseDups_cons]
    · rw [get?_push, List.lookup_append, ← hm.owner_eq, lookup_singleton, Option.map_or]
      split <;> simp [hmake]

section Visits

variable {h : Hierarchy} {s : Synthesizer} {exposed : ClassEntry → List String}

/-- Offering the fields of a visited class one after the other shows them behind the earlier
offers. -/
theorem Shows.foldlM_offer (hm : m.Shows offers) (s : Synthesizer) (classes : ClassTable)
    (visit : Visit) (fields : List Candidate) (names : NameTable) :
    ((fields.foldlM (fun (m : FieldMap) f => m.offer f.name (s.propertyOf classes visit f))
      m).run names).1.Shows
        (offers ++ (fields.map Candidate.name).map fun n => (n, visit.entry.id)) := by
  induction fields generalizing m offers names with
  | nil =>
    rw [List.map_nil, List.map_nil, List.append_nil]
    exact hm
  | cons f fields ih =>
    have hfirst := hm.offer f.name (s.owner_propertyOf classes visit f names)
    have hrest := ih hfirst ((m.offer f.name (s.propertyOf classes visit f)).run names).2
    rw [List.append_assoc, List.singleton_append] at hrest
    rw [List.foldlM_cons]
    exact hrest

variable (hi : s.OnlyInterns) (hn : h.WellNamed) (hs : s.exposure.Exposes h exposed)

include hi hn hs

/-- Collecting from a class shows its fields of interest behind the earlier offers. -/
theorem Shows.collectVisit (hm : m.Shows offers) {v : Visit}
    (hget : h.classes.get? v.entry.id = some v.entry) (hv : v.entry.declaredFields = .ok v.fields)
    {t : NameTable} (hgrow : h.names.GrowsTo t)
    (hsize : ((s.collectVisit h.classes m v).run t).2.size ≤ UInt32.size) :
    ((s.collectVisit h.classes m v).run t).1.Shows
      (offers ++ v.entry.offers h.names exposed) := by
  have hoffers := s.onlyInterns_foldlM_offer hi h.classes v
    ((s.candidates h.classes v.entry v.fields).run t).1 m
    ((s.candidates h.classes v.entry v.fields).run t).2
  have hnames := congrArg (List.map Candidate.name) (Synthesizer.fst_run_candidates hi hn hs hget hv
    hgrow (Nat.le_trans hoffers.size_le hsize))
  have hfold := hm.foldlM_offer s h.classes v ((s.candidates h.classes v.entry v.fields).run t).1
    ((s.candidates h.classes v.entry v.fields).run t).2
  rw [hnames, ClassEntry.map_name_interests] at hfold
  exact hfold

/-- Collecting from some classes one after the other shows their fields of interest behind the
earlier offers. -/
theorem Shows.foldlM_collectVisit (hm : m.Shows offers) {visits : List Visit}
    (hget : ∀ v ∈ visits, h.classes.get? v.entry.id = some v.entry)
    (hv : ∀ v ∈ visits, v.entry.declaredFields = .ok v.fields)
    {t : NameTable} (hgrow : h.names.GrowsTo t)
    (hsize : ((visits.foldlM (s.collectVisit h.classes) m).run t).2.size ≤ UInt32.size) :
    ((visits.foldlM (s.collectVisit h.classes) m).run t).1.Shows
      (offers ++ (visits.map Visit.entry).flatMap (ClassEntry.offers h.names exposed)) := by
  induction visits generalizing m offers t with
  | nil =>
    rw [List.map_nil, List.flatMap_nil, List.append_nil]
    exact hm
  | cons v visits ih =>
    rw [List.foldlM_cons] at hsize ⊢
    have hvisit := s.onlyInterns_collectVisit hi h.classes m v t
    have hrest := s.onlyInterns_foldlM_collectVisit hi h.classes visits
      ((s.collectVisit h.classes m v).run t).1 ((s.collectVisit h.classes m v).run t).2
    have hfirst := Shows.collectVisit hi hn hs hm (hget v List.mem_cons_self)
      (hv v List.mem_cons_self) hgrow (Nat.le_trans hrest.size_le hsize)
    have hfold := ih hfirst (fun w hw => hget w (List.mem_cons_of_mem v hw))
      (fun w hw => hv w (List.mem_cons_of_mem v hw)) (hgrow.trans hvisit) hsize
    rw [List.append_assoc] at hfold
    exact hfold

end Visits

end FieldMap

/-! ## Answers -/

/-- A query has an answer only if its climb has no fault, and then the visits have found it. -/
theorem Synthesizer.run_collect_eq_ok {s : Synthesizer} {classes : ClassTable} {start : ClassId}
    {found : FieldMap} {names names' : NameTable}
    (hrun : (s.collect classes start).run.run names = (.ok found, names')) :
    (classes.climb s.settings.depthLimit start).fault = none ∧
      ((classes.climb s.settings.depthLimit start).visited.foldlM (s.collectVisit classes)
        .empty).run names = (found, names') := by
  have hrun := (s.run_collect classes start names).symm.trans hrun
  cases hfault : (classes.climb s.settings.depthLimit start).fault with
  | none =>
    simp only [hfault, Option.elim_none] at hrun
    cases hrun
    exact ⟨rfl, rfl⟩
  | some fault =>
    simp only [hfault, Option.elim_some] at hrun
    cases hrun

namespace Hierarchy

variable {h : Hierarchy} {s : Synthesizer} {exposed : ClassEntry → List String} {start : ClassId}
  {found : FieldMap} {names : NameTable}

/-- **The nearest declaration wins.**  If a query has an answer, then the start has a chain of
superclasses, and the keys of the answer are the fields of interest of the classes of this chain,
the classes from the start upwards and the fields of each in the order of their declaration, without
repetition.  So a name is a key exactly when some class of the chain has a field of interest of this
name, and its property belongs to the first such class; all other fields make no difference.

**Proof sketch.** A climb without a fault visits its whole chain, and each visit offers the fields
of interest of its class. -/
theorem Reachable.nearest_collect (hr : h.Reachable) (hi : s.OnlyInterns)
    (hs : s.exposure.Exposes h exposed)
    (hrun : (s.collect h.classes start).run.run h.names = (.ok found, names))
    (hsize : names.size < UInt32.size) :
    ∃ chain, h.classes.Chain start chain ∧
      found.keys = (chain.flatMap (ClassEntry.contributing h.names exposed)).eraseDups ∧
      (∀ n, n ∈ found.keys ↔ ∃ c ∈ chain, n ∈ c.contributing h.names exposed) ∧
      (∀ n, (found.get? n).map FieldProperty.owner =
        (chain.find? fun c => (c.contributing h.names exposed).contains n).map ClassEntry.id) := by
  have hclasses := hr.wellFormed_classes
  have hgrow : h.names.GrowsTo names :=
    (s.onlyInterns_collect hi h.classes start).growsTo hrun
  have hn := hr.wellNamed (Nat.le_of_lt (Nat.lt_of_le_of_lt hgrow.size_le hsize))
  obtain ⟨hfault, hfold⟩ := Synthesizer.run_collect_eq_ok hrun
  have hchain := hclasses.chain_of_fault_eq_none hfault
  obtain ⟨chain, hvisited⟩ : ∃ chain, chain =
    (h.classes.climb s.settings.depthLimit start).visited.map Visit.entry := ⟨_, rfl⟩
  rw [← hvisited] at hchain
  refine ⟨chain, hchain, ?_⟩
  have hshows := FieldMap.Shows.foldlM_collectVisit hi hn hs FieldMap.shows_empty
    (fun v hv => hclasses.get?_of_mem_chain hchain v.entry (hvisited ▸ List.mem_map_of_mem hv))
    (ClassTable.declaredFields_of_mem_climb hchain) (.refl h.names)
    (by rw [hfold]; exact Nat.le_of_lt hsize)
  rw [hfold, ← hvisited, List.nil_append] at hshows
  have hkeys : found.keys =
      (chain.flatMap (ClassEntry.contributing h.names exposed)).eraseDups := by
    rw [hshows.keys_eq, List.map_flatMap]
    simp only [ClassEntry.map_fst_offers]
  refine ⟨hkeys, fun n => ?_, fun n => ?_⟩
  · rw [hkeys, List.mem_eraseDups, List.mem_flatMap]
  · rw [hshows.owner_eq, ClassEntry.lookup_flatMap_offers]

/-- A computed property does not hide the field of the same name further up. -/
theorem shapes_nearest_collect : ∃ chain, shapes.classes.Chain ⟨2⟩ chain ∧
    (chain.flatMap (ClassEntry.contributing shapes.names fun c =>
      c.members.methods.filterMap Method.propertyName?)).eraseDups.map shapes.names.display =
        ["radius", "area"] := by
  have htexts : (((({} : Synthesizer).collect shapes.classes ⟨2⟩).run.run
      shapes.names).1.toOption.map fun found => found.keys.map shapes.names.display) =
        some ["radius", "area"] := by decide +kernel
  have hsize : ((({} : Synthesizer).collect shapes.classes ⟨2⟩).run.run shapes.names).2.size <
      UInt32.size := by decide +kernel
  have hinterns : ({} : Synthesizer).OnlyInterns :=
    (Synthesizer.follows_standard .accessors {}).onlyInterns Exposure.onlyInterns_accessors
  cases hrun : (({} : Synthesizer).collect shapes.classes ⟨2⟩).run.run shapes.names with
  | mk outcome names =>
    rw [hrun] at htexts hsize
    cases outcome with
    | error fault => cases htexts
    | ok found =>
      obtain ⟨chain, hchain, hkeys, -⟩ :=
        Reachable.nearest_collect shapes_reachable hinterns .accessors hrun hsize
      refine ⟨chain, hchain, ?_⟩
      rw [← hkeys]
      exact Option.some_inj.mp htexts

end Hierarchy

end BackingFields
