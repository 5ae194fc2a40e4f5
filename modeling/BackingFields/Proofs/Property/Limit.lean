import BackingFields.Proofs.Property.Failure

set_option relaxedAutoImplicit false
set_option autoImplicit false

/-!
# The limit on the number of visited classes

A query goes from superclass to superclass, and nothing in this loop counts down.  It ends all the
same, since every superclass has a smaller handle; the limit only cuts it off.  A query that the
limit does not cut off is therefore the same under any larger limit.

## Main definitions

* `BackingFields.ClassTable.Ascent` — the classes that one comes to by following superclasses.
* `BackingFields.Synthesizer.withLimit` — a synthesizer with another limit.

## Main results

* `BackingFields.ClassTable.Ascent.pairwise_lt`, `BackingFields.ClassTable.Ascent.count_le` —
  handles fall along an ascent, so it has at most as many classes below the root as its first handle
  says.
* `BackingFields.ClassTable.WellFormed.fault_climb_ne` — so a limit of that size stops no climb.
* `BackingFields.ClassTable.climb_eq_of_le` — a climb that its limit does not stop is the same
  within a larger one.
* `BackingFields.Hierarchy.Reachable.limit_collect` — what the limit means for queries.
-/

namespace BackingFields

namespace ClassTable

/-! ## Ascents -/

/-- The classes that one comes to by following proper superclasses, from the given one on, until
there is none. -/
inductive Ascent (t : ClassTable) : ClassId → List ClassId → Prop where
  | last {id : ClassId} (none : t.properSuperclass? id = none) : Ascent t id [id]
  | step {id s : ClassId} {ids : List ClassId} (superclass : t.properSuperclass? id = some s)
      (rest : Ascent t s ids) : Ascent t id (id :: ids)

variable {t : ClassTable} {id s : ClassId} {ids : List ClassId}

/-- The proper superclass of a class is in the table and has a smaller handle. -/
theorem WellFormed.properSuperclass?_spec (ht : t.WellFormed)
    (h : t.properSuperclass? id = some s) :
    (∃ c, t.get? s = some c) ∧ s.index.toNat < id.index.toNat := by
  obtain ⟨hs, -⟩ := Option.filter_eq_some_iff.mp h
  obtain ⟨c, hc, hsuper⟩ := Option.bind_eq_some_iff.mp hs
  have hpos : 0 < id.index.toNat := by
    refine Nat.pos_of_ne_zero fun hzero => ?_
    obtain ⟨name, qualifiedName, hentry⟩ := ht.root
    rw [get?, hzero, hentry] at hc
    cases hc
    cases hsuper
  obtain ⟨s', hs', hlt⟩ := ht.superclass_lt hc hpos
  rw [hsuper] at hs'
  cases hs'
  exact ⟨exists_get?_of_lt_size (Nat.lt_trans hlt (lt_size_of_get?_eq_some hc)), hlt⟩

/-- From every class there is an ascent.

**Proof sketch.** Strong induction on the position: a proper superclass lies at a smaller one. -/
theorem WellFormed.exists_ascent (ht : t.WellFormed) (id : ClassId) : ∃ ids, t.Ascent id ids := by
  induction hi : id.index.toNat using Nat.strongRecOn generalizing id with
  | _ i ih =>
  subst hi
  cases hs : t.properSuperclass? id with
  | none => exact ⟨[id], .last hs⟩
  | some s =>
    obtain ⟨ids, hids⟩ := ih _ (ht.properSuperclass?_spec hs).2 s rfl
    exact ⟨id :: ids, .step hs hids⟩

/-- The classes of an ascent have handles up to the first. -/
theorem Ascent.index_le (h : t.Ascent id ids) (ht : t.WellFormed) :
    ∀ a ∈ ids, a.index.toNat ≤ id.index.toNat := by
  induction h with
  | last => simp
  | step superclass rest ih =>
    intro a ha
    rcases List.mem_cons.mp ha with rfl | ha
    · exact Nat.le_refl _
    · exact Nat.le_trans (ih a ha) (Nat.le_of_lt (ht.properSuperclass?_spec superclass).2)

/-- Handles fall along an ascent. -/
theorem Ascent.pairwise_lt (h : t.Ascent id ids) (ht : t.WellFormed) :
    ids.Pairwise fun a b => b.index < a.index := by
  induction h with
  | last => exact List.pairwise_singleton _ _
  | step superclass rest ih =>
    refine List.pairwise_cons.mpr ⟨fun a ha => ?_, ih⟩
    exact UInt32.lt_iff_toNat_lt.mpr
      (Nat.lt_of_le_of_lt (rest.index_le ht a ha) (ht.properSuperclass?_spec superclass).2)

/-- An ascent from a class of the table stays in the table. -/
theorem Ascent.exists_get? (h : t.Ascent id ids) (ht : t.WellFormed)
    (hid : ∃ c, t.get? id = some c) : ∀ a ∈ ids, ∃ c, t.get? a = some c := by
  induction h with
  | last => simpa using hid
  | step superclass rest ih =>
    intro a ha
    rcases List.mem_cons.mp ha with rfl | ha
    · exact hid
    · exact ih (ht.properSuperclass?_spec superclass).1 a ha

/-- There are at most as many classes below the root in an ascent as the first handle says. -/
theorem Ascent.count_le (h : t.Ascent id ids) (ht : t.WellFormed) :
    ids.countP (fun a => !a.isRoot) ≤ id.index.toNat := by
  induction h with
  | @last id hnone =>
    cases hroot : id.isRoot with
    | true => simp [hroot]
    | false =>
      have hpos : id.index.toNat ≠ 0 := fun hzero => by
        have : id = .root := ClassId.eq_of_toNat_index_eq hzero
        simp [this] at hroot
      have hone : [id].countP (fun a => !a.isRoot) = 1 := by simp [hroot]
      omega
  | step superclass rest ih =>
    have hlt := (ht.properSuperclass?_spec superclass).2
    rw [List.countP_cons]
    split <;> omega

/-- A climb from below the root goes along the ascent of its start. -/
theorem Chain.ascent {chain : List ClassEntry} (h : t.Chain id chain) (ht : t.WellFormed)
    (hroot : id ≠ .root) : t.Ascent id (chain.map ClassEntry.id) := by
  induction h with
  | root => exact absurd rfl hroot
  | @step id s c chain notRoot entry superclass rest ih =>
    have hnext := properSuperclass?_eq_ite entry superclass
    rw [List.map_cons, ht.id_eq entry]
    by_cases hs : s = .root
    · subst hs
      cases rest with
      | root => exact .last hnext
      | step notRoot => exact absurd rfl notRoot
    · refine .step ?_ (ih hs)
      rw [hnext, if_neg (by simpa using hs)]

/-- A chain has at most as many classes as the handle of its first says. -/
theorem Chain.length_le {chain : List ClassEntry} (h : t.Chain id chain) (ht : t.WellFormed) :
    chain.length ≤ id.index.toNat := by
  by_cases hroot : id = .root
  · subst hroot
    cases h with
    | root => exact Nat.zero_le _
    | step notRoot => exact absurd rfl notRoot
  · have hcount := (h.ascent ht hroot).count_le ht
    have hall : ∀ a ∈ chain.map ClassEntry.id, (!a.isRoot) = true := by
      intro a ha
      obtain ⟨c, hc, rfl⟩ := List.mem_map.mp ha
      simpa using ht.ne_root_of_mem_chain h c hc
    rwa [List.countP_eq_length.mpr hall, List.length_map] at hcount

/-! ## Climbs and their limit -/

/-- A limit does not stop a climb if it is at least the handle of the start. -/
theorem WellFormed.fault_climb_ne (ht : t.WellFormed) {c : ClassEntry} (hc : t.get? id = some c)
    {limit : Nat} (hlimit : id.index.toNat ≤ limit) (name : String) (n : Nat) :
    (t.climb limit id).fault ≠ some (.hierarchyTooDeep name n) := by
  obtain ⟨chain, hchain⟩ := ht.exists_chain hc
  have hlength : chain.length ≤ limit := Nat.le_trans (hchain.length_le ht) hlimit
  rw [climb_eq_along hchain, Climb.fault_along, if_neg (Nat.not_lt.mpr hlength)]
  cases (chain.take limit).find? ClassEntry.isUnloaded <;> simp

/-- A climb that does not run out of visits is the same with more of them, whatever would be
reported if they ran out.

**Proof sketch.** Induction on the visits left.  The climb with none left has arrived, for otherwise
it would be stopped here; and a visit is the same for both climbs. -/
theorem climbFrom_eq_of_le {tooDeep tooDeep' : ResolveError} {left left' : Nat}
    (hle : left ≤ left') (next : Option ClassId)
    (hfault : (t.climbFrom tooDeep left next).fault ≠ some tooDeep) :
    t.climbFrom tooDeep' left' next = t.climbFrom tooDeep left next := by
  induction left generalizing left' next with
  | zero =>
    cases next with
    | none => simp
    | some id => exact absurd rfl hfault
  | succ left ih =>
    cases next with
    | none => simp
    | some id =>
      obtain ⟨left', rfl⟩ := Nat.exists_eq_add_of_le' (Nat.le_trans (Nat.succ_pos left) hle)
      cases hvisit : t.visit id with
      | error fault => simp [hvisit]
      | ok visit =>
        have hrest : (t.climbFrom tooDeep left (t.properSuperclass? id)).fault ≠ some tooDeep := by
          simpa [hvisit] using hfault
        simp [hvisit, ih (Nat.le_of_succ_le_succ hle) _ hrest]

/-- A climb that its limit does not stop is the same within a larger one. -/
theorem climb_eq_of_le {limit limit' : Nat} (hle : limit ≤ limit')
    (hfault : ∀ name n, (t.climb limit id).fault ≠ some (.hierarchyTooDeep name n)) :
    t.climb limit' id = t.climb limit id :=
  climbFrom_eq_of_le hle _ (hfault _ _)

end ClassTable

/-! ## Queries and their limit -/

namespace Synthesizer

/-- The synthesizer with another limit. -/
def withLimit (s : Synthesizer) (limit : Nat) : Synthesizer :=
  { s with settings := { s.settings with depthLimit := limit } }

/-- A query reports an error exactly when its climb has this fault. -/
theorem fst_run_collect_eq_error_iff {s : Synthesizer} {classes : ClassTable} {start : ClassId}
    {names : NameTable} {fault : ResolveError} :
    ((s.collect classes start).run.run names).1 = .error fault ↔
      (classes.climb s.settings.depthLimit start).fault = some fault := by
  obtain ⟨found, hfound⟩ := s.exists_fst_run_collect classes start names
  rw [hfound]
  cases (classes.climb s.settings.depthLimit start).fault <;> simp

/-- Queries with the same climb are the same, whatever the limits are. -/
theorem collect_withLimit_congr (s : Synthesizer) {classes : ClassTable} {start : ClassId}
    {limit limit' : Nat} (hclimb : classes.climb limit' start = classes.climb limit start) :
    (s.withLimit limit').collect classes start = (s.withLimit limit).collect classes start := by
  have hvisit : (s.withLimit limit').collectVisit = (s.withLimit limit).collectVisit := rfl
  simp only [collect, hvisit]
  simp only [withLimit, hclimb]

end Synthesizer

namespace Hierarchy

variable {h : Hierarchy}

/-- **What the limit means for queries.**

* From a class, one comes by superclasses to classes of the hierarchy only, each with a smaller
  handle than the one before, so to none of them twice.  They end, and no more of them are below the
  root than the handle of the first says.
* So a query from a class does not fail by a limit that is at least the handle of the class.
* A query that does not fail by its limit has the same outcome within any larger one, be it an
  answer or another error, and leaves the same names.  This is for any start, known or not, and
  whatever the host supplies. -/
theorem Reachable.limit_collect (hr : h.Reachable) :
    (∀ id c, h.classes.get? id = some c →
      (∃ ids, h.classes.Ascent id ids ∧ (ids.Pairwise fun a b => b.index < a.index) ∧
        ids.Nodup ∧ (∀ a ∈ ids, ∃ c, h.classes.get? a = some c) ∧
        ids.countP (fun a => !a.isRoot) ≤ id.index.toNat) ∧
      ∀ (s : Synthesizer) (names : NameTable) (limit : Nat), id.index.toNat ≤ limit → ∀ name n,
        (((s.withLimit limit).collect h.classes id).run.run names).1 ≠
          .error (.hierarchyTooDeep name n)) ∧
    ∀ (s : Synthesizer) (names : NameTable) (start : ClassId) (limit limit' : Nat),
      limit ≤ limit' →
      (∀ name n, (((s.withLimit limit).collect h.classes start).run.run names).1 ≠
        .error (.hierarchyTooDeep name n)) →
      ((s.withLimit limit').collect h.classes start).run.run names =
        ((s.withLimit limit).collect h.classes start).run.run names := by
  have ht := hr.wellFormed_classes
  refine ⟨fun id c hc => ⟨?_, fun s names limit hlimit name n hdeep => ?_⟩,
    fun s names start limit limit' hle hdeep => ?_⟩
  · obtain ⟨ids, hids⟩ := ht.exists_ascent id
    have hfall := hids.pairwise_lt ht
    refine ⟨ids, hids, hfall, hfall.imp fun hlt heq => ?_, hids.exists_get? ht ⟨c, hc⟩,
      hids.count_le ht⟩
    subst heq
    exact UInt32.lt_irrefl _ hlt
  · exact ht.fault_climb_ne hc hlimit name n (Synthesizer.fst_run_collect_eq_error_iff.mp hdeep)
  · have hfault : ∀ name n, (h.classes.climb limit start).fault ≠
        some (.hierarchyTooDeep name n) := fun name n hclimb =>
      hdeep name n (Synthesizer.fst_run_collect_eq_error_iff.mpr hclimb)
    rw [s.collect_withLimit_congr (ClassTable.climb_eq_of_le hle hfault)]

/-- Two visits are enough for a circle, and then the usual limit gives nothing else. -/
theorem shapes_limit_collect :
    shapes.Reachable ∧ (∃ c, shapes.classes.get? ⟨2⟩ = some c) ∧
      (∀ name n, (((({} : Synthesizer).withLimit 2).collect shapes.classes ⟨2⟩).run.run
        shapes.names).1 ≠ .error (.hierarchyTooDeep name n)) ∧
      ((({} : Synthesizer).withLimit 256).collect shapes.classes ⟨2⟩).run.run shapes.names =
        ((({} : Synthesizer).withLimit 2).collect shapes.classes ⟨2⟩).run.run shapes.names := by
  obtain ⟨hclasses, hlarger⟩ := Reachable.limit_collect shapes_reachable
  obtain ⟨c, hc⟩ : ∃ c, shapes.classes.get? ⟨2⟩ = some c :=
    ClassTable.exists_get?_of_lt_size (by decide +kernel)
  have hdeep := (hclasses ⟨2⟩ c hc).2 {} shapes.names 2 (by decide)
  exact ⟨shapes_reachable, ⟨c, hc⟩, hdeep, hlarger {} shapes.names ⟨2⟩ 2 256 (by decide) hdeep⟩

end Hierarchy

end BackingFields
