import BackingFields.Proofs.Name.Growth
import Mathlib.Data.List.Forall2

set_option relaxedAutoImplicit false
set_option autoImplicit false

/-!
# Running a computation on names again

A computation that has been run once finds all its texts interned when it is run again, however much
the table has grown in between.  The second run may read other data than the first, for instance a
larger class table, so the two are compared through a relation between their results.

## Main definitions

* `BackingFields.NameM.Replays` — a computation that is run after another one interns nothing and
  gives a related result.

## Main results

* `BackingFields.NameM.Replays.bind`, `Replays.foldlM` — computations in sequence and loops replay
  others if their parts do.
-/

namespace BackingFields.NameM

variable {α β α' β' : Type} {base : NameTable} {R : α → α' → Prop} {Q : β → β' → Prop}

/-- A computation replays another one over the tables that grow from a given one: whenever it is run
on a table that has grown from what the other one has left, it interns nothing, and its result is
related to that of the other. -/
def Replays (base : NameTable) (R : α → α' → Prop) (m : NameM α) (m' : NameM α') : Prop :=
  ∀ t, base.GrowsTo t → t.GrowsTo (m.run t).2 ∧
    ∀ t', (m.run t).2.GrowsTo t' → (m'.run t').2 = t' ∧ R (m.run t).1 (m'.run t').1

namespace Replays

/-- Giving a value replays giving a related one. -/
theorem pure {a : α} {a' : α'} (h : R a a') : Replays base R (Pure.pure a) (Pure.pure a') :=
  fun t _ => ⟨.refl t, fun _ _ => ⟨rfl, h⟩⟩

/-- Two computations in sequence replay two others if the first replays the first, and the second
the second whenever they begin with related values. -/
theorem bind {m : NameM α} {m' : NameM α'} {f : α → NameM β} {f' : α' → NameM β'}
    (hm : Replays base R m m') (hf : ∀ a a', R a a' → Replays base Q (f a) (f' a')) :
    Replays base Q (m >>= f) (m' >>= f') := by
  intro t ht
  obtain ⟨hgrow, hreplay⟩ := hm t ht
  have hgrow' := (hf _ _ (hreplay _ (.refl _)).2 _ (ht.trans hgrow)).1
  rw [run_bind]
  refine ⟨hgrow.trans hgrow', fun t' ht' => ?_⟩
  obtain ⟨hsame, hR⟩ := hreplay t' (hgrow'.trans ht')
  rw [run_bind, hsame]
  exact (hf _ _ hR _ (ht.trans hgrow)).2 t' ht'

/-- What a computation always gives may be added to what it is replayed by. -/
theorem and_left {m : NameM α} {m' : NameM α'} {P : α → Prop} (h : Replays base R m m')
    (hP : ∀ t, P (m.run t).1) : Replays base (fun a a' => R a a' ∧ P a) m m' := by
  intro t ht
  obtain ⟨hgrow, hreplay⟩ := h t ht
  refine ⟨hgrow, fun t' ht' => ?_⟩
  obtain ⟨hsame, hR⟩ := hreplay t' ht'
  exact ⟨hsame, hR, hP t⟩

/-- Interning a text again issues the same name. -/
theorem intern (s : String) : Replays base (· = ·) (NameM.intern s) (NameM.intern s) := by
  intro t _
  refine ⟨t.growsTo_intern s, fun t' ht' => ?_⟩
  have hrun : (NameM.intern s).run t' = ((t.intern s).1, t') := by
    have hfind : t'.find? s = some (t.intern s).1 := ht'.find?_eq_some (t.find?_intern_self s)
    rw [run_intern, NameTable.intern_of_find?_eq_some hfind]
  rw [hrun]
  exact ⟨rfl, rfl⟩

/-- Interning several texts again issues the same names. -/
theorem internAll (texts : List String) :
    Replays base (· = ·) (NameM.internAll texts) (NameM.internAll texts) := by
  unfold NameM.internAll
  induction texts with
  | nil => exact .pure rfl
  | cons s texts ih =>
    rw [List.mapM_cons]
    refine .bind (.intern s) fun n n' hn => .bind ih fun ns ns' hns => .pure ?_
    rw [hn, hns]

/-- A known name keeps its text. -/
theorem display {n : Name} {s : String} (h : base.text? n = some s) :
    Replays base (· = ·) (NameM.display n) (NameM.display n) := by
  have hrun {t : NameTable} (ht : base.GrowsTo t) : (NameM.display n).run t = (s, t) := by
    rw [run_display, ht.display_eq h]
  intro t ht
  rw [hrun ht]
  refine ⟨.refl t, fun t' ht' => ?_⟩
  rw [hrun (ht.trans ht')]
  exact ⟨rfl, rfl⟩

/-- A loop replays another one if each of its steps does. -/
theorem foldlM {f : β → α → NameM β} {f' : β' → α' → NameM β'}
    (hf : ∀ b b' a a', Q b b' → R a a' → Replays base Q (f b a) (f' b' a')) {as : List α}
    {as' : List α'} (has : List.Forall₂ R as as') {b : β} {b' : β'} (hb : Q b b') :
    Replays base Q (as.foldlM f b) (as'.foldlM f' b') := by
  induction has generalizing b b' with
  | nil => exact .pure hb
  | cons ha _ ih =>
    rw [List.foldlM_cons, List.foldlM_cons]
    exact .bind (hf b b' _ _ hb ha) fun _ _ h => ih h

end Replays

end BackingFields.NameM
