import BackingFields.Name.Table

set_option relaxedAutoImplicit false
set_option autoImplicit false

/-!
# How a name table grows

Nothing is ever removed from a name table: every computation on names leaves a table that arises
from the one before by interning.  What a table knows about a text or a name therefore stays true,
and as long as a table is small enough for its indices, the text of a name and the name of a text
are inverse to each other.

## Main definitions

* `BackingFields.NameTable.internAll` — the table after interning several texts.
* `BackingFields.NameTable.GrowsTo` — one table arises from another by interning.
* `BackingFields.NameTable.newTexts` — the texts that growth adds.
* `BackingFields.NameTable.Consistent` — names and texts of a table are inverse.
* `BackingFields.NameM.OnlyInterns` — a computation changes its table by interning alone.

## Main results

* `BackingFields.NameTable.GrowsTo.find?_eq_some`, `GrowsTo.text?_eq_some` — what is known stays
  known.
* `BackingFields.NameTable.toList_texts_internAll` — interning stores exactly the new texts.
* `BackingFields.NameTable.GrowsTo.consistent` — a consistent table stays consistent while it holds
  at most `2 ^ 32` texts.
-/

namespace BackingFields

namespace NameTable

variable {t t' t'' : NameTable}

/-! ## Growth -/

/-- The table after interning several texts in their order. -/
def internAll (t : NameTable) (texts : List String) : NameTable :=
  texts.foldl (fun t s => (t.intern s).2) t

/-- One table arises from another by interning some texts. -/
def GrowsTo (t t' : NameTable) : Prop := ∃ texts, t' = t.internAll texts

@[simp]
theorem internAll_nil (t : NameTable) : t.internAll [] = t := rfl

/-- The first text is interned first. -/
@[simp]
theorem internAll_cons (t : NameTable) (s : String) (texts : List String) :
    t.internAll (s :: texts) = (t.intern s).2.internAll texts :=
  rfl

/-- Interning two lists of texts is interning the second after the first. -/
@[simp]
theorem internAll_append (t : NameTable) (left right : List String) :
    t.internAll (left ++ right) = (t.internAll left).internAll right := by
  simp [internAll]

/-- Every table arises from itself. -/
@[simp]
theorem GrowsTo.refl (t : NameTable) : t.GrowsTo t := ⟨[], rfl⟩

/-- Growing twice is growing. -/
theorem GrowsTo.trans (h : t.GrowsTo t') (h' : t'.GrowsTo t'') : t.GrowsTo t'' := by
  obtain ⟨left, rfl⟩ := h
  obtain ⟨right, rfl⟩ := h'
  exact ⟨left ++ right, (internAll_append t left right).symm⟩

/-- Interning one text makes a table grow. -/
@[simp]
theorem growsTo_intern (t : NameTable) (s : String) : t.GrowsTo (t.intern s).2 := ⟨[s], rfl⟩

/-- What interning one text preserves, growth preserves. -/
theorem GrowsTo.preserves {P : NameTable → Prop} (step : ∀ t s, P t → P (t.intern s).2)
    (h : t.GrowsTo t') (ht : P t) : P t' := by
  obtain ⟨texts, rfl⟩ := h
  induction texts generalizing t with
  | nil => exact ht
  | cons s texts ih => exact ih (step t s ht)

/-- A text keeps its name. -/
theorem GrowsTo.find?_eq_some {s : String} {n : Name} (h : t.GrowsTo t')
    (hs : t.find? s = some n) : t'.find? s = some n := by
  refine h.preserves (P := fun t => t.find? s = some n) (fun t r hs => ?_) hs
  by_cases hr : r = s
  · subst hr
    rw [intern_of_find?_eq_some hs]
    exact hs
  · rw [find?_intern_of_ne t hr]
    exact hs

/-- A name keeps its text. -/
theorem GrowsTo.text?_eq_some {s : String} {n : Name} (h : t.GrowsTo t')
    (hn : t.text? n = some s) : t'.text? n = some s := by
  refine h.preserves (P := fun t => t.text? n = some s) (fun t r hn => ?_) hn
  have hlt : n.index.toNat < t.size := (Array.getElem?_eq_some_iff.mp hn).1
  rw [text?_intern, if_neg fun h => Nat.ne_of_lt hlt h.2]
  exact hn

/-- A known name is displayed by its text. -/
theorem GrowsTo.display_eq {s : String} {n : Name} (h : t.GrowsTo t') (hn : t.text? n = some s) :
    t'.display n = s :=
  display_of_text?_eq_some (h.text?_eq_some hn)

/-- No text is lost. -/
theorem GrowsTo.size_le (h : t.GrowsTo t') : t.size ≤ t'.size := by
  refine h.preserves (P := fun u => t.size ≤ u.size) (fun u s hu => ?_) (Nat.le_refl _)
  rw [size_intern]
  split <;> omega

/-! ## What growth adds -/

/-- The texts among some that a table does not know, each once, in the order of their first
occurrence. -/
def newTexts (t : NameTable) (texts : List String) : List String :=
  (texts.filter fun s => (t.find? s).isNone).eraseDups

/-- A known text is not new. -/
theorem newTexts_cons_of_find?_eq_some {s : String} {n : Name} (h : t.find? s = some n)
    (texts : List String) : t.newTexts (s :: texts) = t.newTexts texts := by
  simp [newTexts, h]

/-- An unknown text comes first and is no longer new once it has been interned. -/
theorem newTexts_cons_of_find?_eq_none {s : String} (h : t.find? s = none) (texts : List String) :
    t.newTexts (s :: texts) = s :: (t.intern s).2.newTexts texts := by
  have hknown : ∀ r, ((t.intern s).2.find? r).isNone = ((t.find? r).isNone && !r == s) := by
    intro r
    by_cases hr : s = r
    · subst hr
      simp
    · simp [hr, Ne.symm hr]
  simp only [newTexts, hknown, List.filter_cons, h, Option.isNone_none, if_true,
    List.eraseDups_cons, List.filter_filter]
  congr 3
  funext r
  exact Bool.and_comm _ _

/-- Interning some texts stores those that are new behind the others. -/
@[simp]
theorem toList_texts_internAll (t : NameTable) (texts : List String) :
    (t.internAll texts).texts.toList = t.texts.toList ++ t.newTexts texts := by
  induction texts generalizing t with
  | nil => simp [newTexts]
  | cons s texts ih =>
    rw [internAll_cons, ih]
    cases hs : t.find? s with
    | some n => rw [intern_of_find?_eq_some hs, newTexts_cons_of_find?_eq_some hs]
    | none =>
      rw [newTexts_cons_of_find?_eq_none hs, texts_intern, hs]
      simp

/-- Interning some texts makes these known and no others. -/
@[simp]
theorem find?_internAll_eq_none_iff (t : NameTable) (texts : List String) (s : String) :
    (t.internAll texts).find? s = none ↔ t.find? s = none ∧ s ∉ texts := by
  induction texts generalizing t with
  | nil => simp
  | cons r texts ih =>
    rw [internAll_cons, ih, List.mem_cons, not_or]
    by_cases hr : r = s
    · subst hr
      simp
    · simp [hr, Ne.symm hr]

/-- Each of some texts has a name once they have been interned. -/
theorem exists_find?_internAll (t : NameTable) {texts : List String} {s : String} (hs : s ∈ texts) :
    ∃ n, (t.internAll texts).find? s = some n := by
  refine Option.ne_none_iff_exists'.mp fun hnone => ?_
  exact ((find?_internAll_eq_none_iff t texts s).mp hnone).2 hs

/-! ## Consistency -/

/-- The name of a text and the text of a name are inverse to each other. -/
def Consistent (t : NameTable) : Prop := ∀ s n, t.find? s = some n ↔ t.text? n = some s

/-- The table without texts is consistent. -/
@[simp]
theorem consistent_empty : empty.Consistent := by
  intro s n
  simp

/-- A new text can be read back from its name while indices fit their width.

**Proof sketch.** A known text changes nothing.  A new text `s` gets the first free position, and
this is the position of its name because it is below `2 ^ 32`; every other position and every other
text is as before, and `s` was at none of the earlier positions. -/
theorem Consistent.intern (h : t.Consistent) (hsize : t.size < UInt32.size) (s : String) :
    (t.intern s).2.Consistent := by
  cases hs : t.find? s with
  | some n =>
    rw [intern_of_find?_eq_some hs]
    exact h
  | none =>
    intro r n
    have hn : n = ⟨t.size.toUInt32⟩ ↔ n.index.toNat = t.size := by
      constructor
      · rintro rfl
        simpa using Nat.mod_eq_of_lt hsize
      · intro hn
        cases n
        simp [← hn]
    have htext : (t.intern s).2.text? n = if n.index.toNat = t.size then some s else t.text? n := by
      simp [hs]
    rw [htext]
    by_cases hr : s = r
    · subst hr
      have hfind : (t.intern s).2.find? s = some ⟨t.size.toUInt32⟩ := by
        rw [find?_intern_self]
        simp [NameTable.intern, hs]
      rw [hfind, Option.some_inj, eq_comm, hn]
      split
      · simp_all
      · simp only [*, false_iff]
        intro ht
        rw [(h s n).mpr ht] at hs
        cases hs
    · rw [find?_intern_of_ne t hr, h r n]
      split
      · have : t.text? n = none := by
          simp [text?, size, *]
        simp [this, hr]
      · rfl

/-- A consistent table stays consistent while it holds at most `2 ^ 32` texts. -/
theorem GrowsTo.consistent (h : t.GrowsTo t') (ht : t.Consistent) (hsize : t'.size ≤ UInt32.size) :
    t'.Consistent := by
  obtain ⟨texts, rfl⟩ := h
  induction texts generalizing t with
  | nil => exact ht
  | cons s texts ih =>
    rw [internAll_cons] at hsize ⊢
    cases hs : t.find? s with
    | some n =>
      rw [intern_of_find?_eq_some hs] at hsize ⊢
      exact ih ht hsize
    | none =>
      have hpush : (t.intern s).2.size = t.size + 1 := by
        simp [hs]
      have hle : (t.intern s).2.size ≤ ((t.intern s).2.internAll texts).size :=
        GrowsTo.size_le ⟨texts, rfl⟩
      exact ih (ht.intern (by omega) s) hsize

end NameTable

/-! ## Computations that only intern -/

namespace NameM

variable {α β ε : Type}

/-- Of two computations in sequence the second begins with what the first has left. -/
theorem run_bind (m : NameM α) (f : α → NameM β) (t : NameTable) :
    (m >>= f).run t = (f (m.run t).1).run (m.run t).2 := rfl

/-- A computation changes its table by interning alone. -/
def OnlyInterns (m : NameM α) : Prop := ∀ t : NameTable, t.GrowsTo (m.run t).2

namespace OnlyInterns

/-- What a computation leaves that only interns has grown. -/
theorem growsTo {m : NameM α} (h : OnlyInterns m) {a : α} {t t' : NameTable}
    (hrun : m.run t = (a, t')) : t.GrowsTo t' := by
  have hgrow := h t
  rwa [hrun] at hgrow

/-- Giving a value interns nothing. -/
theorem pure (a : α) : OnlyInterns (Pure.pure a) := fun t => .refl t

/-- Two computations in sequence only intern if both do. -/
theorem bind {m : NameM α} {f : α → NameM β} (hm : OnlyInterns m)
    (hf : ∀ a, OnlyInterns (f a)) : OnlyInterns (m >>= f) :=
  fun t => (hm t).trans (hf _ _)

/-- Interning one text only interns. -/
theorem intern (s : String) : OnlyInterns (NameM.intern s) := fun t => t.growsTo_intern s

/-- Reading the text of a name interns nothing. -/
theorem display (n : Name) : OnlyInterns (NameM.display n) := fun t => .refl t

/-- A loop over a list only interns if each step does. -/
theorem foldlM {f : β → α → NameM β} (hf : ∀ b a, OnlyInterns (f b a)) (as : List α) (b : β) :
    OnlyInterns (as.foldlM f b) := by
  induction as generalizing b with
  | nil => exact .pure b
  | cons a as ih =>
    rw [List.foldlM_cons]
    exact (hf b a).bind fun b => ih b

/-- Two failing computations in sequence only intern if both do. -/
theorem exceptBind {m : ExceptT ε NameM α} {f : α → ExceptT ε NameM β}
    (hm : OnlyInterns m.run) (hf : ∀ a, OnlyInterns (f a).run) : OnlyInterns (m >>= f).run := by
  rw [ExceptT.run_bind]
  refine hm.bind fun outcome => ?_
  cases outcome with
  | ok a => exact hf a
  | error e => exact .pure (Except.error e)

/-- A failing computation for each item of a list only interns if each does. -/
theorem exceptMapM {f : α → ExceptT ε NameM β} (hf : ∀ a, OnlyInterns (f a).run) (as : List α) :
    OnlyInterns (as.mapM f).run := by
  induction as with
  | nil => exact .pure _
  | cons a as ih =>
    rw [List.mapM_cons]
    exact (hf a).exceptBind fun b => ih.exceptBind fun bs => .pure _

end OnlyInterns

/-- A sequence of two failing computations goes on with the value of the first or stops with its
failure, and keeps its table in either case. -/
theorem run_exceptBind (m : ExceptT ε NameM α) (f : α → ExceptT ε NameM β) (t : NameTable) :
    (m >>= f).run.run t =
      match m.run.run t with
      | (.ok a, t') => (f a).run.run t'
      | (.error e, t') => (.error e, t') := by
  rw [ExceptT.run_bind, StateT.run_bind]
  cases hm : m.run.run t with
  | mk outcome t' => cases outcome <;> rfl

/-- A function of the value of a failing computation leaves its failure and its table alone. -/
theorem run_exceptBind_pure (m : ExceptT ε NameM α) (f : α → β) (t : NameTable) :
    (m >>= fun a => pure (f a)).run.run t = ((m.run.run t).1.map f, (m.run.run t).2) := by
  rw [run_exceptBind]
  cases m.run.run t with
  | mk outcome t' => cases outcome <;> rfl

/-- A function of an outcome fails exactly when the outcome does. -/
@[simp]
theorem map_eq_error_iff {f : α → β} {outcome : Except ε α} {e : ε} :
    outcome.map f = .error e ↔ outcome = .error e := by
  cases outcome <;> simp [Except.map]

/-- A sequence of two failing computations has a value exactly when both have one. -/
theorem run_bind_eq_ok {m : ExceptT ε NameM α} {f : α → ExceptT ε NameM β} {t t' : NameTable}
    {b : β} (h : (m >>= f).run.run t = (.ok b, t')) :
    ∃ a t₁, m.run.run t = (.ok a, t₁) ∧ (f a).run.run t₁ = (.ok b, t') := by
  rw [run_exceptBind] at h
  cases hm : m.run.run t with
  | mk outcome t₁ =>
    rw [hm] at h
    cases outcome with
    | ok a => exact ⟨a, t₁, rfl, h⟩
    | error e => cases h

@[simp]
theorem run_internAll_nil (t : NameTable) : (internAll []).run t = ([], t) := rfl

/-- The name of the first text comes first. -/
@[simp]
theorem fst_run_internAll_cons (s : String) (texts : List String) (t : NameTable) :
    ((internAll (s :: texts)).run t).1 =
      (t.intern s).1 :: ((internAll texts).run (t.intern s).2).1 := by
  rw [internAll, List.mapM_cons]
  rfl

/-- Interning several texts leaves the table with all of them. -/
@[simp]
theorem snd_run_internAll (texts : List String) (t : NameTable) :
    ((internAll texts).run t).2 = t.internAll texts := by
  unfold internAll
  induction texts generalizing t with
  | nil => rfl
  | cons s texts ih =>
    rw [List.mapM_cons]
    exact ih (t.intern s).2

/-- Interning several texts only interns. -/
theorem OnlyInterns.internAll (texts : List String) : OnlyInterns (NameM.internAll texts) :=
  fun t => ⟨texts, snd_run_internAll texts t⟩

end NameM

end BackingFields
