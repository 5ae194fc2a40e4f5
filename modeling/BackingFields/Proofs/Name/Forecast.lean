import BackingFields.Proofs.Name.Growth

set_option relaxedAutoImplicit false
set_option autoImplicit false

/-!
# What a computation on names will intern

The names that a computation issues depend on the table that it is run on, but the texts that it
interns need not.  Once these are known, the table that it leaves is known as well, and its result
can be read off this table, or off any later one.

## Main definitions

* `BackingFields.NameTable.nameOf` — the name of a text that has one.
* `BackingFields.NameM.Interns` — a computation interns exactly some texts, and its result is what
  a function reads off every later table.

## Main results

* `BackingFields.NameM.Interns.bind` — two computations in sequence intern the texts of both.

## Design notes

Comparing names is comparing texts only while indices fit their width, so nothing is said about a
run that leaves more than `2 ^ 32` texts.
-/

namespace BackingFields

namespace NameTable

variable {t t' : NameTable}

/-- The name of a text that has one. -/
def nameOf (t : NameTable) (s : String) : Name := (t.find? s).getD default

/-- A text keeps its name. -/
theorem GrowsTo.nameOf_eq {s : String} {n : Name} (h : t.GrowsTo t') (hs : t.find? s = some n) :
    t'.nameOf s = n := by
  rw [nameOf, h.find?_eq_some hs, Option.getD_some]

end NameTable

namespace NameM

variable {α β : Type} {base : NameTable} {texts texts' : List String}

/-- A computation interns exactly some texts, in their order, on every table that has grown from a
given one, and any later table tells its result, as long as names fit. -/
def Interns (base : NameTable) (m : NameM α) (texts : List String) (value : NameTable → α) :
    Prop :=
  ∀ t, base.GrowsTo t → (m.run t).2.size ≤ UInt32.size →
    (m.run t).2 = t.internAll texts ∧ ∀ t', (m.run t).2.GrowsTo t' → (m.run t).1 = value t'

namespace Interns

/-- Giving a value interns nothing. -/
theorem pure (a : α) : Interns base (Pure.pure a) [] fun _ => a :=
  fun _ _ _ => ⟨rfl, fun _ _ => rfl⟩

/-- Interning a text gives the name that the text has from then on. -/
theorem intern (s : String) : Interns base (NameM.intern s) [s] fun t => t.nameOf s := by
  intro t _ _
  refine ⟨rfl, fun t' hgrow => ?_⟩
  exact (hgrow.nameOf_eq (t.find?_intern_self s)).symm

/-- Reading the text of a known name interns nothing. -/
theorem display {n : Name} {s : String} (h : base.text? n = some s) :
    Interns base (NameM.display n) [] fun _ => s := by
  intro t hgrow _
  exact ⟨rfl, fun _ _ => hgrow.display_eq h⟩

/-- Two computations in sequence intern the texts of the first and then those of the second, which
may depend on the result of the first, whatever the names in it are. -/
theorem bind {m : NameM α} {f : α → NameM β} {value : NameTable → α}
    {value' : NameTable → NameTable → β} (hm : Interns base m texts value)
    (honly : ∀ a, OnlyInterns (f a))
    (hf : ∀ t, base.GrowsTo t → Interns base (f (value t)) texts' (value' t)) :
    Interns base (m >>= f) (texts ++ texts') fun t => value' t t := by
  intro t hgrow hsize
  rw [run_bind] at hsize ⊢
  have hgrow₂ := honly (m.run t).1 (m.run t).2
  obtain ⟨htable, hvalue⟩ := hm t hgrow (Nat.le_trans hgrow₂.size_le hsize)
  have hgrow₁ : base.GrowsTo (m.run t).2 := hgrow.trans ⟨texts, htable⟩
  have hlater (t' : NameTable) (h : (m.run t).2.GrowsTo t') :
      Interns base (f (m.run t).1) texts' (value' t') := by
    rw [hvalue t' h]
    exact hf t' (hgrow₁.trans h)
  refine ⟨?_, fun t' hgrow' => ?_⟩
  · rw [(hlater _ (.refl _) _ hgrow₁ hsize).1, htable, NameTable.internAll_append]
  · exact (hlater t' (hgrow₂.trans hgrow') _ hgrow₁ hsize).2 t' hgrow'

/-- The texts, and the result that a later table tells, may be written in another way. -/
theorem congr {m : NameM α} {value value' : NameTable → α} (hm : Interns base m texts value)
    (htexts : texts = texts') (hvalue : ∀ t, base.GrowsTo t → value t = value' t) :
    Interns base m texts' value' := by
  intro t hgrow hsize
  obtain ⟨htable, hresult⟩ := hm t hgrow hsize
  refine ⟨by rw [htable, htexts], fun t' hgrow' => ?_⟩
  rw [hresult t' hgrow']
  exact hvalue t' ((hgrow.trans ⟨texts, htable⟩).trans hgrow')

end Interns

end NameM

end BackingFields
