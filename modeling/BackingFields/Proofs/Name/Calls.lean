import BackingFields.Proofs.Name.Growth

set_option relaxedAutoImplicit false
set_option autoImplicit false

/-!
# Sequences of calls on a name table

A host interns texts, looks for names without issuing any, and reads names back.  Whatever the
order of these calls, the table stores the interned texts in the order of their first occurrence,
a name is the position of its text, and only interning changes anything.

## Main definitions

* `BackingFields.NameTable.Call`, `BackingFields.NameTable.Reply` — what a host may ask of a table,
  and what the table answers.
* `BackingFields.NameTable.interned` — the texts that some calls intern.
* `BackingFields.NameTable.after` — the table after some calls on one without texts.

## Main results

* `BackingFields.NameTable.after_eq` — some calls leave what interning their texts leaves.
* `BackingFields.NameTable.Consistent.index_eq` — a name is the position of its text.
* `BackingFields.NameTable.positions_after` — the law of all calls on a new table.

## Design notes

Names are only as good as the width of their indices, so the law asks for fewer than `2 ^ 32`
different texts.  That names keep their texts needs no such bound: positions never move.
-/

namespace BackingFields.NameTable

/-! ## Calls -/

/-- What a host may ask of a name table. -/
inductive Call where
  /-- The name of a text, issued if it is new. -/
  | intern (text : String)
  /-- The name of a text, if it has one. -/
  | find (text : String)
  /-- The text of a name, if it has one. -/
  | lookup (name : Name)
  /-- The text of a name for messages. -/
  | display (name : Name)
deriving DecidableEq

/-- What a name table answers. -/
inductive Reply where
  | issued (name : Name)
  | found (name : Option Name)
  | stored (text : Option String)
  | shown (text : String)
deriving DecidableEq

/-- Answers a call. -/
def Call.run : Call → NameM Reply
  | intern text => return .issued (← NameM.intern text)
  | find text => return .found ((← get).find? text)
  | lookup name => return .stored ((← get).text? name)
  | display name => return .shown (← NameM.display name)

/-- The text that a call interns. -/
def Call.text? : Call → Option String
  | intern text => some text
  | _ => none

/-- The texts that some calls intern, in their order. -/
def interned (calls : List Call) : List String := calls.filterMap Call.text?

/-- The table after some calls on a table without texts. -/
def after (calls : List Call) : NameTable := ((calls.mapM Call.run).run empty).2

variable {t : NameTable}

/-! ## What calls leave -/

/-- A call leaves what interning its text leaves, and nothing changes if it interns none. -/
@[simp]
theorem snd_run_call (c : Call) (t : NameTable) :
    (c.run.run t).2 = t.internAll c.text?.toList := by
  cases c <;> rfl

/-- Some calls leave what interning their texts leaves. -/
@[simp]
theorem snd_run_calls (calls : List Call) (t : NameTable) :
    ((calls.mapM Call.run).run t).2 = t.internAll (interned calls) := by
  induction calls generalizing t with
  | nil => rfl
  | cons c calls ih =>
    have htexts : interned (c :: calls) = c.text?.toList ++ interned calls := by
      cases c <;> rfl
    rw [List.mapM_cons, htexts, internAll_append, ← snd_run_call, ← ih]
    rfl

/-- The table after some calls is the one that interning their texts leaves. -/
theorem after_eq (calls : List Call) : after calls = empty.internAll (interned calls) :=
  snd_run_calls calls empty

/-- Calls on what earlier calls have left are calls behind them. -/
theorem after_append (calls later : List Call) :
    after (calls ++ later) = (after calls).internAll (interned later) := by
  rw [after_eq, after_eq, interned, List.filterMap_append, internAll_append]
  rfl

/-- Further calls make a table grow. -/
theorem growsTo_after (calls later : List Call) : (after calls).GrowsTo (after (calls ++ later)) :=
  ⟨interned later, after_append calls later⟩

/-- A call that interns a text leaves what interning the text leaves. -/
theorem after_concat_intern (calls : List Call) (s : String) :
    after (calls ++ [.intern s]) = ((after calls).intern s).2 :=
  after_append calls [.intern s]

/-- Calls behind one that interns a text make the table that it left grow. -/
theorem growsTo_after_intern (before : List Call) (s : String) (later : List Call) :
    (after (before ++ [.intern s])).GrowsTo (after (before ++ .intern s :: later)) := by
  have hgrow := growsTo_after (before ++ [.intern s]) later
  rwa [List.append_assoc] at hgrow

/-- An interned text is found under the name issued for it, whatever is called later. -/
theorem find?_after_intern (before : List Call) (s : String) (later : List Call) :
    (after (before ++ .intern s :: later)).find? s = some ((after before).intern s).1 := by
  refine (growsTo_after_intern before s later).find?_eq_some ?_
  rw [after_concat_intern]
  exact (after before).find?_intern_self s

/-- To a table without texts every text is new. -/
@[simp]
theorem newTexts_empty (texts : List String) : empty.newTexts texts = texts.eraseDups := by
  have hnew : (texts.filter fun s => (empty.find? s).isNone) = texts := by
    simp
  rw [newTexts, hnew]

/-- A new table stores the interned texts, each once, in the order of their first occurrence. -/
theorem texts_after (calls : List Call) :
    (after calls).texts.toList = (interned calls).eraseDups := by
  rw [after_eq, toList_texts_internAll, newTexts_empty]
  rfl

/-- A new table holds as many texts as are different among the interned ones. -/
theorem size_after (calls : List Call) :
    (after calls).size = (interned calls).eraseDups.length := by
  rw [size, ← Array.length_toList, texts_after]

/-- A new table knows exactly the texts that it stores. -/
theorem isSome_find?_after_iff (calls : List Call) (s : String) :
    ((after calls).find? s).isSome = true ↔ s ∈ (after calls).texts.toList := by
  rw [texts_after, List.mem_eraseDups, Option.isSome_iff_ne_none, Ne, after_eq,
    find?_internAll_eq_none_iff]
  simp

/-- Names and texts of a new table are inverse to each other while the texts are few enough. -/
theorem consistent_after {calls : List Call} (hsize : (after calls).size ≤ UInt32.size) :
    (after calls).Consistent := by
  have hgrow : empty.GrowsTo (after calls) := ⟨interned calls, after_eq calls⟩
  exact hgrow.consistent consistent_empty hsize

/-! ## Positions -/

/-- A name is the position of its text. -/
theorem Consistent.index_eq (h : t.Consistent) (hsize : t.size ≤ UInt32.size) {s : String}
    {n : Name} (hs : t.find? s = some n) : n.index.toNat = t.texts.toList.idxOf s := by
  have hmem : s ∈ t.texts.toList := by
    have htext : t.text? n = some s := (h s n).mp hs
    exact Array.mem_toList_iff.mpr (Array.mem_of_getElem? htext)
  have hlt : t.texts.toList.idxOf s < t.texts.toList.length := List.idxOf_lt_length_of_mem hmem
  -- the name at this position has the same text, so it is the same name
  have hindex : (t.texts.toList.idxOf s).toUInt32.toNat = t.texts.toList.idxOf s := by
    have : t.texts.toList.length = t.size := Array.length_toList
    simpa using Nat.mod_eq_of_lt (show t.texts.toList.idxOf s < UInt32.size by omega)
  have hat : t.text? ⟨(t.texts.toList.idxOf s).toUInt32⟩ = some s := by
    rw [text?, hindex, ← Array.getElem?_toList, List.getElem?_eq_getElem hlt, List.getElem_idxOf]
  rw [← h, hs, Option.some_inj] at hat
  rw [hat, hindex]

/-! ## The law -/

/-- **What a new name table does.**  After any calls that intern fewer than `2 ^ 32` different
texts, it stores these texts, each once, in the order of their first occurrence; names and texts are
inverse to each other, so that equal names are those of equal texts.  Each call that interns a text
has issued its position and stored it behind the others, unless it was known; from then on, whatever
is called, the name has this text.  All other calls have left the table as it was.

**Proof sketch.** The table is the one that interning leaves, and at each call it is the one that
interning the earlier texts leaves.  A name that a call issues is found by its text then, hence also
in the end, where it is the position of the text. -/
theorem positions_after (calls : List Call)
    (hfew : (interned calls).eraseDups.length < UInt32.size) :
    let t := after calls
    t.texts.toList = (interned calls).eraseDups ∧
      (∀ s n, t.find? s = some n ↔ t.text? n = some s) ∧
      (∀ s s' n n', t.find? s = some n → t.find? s' = some n' → (n = n' ↔ s = s')) ∧
      (∀ before s later, calls = before ++ .intern s :: later →
        ∃ n, (Call.run (.intern s)).run (after before) =
            (.issued n, after (before ++ [.intern s])) ∧
          n.index.toNat = t.texts.toList.idxOf s ∧
          (after (before ++ [.intern s])).texts.toList = (after before).texts.toList ++
            (if s ∈ (after before).texts.toList then [] else [s]) ∧
          ∀ further, (after (before ++ .intern s :: further)).text? n = some s) ∧
      ∀ before c later, calls = before ++ c :: later → (∀ s, c ≠ .intern s) →
        after (before ++ [c]) = after before := by
  intro t
  have hsize : t.size ≤ UInt32.size := by
    rw [size_after]
    exact Nat.le_of_lt hfew
  have ht : t.Consistent := consistent_after hsize
  refine ⟨texts_after calls, ht, ?_, ?_, ?_⟩
  · intro s s' n n' hs hs'
    constructor
    · rintro rfl
      have htext : t.text? n = some s := (ht s n).mp hs
      rw [(ht s' n).mp hs'] at htext
      exact (Option.some_inj.mp htext).symm
    · rintro rfl
      rw [hs] at hs'
      exact Option.some_inj.mp hs'
  · rintro before s later rfl
    refine ⟨((after before).intern s).1, ?_, ?_, ?_, ?_⟩
    · rw [after_concat_intern]
      rfl
    · exact ht.index_eq hsize (find?_after_intern before s later)
    · rw [after_concat_intern, texts_intern]
      simp only [isSome_find?_after_iff]
      split
      · rw [List.append_nil]
      · rw [Array.toList_push]
    · intro further
      -- the table was consistent behind this call, and has only grown since
      have hc : (after (before ++ [.intern s])).Consistent :=
        consistent_after (Nat.le_trans (growsTo_after_intern before s later).size_le hsize)
      exact (growsTo_after_intern before s further).text?_eq_some
        ((hc _ _).mp (find?_after_intern before s []))
  · rintro before c later rfl hc
    rw [after_append]
    cases c with
    | intern s => exact absurd rfl (hc s)
    | _ => rfl

/-- A text that is interned twice, with a look-up and another text in between, is stored once and
has one name, which it keeps. -/
theorem sides_positions_after :
    let calls : List Call :=
      [.intern "side", .find "area", .intern "area", .display ⟨7⟩, .intern "side"]
    (interned calls).eraseDups.length < UInt32.size ∧
      (after calls).texts.toList = ["side", "area"] ∧
      (∃ n, (after calls).find? "side" = some n ∧ n.index = 0) ∧
      after (calls.take 4) = after (calls.take 3) := by
  intro calls
  have hfew : (interned calls).eraseDups.length < UInt32.size := by decide +kernel
  obtain ⟨htexts, hinverse, -, hissued, hkept⟩ := positions_after calls hfew
  refine ⟨hfew, ?_, ?_, ?_⟩
  · rw [htexts]
    decide +kernel
  · obtain ⟨n, -, hindex, -, hlater⟩ := hissued [] "side" (calls.drop 1) rfl
    refine ⟨n, (hinverse _ _).mpr (hlater (calls.drop 1)), UInt32.toNat_inj.mp ?_⟩
    rw [hindex, htexts]
    decide +kernel
  · exact hkept (calls.take 3) (.display ⟨7⟩) [.intern "side"] rfl nofun

end BackingFields.NameTable
