import BackingFields.Property.Basic
import BackingFields.Text.Identifier

set_option relaxedAutoImplicit false
set_option autoImplicit false

/-!
# How the grammars of names fit together

A class name is a path of identifiers, the fields of a source class are identifiers, and those of a
compiled class follow the laxer rules of member names.  Each grammar is a scanner of its own.  A
path is exactly a join of identifiers by dots, and in one way only; an identifier is a member name,
and a path of several is not; and the suffix of symbol names leads out of neither grammar.

## Main definitions

* `BackingFields.Text.CharacterClasses.Ordinary` — what the rules need of the character classes.
* `BackingFields.Text.CharacterClasses.PathOf` — a text is the join of some identifiers by dots.

## Main results

* `BackingFields.Text.CharacterClasses.Ordinary.isQualifiedIdentifier_iff`,
  `BackingFields.Text.CharacterClasses.PathOf.unique` — a qualified identifier is such a join, and
  of no other identifiers.
* `BackingFields.Text.CharacterClasses.isQualifiedIdentifier_append_dot` — what lies before and
  behind a dot.
* `BackingFields.Text.CharacterClasses.unicode_ordinary` — the classes of Unicode are ordinary.
* `BackingFields.Text.naming_rules` — all of these rules.

## Design notes

The rules hold for any two classes of characters that are ordinary.  In particular a character that
begins an identifier need not continue one, although this is so for the classes of Unicode.
-/

namespace BackingFields.Text

/-! ## Character classes -/

namespace CharacterClasses

variable {k : CharacterClasses}

/-- No character that breaks a member name begins or continues an identifier, and the underscore and
the ASCII letters continue one. -/
structure Ordinary (k : CharacterClasses) : Prop where
  breakers : ∀ c ∈ ['.', ';', '[', '/', '<', '>'], k.isStart c = false ∧ k.isContinue c = false
  underscore : k.isContinue '_' = true
  letters : ∀ c : Char, c.isAlpha = true → k.isContinue c = true

/-- The characters of the symbol suffix continue an identifier. -/
theorem Ordinary.isContinue_of_mem_symbolSuffix (hk : k.Ordinary) :
    ∀ c ∈ FieldProperty.symbolSuffix.toList, k.isContinue c = true := by
  have hall : FieldProperty.symbolSuffix.toList.all (fun c => c == '_' || c.isAlpha) = true := by
    decide +kernel
  intro c hc
  have hchar := List.all_eq_true.mp hall c hc
  rw [Bool.or_eq_true, beq_iff_eq] at hchar
  rcases hchar with rfl | hletter
  · exact hk.underscore
  · exact hk.letters c hletter

/-! ## Identifiers and member names -/

/-- No character of an identifier breaks a member name. -/
theorem Ordinary.notMem_memberNameBreakers (hk : k.Ordinary) {cs : List Char}
    (h : k.isIdentifierChars cs = true) : ∀ c ∈ cs, c ∉ memberNameBreakers := by
  intro c hc hbreaker
  obtain ⟨hstart, hcontinue⟩ := hk.breakers c hbreaker
  have hunderscore : c ≠ '_' := fun heq => absurd (heq ▸ hbreaker) (by decide)
  have hdollar : c ≠ '$' := fun heq => absurd (heq ▸ hbreaker) (by decide)
  cases cs with
  | nil => cases hc
  | cons first rest =>
    simp only [isIdentifierChars, Bool.and_eq_true, Bool.or_eq_true, beq_iff_eq,
      List.all_eq_true] at h
    rcases List.mem_cons.mp hc with rfl | hrest
    · simp [hunderscore, hstart] at h
    · simpa [hdollar, hcontinue] using h.2 c hrest

/-- An identifier holds no dot. -/
theorem Ordinary.dot_notMem (hk : k.Ordinary) {cs : List Char}
    (h : k.isIdentifierChars cs = true) : '.' ∉ cs :=
  fun hdot => hk.notMem_memberNameBreakers h '.' hdot (by decide)

/-- An identifier followed by continuing characters is an identifier. -/
theorem isIdentifierChars_append {cs ds : List Char} (h : k.isIdentifierChars cs = true)
    (hds : ∀ c ∈ ds, k.isContinue c = true) : k.isIdentifierChars (cs ++ ds) = true := by
  cases cs with
  | nil => cases h
  | cons first rest =>
    rw [isIdentifierChars, Bool.and_eq_true] at h
    rw [List.cons_append, isIdentifierChars, List.all_append, h.1, h.2, Bool.true_and,
      Bool.true_and, List.all_eq_true]
    intro c hc
    rw [hds c hc, Bool.or_true]

end CharacterClasses

/-- A member name is not empty and holds no character that breaks it. -/
@[simp]
theorem isMemberName_iff {s : String} :
    isMemberName s = true ↔ s.toList ≠ [] ∧ ∀ c ∈ s.toList, c ∉ memberNameBreakers := by
  simp [isMemberName]

/-- The symbol name of a field that is a member name is one too. -/
theorem isMemberName_append_symbolSuffix {s : String} (h : isMemberName s = true) :
    isMemberName (s ++ FieldProperty.symbolSuffix) = true := by
  have hsuffix : FieldProperty.symbolSuffix.toList.all
      (fun c => !memberNameBreakers.contains c) = true := by decide
  obtain ⟨hne, hchars⟩ := isMemberName_iff.mp h
  rw [isMemberName_iff, String.toList_append]
  refine ⟨List.append_ne_nil_of_left_ne_nil hne _, fun c hc => ?_⟩
  rcases List.mem_append.mp hc with hc | hc
  · exact hchars c hc
  · simpa using List.all_eq_true.mp hsuffix c hc

namespace CharacterClasses

variable {k : CharacterClasses}

/-- Every identifier is a member name. -/
theorem Ordinary.isMemberName_of_isIdentifier (hk : k.Ordinary) {s : String}
    (h : k.isIdentifier s = true) : isMemberName s = true := by
  refine isMemberName_iff.mpr ⟨fun hempty => ?_, hk.notMem_memberNameBreakers h⟩
  rw [isIdentifier, hempty] at h
  cases h

/-- The symbol name of a field that is an identifier is one too. -/
theorem Ordinary.isIdentifier_append_symbolSuffix (hk : k.Ordinary) {s : String}
    (h : k.isIdentifier s = true) :
    k.isIdentifier (s ++ FieldProperty.symbolSuffix) = true := by
  rw [isIdentifier, String.toList_append]
  exact isIdentifierChars_append h hk.isContinue_of_mem_symbolSuffix

/-! ## Paths of identifiers -/

/-- A text is the join of some identifiers by dots, of at least one. -/
structure PathOf (k : CharacterClasses) (ids : List String) (s : String) : Prop where
  ne_nil : ids ≠ []
  isIdentifier : ∀ id ∈ ids, k.isIdentifier id = true
  eq_intercalate : s = ".".intercalate ids

/-- The pieces between the dots of a path are its identifiers. -/
theorem PathOf.splitOn_eq {ids : List String} {s : String} (h : k.PathOf ids s)
    (hk : k.Ordinary) : s.toList.splitOn '.' = ids.map String.toList := by
  rw [h.eq_intercalate, String.toList_intercalate]
  refine List.splitOn_intercalate '.' (fun cs hcs => ?_) (mt List.map_eq_nil_iff.mp h.ne_nil)
  obtain ⟨id, hid, rfl⟩ := List.mem_map.mp hcs
  exact hk.dot_notMem (h.isIdentifier id hid)

/-- A text is a path of identifiers in one way only. -/
theorem PathOf.unique {ids ids' : List String} {s : String} (h : k.PathOf ids s)
    (h' : k.PathOf ids' s) (hk : k.Ordinary) : ids = ids' := by
  have hpieces : ids.map String.toList = ids'.map String.toList :=
    (h.splitOn_eq hk).symm.trans (h'.splitOn_eq hk)
  exact (List.map_inj_right fun _ _ => String.toList_inj.mp).mp hpieces

/-- A qualified identifier is a path of identifiers.

**Proof sketch.** The identifiers are the pieces between the dots, whose join is the text; and the
pieces of a join of identifiers are these, since no identifier holds a dot. -/
theorem Ordinary.isQualifiedIdentifier_iff (hk : k.Ordinary) {s : String} :
    k.isQualifiedIdentifier s = true ↔ ∃ ids, k.PathOf ids s := by
  constructor
  · intro h
    have hpieces : ((s.toList.splitOn '.').map String.ofList).map String.toList =
        s.toList.splitOn '.' := by
      simp
    refine ⟨(s.toList.splitOn '.').map String.ofList, ?_, fun id hid => ?_, ?_⟩
    · exact mt List.map_eq_nil_iff.mp (List.splitOn_ne_nil '.' s.toList)
    · obtain ⟨cs, hcs, rfl⟩ := List.mem_map.mp hid
      rw [isIdentifier, String.toList_ofList]
      exact List.all_eq_true.mp h cs hcs
    · rw [← String.toList_inj, String.toList_intercalate, hpieces]
      exact (List.intercalate_splitOn '.').symm
  · rintro ⟨ids, h⟩
    rw [isQualifiedIdentifier, h.splitOn_eq hk, List.all_map, List.all_eq_true]
    exact h.isIdentifier

/-- Two texts joined by a dot are a qualified identifier exactly if both are. -/
theorem isQualifiedIdentifier_append_dot (k : CharacterClasses) (a b : String) :
    k.isQualifiedIdentifier (a ++ "." ++ b) =
      (k.isQualifiedIdentifier a && k.isQualifiedIdentifier b) := by
  have hjoin : (a ++ "." ++ b).toList = a.toList ++ '.' :: b.toList := by
    simp [String.toList_append]
  simp only [isQualifiedIdentifier, hjoin, List.splitOn_append_cons_self, List.all_append]

/-- An identifier is a qualified identifier without a dot. -/
theorem Ordinary.isIdentifier_iff (hk : k.Ordinary) {s : String} :
    k.isIdentifier s = true ↔ k.isQualifiedIdentifier s = true ∧ '.' ∉ s.toList := by
  have hwhole (hdot : '.' ∉ s.toList) : k.isQualifiedIdentifier s = k.isIdentifier s := by
    rw [isQualifiedIdentifier, List.splitOn_eq_singleton hdot, List.all_cons, List.all_nil,
      Bool.and_true, isIdentifier]
  constructor
  · intro h
    have hdot := hk.dot_notMem h
    exact ⟨(hwhole hdot).trans h, hdot⟩
  · rintro ⟨h, hdot⟩
    exact (hwhole hdot).symm.trans h

/-! ## The classes of Unicode -/

/-- A character of a range of a table is in the table. -/
theorem inRanges_of_mem {ranges : List (Nat × Nat)} {low high : Nat} {c : Char}
    (h : (low, high) ∈ ranges) (hlow : low ≤ c.toNat) (hhigh : c.toNat ≤ high) :
    inRanges ranges c = true :=
  List.any_eq_true.mpr ⟨(low, high), h, by simp [hlow, hhigh]⟩

/-- The classes of Unicode are ordinary. -/
theorem unicode_ordinary : unicode.Ordinary where
  breakers := by
    have hall : ['.', ';', '[', '/', '<', '>'].all
        (fun c => !isXidStart c && !isXidContinue c) = true := by decide +kernel
    intro c hc
    simpa [unicode] using List.all_eq_true.mp hall c hc
  underscore := by decide +kernel
  letters := by
    intro c hc
    have hstart : isXidStart c = true := by
      rcases Bool.or_eq_true_iff.mp hc with hupper | hlower
      · obtain ⟨hlow, hhigh⟩ : 65 ≤ c.toNat ∧ c.toNat ≤ 90 := of_decide_eq_true hupper
        exact inRanges_of_mem (by decide +kernel) hlow hhigh
      · obtain ⟨hlow, hhigh⟩ := Bool.and_eq_true_iff.mp hlower
        have hlow : 97 ≤ c.toNat := of_decide_eq_true hlow
        have hhigh : c.toNat ≤ 122 := of_decide_eq_true hhigh
        exact inRanges_of_mem (by decide +kernel) hlow hhigh
    show isXidContinue c = true
    rw [isXidContinue, hstart, Bool.true_or]

end CharacterClasses

/-! ## The rules together -/

/-- **How the grammars of names fit together.**  For ordinary classes of characters:

* A qualified identifier is the join of some identifiers by dots, of at least one, and of no others.
* Two texts joined by a dot are a qualified identifier exactly if both are.
* An identifier is a qualified identifier without a dot.
* Every identifier is a member name, and a qualified identifier only if it is a single identifier.
* With the suffix of symbol names behind it an identifier stays an identifier, and a member name a
  member name. -/
theorem naming_rules {k : CharacterClasses} (hk : k.Ordinary) (s : String) :
    (k.isQualifiedIdentifier s = true ↔ ∃ ids, k.PathOf ids s) ∧
      (∀ ids ids', k.PathOf ids s → k.PathOf ids' s → ids = ids') ∧
      (∀ a b, k.isQualifiedIdentifier (a ++ "." ++ b) = true ↔
        k.isQualifiedIdentifier a = true ∧ k.isQualifiedIdentifier b = true) ∧
      (k.isIdentifier s = true ↔ k.isQualifiedIdentifier s = true ∧ '.' ∉ s.toList) ∧
      (k.isIdentifier s = true → isMemberName s = true) ∧
      (k.isQualifiedIdentifier s = true → isMemberName s = true → k.isIdentifier s = true) ∧
      (k.isIdentifier s = true → k.isIdentifier (s ++ "_field") = true) ∧
      (isMemberName s = true → isMemberName (s ++ "_field") = true) := by
  refine ⟨hk.isQualifiedIdentifier_iff, fun _ _ h h' => h.unique h' hk, fun a b => ?_,
    hk.isIdentifier_iff, hk.isMemberName_of_isIdentifier, fun hqualified hmember => ?_,
    hk.isIdentifier_append_symbolSuffix, isMemberName_append_symbolSuffix⟩
  · rw [k.isQualifiedIdentifier_append_dot, Bool.and_eq_true]
  · have hbreaks : '.' ∈ memberNameBreakers := by decide
    exact hk.isIdentifier_iff.mpr
      ⟨hqualified, fun hdot => (isMemberName_iff.mp hmember).2 '.' hdot hbreaks⟩

/-- By the classes of Unicode, a path of three identifiers is a qualified identifier of these alone,
and is no member name; a single one with a dollar sign is a member name and has a symbol name of the
same kind. -/
theorem paths_naming_rules :
    (isQualifiedIdentifier "java.util.List" = true ∧
        (∀ ids, CharacterClasses.unicode.PathOf ids "java.util.List" →
          ids = ["java", "util", "List"]) ∧
        isMemberName "java.util.List" = false) ∧
      isQualifiedIdentifier "outer$this" = true ∧ isMemberName "outer$this" = true ∧
      isIdentifier "outer$this_field" = true ∧ isMemberName "outer$this_field" = true := by
  have hpath : CharacterClasses.unicode.PathOf ["java", "util", "List"] "java.util.List" :=
    ⟨by decide, by decide +kernel, by decide⟩
  obtain ⟨hqualified, hunique, -, hidentifier, -, hsingle, -⟩ :=
    naming_rules CharacterClasses.unicode_ordinary "java.util.List"
  obtain ⟨-, -, -, hidentifier', hmember, -, hsuffix, hsuffix'⟩ :=
    naming_rules CharacterClasses.unicode_ordinary "outer$this"
  have hjava : isQualifiedIdentifier "java.util.List" = true := hqualified.mpr ⟨_, hpath⟩
  have hthis : isIdentifier "outer$this" = true := by decide +kernel
  refine ⟨⟨hjava, fun ids hids => hunique _ _ hids hpath, ?_⟩, (hidentifier'.mp hthis).1,
    hmember hthis, hsuffix hthis, hsuffix' (hmember hthis)⟩
  rw [← Bool.not_eq_true]
  exact fun hdots => (hidentifier.mp (hsingle hjava hdots)).2 (by decide)

end BackingFields.Text
