import BackingFields.Proofs.Text.Capitals
import BackingFields.Property.Exposure

set_option relaxedAutoImplicit false
set_option autoImplicit false

/-!
# The property that an accessor stands for

An accessor is recognized by its name, its parameters and its return type, and stands for its whole
name or for a word of it.  Here this is said by the texts of the names, and the property of a getter
is compared with its word position by position.

## Main definitions

* `BackingFields.Text.IsWord` — what may follow the prefix of an accessor name.
* `BackingFields.Method.StandsFor` — the property that a name and a return type stand for.

## Main results

* `BackingFields.Method.accessor_property` — the property that a method stands for, and how that of
  a getter is related to its word.
-/

namespace BackingFields

/-! ## Names and words -/

namespace Text

/-- A text is a word of its own behind a prefix: it is not empty and begins with no small ASCII
letter. -/
def IsWord (word : String) : Prop :=
  ∃ first rest, word.toList = first :: rest ∧ first.isLower = false

/-- A text begins a word exactly if it is one. -/
theorem beginsWord_iff {word : String} : beginsWord word.toList = true ↔ IsWord word := by
  unfold IsWord
  cases word.toList <;> simp [beginsWord]

/-- A text whose characters begin with a prefix is the prefix with the rest behind it. -/
theorem eq_append_ofList {s pre : String} {cs : List Char} (h : s.toList = pre.toList ++ cs) :
    s = pre ++ String.ofList cs := by
  rw [← String.toList_inj, h, String.toList_append, String.toList_ofList]

end Text

/-- A type of compiled metadata is the given primitive one. -/
@[simp]
theorem BinaryType.isPrimitive_iff {p : Primitive} {b : BinaryType} :
    b.isPrimitive p = true ↔ b = .primitive p := by
  cases b with
  | primitive q =>
    rw [isPrimitive, beq_iff_eq, primitive.injEq]
    exact eq_comm
  | _ => simp [isPrimitive]

/-! ## Accessors -/

namespace Method

variable {m : Method}

/-- The property that the name and the return type of a method stand for. -/
inductive StandsFor (m : Method) (p : String) : Prop where
  /-- A test, whose whole name is the property. -/
  | test {word : String} (name_eq : m.name = "is" ++ word) (isWord : Text.IsWord word)
      (returns_eq : m.returns = .primitive .boolean) (property_eq : p = m.name)
  /-- A getter, whose word is the property, with its capitals small. -/
  | getter {word : String} (name_eq : m.name = "get" ++ word) (isWord : Text.IsWord word)
      (returns_ne : m.returns ≠ .primitive .void)
      (property_eq : p = String.ofList (Text.lowerCapitals word.toList))

/-- Every property of a method is that of its name and its return type. -/
theorem standsFor_of_propertyName? {p : String} (h : m.propertyName? = some p) :
    (m.isStatic = false ∧ m.paramCount = 0) ∧ m.StandsFor p := by
  unfold propertyName? at h
  split at h
  · cases h
  · next hinstance =>
    refine ⟨by simpa using hinstance, ?_⟩
    split at h
    · next cs hname =>
      split at h
      · next haccessor =>
        have hword : m.name = "is" ++ String.ofList cs := Text.eq_append_ofList hname
        rw [Bool.and_eq_true, BinaryType.isPrimitive_iff, ← String.toList_ofList (l := cs),
          Text.beginsWord_iff] at haccessor
        exact .test hword haccessor.1 haccessor.2 (Option.some_inj.mp h).symm
      · cases h
    · next cs hname =>
      split at h
      · next haccessor =>
        have hword : m.name = "get" ++ String.ofList cs := Text.eq_append_ofList hname
        rw [Bool.and_eq_true, Bool.not_eq_true', ← Bool.not_eq_true,
          BinaryType.isPrimitive_iff, ← String.toList_ofList (l := cs),
          Text.beginsWord_iff] at haccessor
        refine .getter hword haccessor.1 haccessor.2 ?_
        rw [String.toList_ofList, ← Text.decapitalize_eq_lowerCapitals, Option.some_inj.mp h]
      · cases h
    · cases h

/-- An instance method without parameters has the property of its name and its return type. -/
theorem propertyName?_of_standsFor {p : String} (hstatic : m.isStatic = false)
    (hparams : m.paramCount = 0) (h : m.StandsFor p) : m.propertyName? = some p := by
  cases h with
  | @test word name_eq isWord returns_eq property_eq =>
    have hchars : m.name.toList = 'i' :: 's' :: word.toList := by
      rw [name_eq, String.toList_append]
      rfl
    rw [propertyName?, hchars, property_eq]
    simp [hstatic, hparams, BinaryType.isPrimitive_iff.mpr returns_eq,
      Text.beginsWord_iff.mpr isWord]
  | @getter word name_eq isWord returns_ne property_eq =>
    have hchars : m.name.toList = 'g' :: 'e' :: 't' :: word.toList := by
      rw [name_eq, String.toList_append]
      rfl
    have hvalue : m.returns.isPrimitive .void = false := by
      rw [← Bool.not_eq_true, BinaryType.isPrimitive_iff]
      exact returns_ne
    rw [propertyName?, hchars, property_eq]
    simp [hstatic, hparams, hvalue, Text.beginsWord_iff.mpr isWord,
      Text.decapitalize_eq_lowerCapitals]

/-- The property of a getter is its word with the capitals small. -/
theorem property_eq_of_getter {word p : String} (hname : m.name = "get" ++ word)
    (h : m.StandsFor p) :
    Text.IsWord word ∧ p = String.ofList (Text.lowerCapitals word.toList) := by
  cases h with
  | test name_eq =>
    rw [hname] at name_eq
    have hchars := congrArg String.toList name_eq
    rw [String.toList_append, String.toList_append] at hchars
    cases hchars
  | getter name_eq isWord _ property_eq =>
    obtain rfl := (String.append_right_inj "get").mp (hname.symm.trans name_eq)
    exact ⟨isWord, property_eq⟩

/-- **The property of an accessor.**  A method stands for a property exactly if it is an instance
method without parameters and

* its name is `is` and a word, and it returns exactly a boolean: then the property is the whole
  name;
* or its name is `get` and a word, and it returns anything but nothing: then the property is the
  word, in which a character is small exactly if it and all before it are capitals and it is the
  first one, the last or followed by another capital.

The property of a getter is not empty, has as many characters as the word, begins with no capital,
is the word if this begins with no capital, and is not changed by making its capitals small once
more. -/
theorem accessor_property (m : Method) :
    (∀ p, m.propertyName? = some p ↔ (m.isStatic = false ∧ m.paramCount = 0) ∧ m.StandsFor p) ∧
      ∀ word p, m.name = "get" ++ word → m.propertyName? = some p →
        p ≠ "" ∧ p.length = word.length ∧ (∀ c ∈ p.toList.head?, c.isUpper = false) ∧
          ((∀ c ∈ word.toList.head?, c.isUpper = false) → p = word) ∧
          Text.lowerCapitals p.toList = p.toList := by
  refine ⟨fun p => ⟨standsFor_of_propertyName?, fun ⟨⟨hstatic, hparams⟩, h⟩ =>
    propertyName?_of_standsFor hstatic hparams h⟩, fun word p hname hp => ?_⟩
  obtain ⟨⟨first, rest, hcons, -⟩, hproperty⟩ :=
    property_eq_of_getter hname (standsFor_of_propertyName? hp).2
  have hchars : p.toList = Text.lowerCapitals word.toList := by
    rw [hproperty, String.toList_ofList]
  have hlength : p.length = word.length := by
    rw [← String.length_toList, hchars, Text.length_lowerCapitals, String.length_toList]
  refine ⟨?_, hlength, ?_, ?_, ?_⟩
  · rintro rfl
    rw [← String.length_toList (s := word), hcons] at hlength
    cases hlength
  · rw [hchars]
    exact fun c => Text.isUpper_of_mem_head?_lowerCapitals
  · intro hsmall
    rw [hproperty, Text.lowerCapitals_eq_self hsmall, String.ofList_toList]
  · rw [hchars, Text.lowerCapitals_lowerCapitals]

/-- A getter of `URLPath` stands for `urlPath`, whose capital stays when the capitals are made small
again, a getter of `1st` for `1st`, and a test of `Empty` for its whole name. -/
theorem getters_accessor_property :
    let path : Method := ⟨"getURLPath", .primitive .int, 0, false⟩
    let first : Method := ⟨"get1st", .ofClass "Any" [], 0, false⟩
    let empty : Method := ⟨"isEmpty", .primitive .boolean, 0, false⟩
    (path.propertyName? = some "urlPath" ∧
        Text.lowerCapitals "urlPath".toList = "urlPath".toList) ∧
      first.propertyName? = some "1st" ∧ empty.propertyName? = some "isEmpty" := by
  intro path first empty
  obtain ⟨hpath, hpathWord⟩ := accessor_property path
  obtain ⟨hfirst, hfirstWord⟩ := accessor_property first
  obtain ⟨hempty, -⟩ := accessor_property empty
  have hurl : path.propertyName? = some "urlPath" := by
    have hname : path.name = "get" ++ "URLPath" := rfl
    exact (hpath _).mpr ⟨⟨rfl, rfl⟩, .getter hname ⟨'U', _, rfl, rfl⟩ nofun (by decide +kernel)⟩
  have hone : first.propertyName? = some "1st" := by
    have hname : first.name = "get" ++ "1st" := rfl
    have hdigit : ∀ c ∈ "1st".toList.head?, c.isUpper = false := by
      rintro c ⟨⟩
      rfl
    have hsome := (hfirst _).mpr ⟨⟨rfl, rfl⟩, .getter hname ⟨'1', _, rfl, rfl⟩ nofun rfl⟩
    exact hsome.trans (congrArg some ((hfirstWord _ _ hname hsome).2.2.2.1 hdigit))
  have htest : empty.propertyName? = some "isEmpty" := by
    have hname : empty.name = "is" ++ "Empty" := rfl
    exact (hempty _).mpr ⟨⟨rfl, rfl⟩, .test hname ⟨'E', _, rfl, rfl⟩ rfl rfl⟩
  exact ⟨⟨hurl, (hpathWord "URLPath" _ rfl hurl).2.2.2.2⟩, hone, htest⟩

end Method

end BackingFields
