set_option relaxedAutoImplicit false
set_option autoImplicit false

/-!
# The capitals at the start of a name

An accessor `getCount` stands for a property `count`, `getURL` for `url` and `getURLPath` for
`urlPath`: the leading capitals become small, but the last of several stays when it begins the
next word.

## Main definitions

* `BackingFields.Text.decapitalize` — the property name inside an accessor name.
* `BackingFields.Text.beginsWord` — whether what follows `get` or `is` is a word of its own.

## Design notes

Only ASCII letters have case here, as in compiled accessor names; any other letter stays as it is
and ends a run of capitals.
-/

namespace BackingFields.Text

/-- Whether a text begins a word: it is not empty and its first character is no small ASCII
letter, so `Count` and `1st` do, but `ter` in `getter` does not. -/
def beginsWord : List Char → Bool
  | [] => false
  | c :: _ => !c.isLower

/-- How many characters `decapitalize` makes small: the leading capitals, less the last of several
when more text follows them. -/
def capitalsToLower (cs : List Char) : Nat :=
  let run := (cs.takeWhile Char.isUpper).length
  if 1 < run ∧ run < cs.length then run - 1 else run

/-- Makes the leading capitals of a name small. -/
def decapitalize (cs : List Char) : List Char :=
  (cs.take (capitalsToLower cs)).map Char.toLower ++ cs.drop (capitalsToLower cs)

example : decapitalize "URLPath".toList = "urlPath".toList := by decide

example : decapitalize "URL".toList = "url".toList := by decide

example : decapitalize "Été".toList = "Été".toList := by decide

/-- No character is added or lost. -/
@[simp]
theorem length_decapitalize (cs : List Char) : (decapitalize cs).length = cs.length := by
  simp only [decapitalize, List.length_append, List.length_map, List.length_take,
    List.length_drop]
  omega

end BackingFields.Text
