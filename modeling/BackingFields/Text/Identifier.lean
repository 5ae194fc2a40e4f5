import BackingFields.Text.IdentifierContinue
import BackingFields.Text.IdentifierStart

set_option relaxedAutoImplicit false
set_option autoImplicit false

/-!
# Identifiers and member names

Three grammars for the names that a class declaration brings: single identifiers in source code,
dot-separated paths of them, and the laxer member names of compiled classes.  The first two are
built from two classes of characters; declarations use those of Unicode.

## Main definitions

* `BackingFields.Text.CharacterClasses` — the characters that begin an identifier and those that
  continue one, with the two grammars built from them.
* `BackingFields.Text.CharacterClasses.unicode` — the classes of Unicode.
* `BackingFields.Text.isIdentifier` — `count`, `_x`, `größe`, `this$0`.
* `BackingFields.Text.isQualifiedIdentifier` — `java.util.ArrayList`.
* `BackingFields.Text.isMemberName` — `$VALUES`, `my field`: what a compiled class may list.
-/

namespace BackingFields.Text

/-! ## Character classes -/

/-- The characters that begin an identifier, and those that continue one. -/
structure CharacterClasses where
  /-- Whether a character begins an identifier. -/
  isStart : Char → Bool
  /-- Whether a character continues an identifier. -/
  isContinue : Char → Bool

namespace CharacterClasses

/-- An identifier begins with a starting character or an underscore and goes on with continuing
characters and dollar signs. -/
def isIdentifierChars (k : CharacterClasses) : List Char → Bool
  | [] => false
  | first :: rest =>
    (first == '_' || k.isStart first) && rest.all fun c => c == '$' || k.isContinue c

/-- Whether a text is a single identifier. -/
def isIdentifier (k : CharacterClasses) (s : String) : Bool := k.isIdentifierChars s.toList

/-- Whether a text is a path of identifiers separated by dots; the empty text is one empty piece
and therefore none. -/
def isQualifiedIdentifier (k : CharacterClasses) (s : String) : Bool :=
  (s.toList.splitOn '.').all k.isIdentifierChars

/-- The empty text is no identifier. -/
@[simp]
theorem isIdentifier_empty (k : CharacterClasses) : k.isIdentifier "" = false := rfl

/-- The empty text is no path of identifiers. -/
@[simp]
theorem isQualifiedIdentifier_empty (k : CharacterClasses) : k.isQualifiedIdentifier "" = false :=
  rfl

end CharacterClasses

/-! ## The classes of Unicode -/

/-- Whether the code point of a character lies in one of the inclusive ranges. -/
def inRanges (ranges : List (Nat × Nat)) (c : Char) : Bool :=
  ranges.any fun (low, high) => low ≤ c.toNat && c.toNat ≤ high

/-- The Unicode property `XID_Start`. -/
def isXidStart (c : Char) : Bool := inRanges identifierStartRanges c

/-- The Unicode property `XID_Continue`. -/
def isXidContinue (c : Char) : Bool := isXidStart c || inRanges identifierContinueRanges c

/-- The character classes that Unicode gives for identifiers. -/
def CharacterClasses.unicode : CharacterClasses := ⟨isXidStart, isXidContinue⟩

/-! ## The grammars of names -/

/-- Whether a text is a single identifier. -/
def isIdentifier (s : String) : Bool := CharacterClasses.unicode.isIdentifier s

/-- Whether a text is a path of identifiers separated by dots. -/
def isQualifiedIdentifier (s : String) : Bool := CharacterClasses.unicode.isQualifiedIdentifier s

/-- The characters that a compiled class may not use in a field or method name. -/
def memberNameBreakers : List Char := ['.', ';', '[', '/', '<', '>']

/-- Whether a text may name a field or method of a compiled class. -/
def isMemberName (s : String) : Bool :=
  !s.toList.isEmpty && s.toList.all fun c => !memberNameBreakers.contains c

end BackingFields.Text
