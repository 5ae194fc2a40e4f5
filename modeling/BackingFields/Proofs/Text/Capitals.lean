import BackingFields.Text.Capitals
import Mathlib

set_option relaxedAutoImplicit false
set_option autoImplicit false

/-!
# Which characters of a name become small

A name is decapitalized by counting its leading capitals.  Here the same is said of each position by
itself: what becomes of a character depends on the capitals up to it and on the character behind it
alone.

## Main definitions

* `BackingFields.Text.becomesSmall` — whether the character at a position becomes small.
* `BackingFields.Text.lowerCapitals` — the name with these characters small.

## Main results

* `BackingFields.Text.decapitalize_eq_lowerCapitals` — decapitalizing a name is this.
* `BackingFields.Text.isUpper_of_mem_head?_lowerCapitals` — the result begins with no capital.
* `BackingFields.Text.lowerCapitals_eq_self` — a name that begins with none stays as it is.
-/

namespace BackingFields.Text

/-! ## The rule for a position -/

/-- Whether the character at a position becomes small: it and all before it are capitals, and it is
the first one, the last of the name or followed by another capital. -/
def becomesSmall (cs : List Char) (i : Nat) : Bool :=
  (cs.take (i + 1)).all Char.isUpper &&
    (i == 0 || i + 1 == cs.length || (cs[i + 1]?).any Char.isUpper)

/-- A name with the characters small that become so by the rule for their positions. -/
def lowerCapitals (cs : List Char) : List Char :=
  cs.mapIdx fun i c => if becomesSmall cs i then c.toLower else c

/-! ## The rule and the count -/

/-- The characters up to a position satisfy a predicate exactly if the position lies in the first
run of such characters. -/
theorem all_take_iff {p : Char → Bool} {cs : List Char} {i : Nat} (hi : i < cs.length) :
    (cs.take (i + 1)).all p = true ↔ i < (cs.takeWhile p).length := by
  induction cs generalizing i with
  | nil => cases hi
  | cons c cs ih =>
    rw [List.take_succ_cons, List.all_cons, List.takeWhile_cons]
    cases hc : p c with
    | false => simp
    | true =>
      cases i with
      | zero => simp
      | succ i => simpa using ih (Nat.lt_of_succ_lt_succ hi)

/-- Behind capitals, the next character is a capital exactly if it lies in the same run. -/
theorem any_getElem?_iff {cs : List Char} {i : Nat}
    (hrun : i < (cs.takeWhile Char.isUpper).length) :
    (cs[i + 1]?).any Char.isUpper = true ↔ i + 1 < (cs.takeWhile Char.isUpper).length := by
  have hle : (cs.takeWhile Char.isUpper).length ≤ cs.length :=
    (List.takeWhile_prefix Char.isUpper).length_le
  rcases Nat.lt_or_ge (i + 1) cs.length with hi | hi
  · have hbefore := (all_take_iff (Nat.lt_of_lt_of_le hrun hle)).mpr hrun
    rw [← all_take_iff hi, List.take_add_one, List.all_append, hbefore, List.getElem?_eq_getElem hi]
    simp
  · rw [List.getElem?_eq_none hi]
    simp only [Option.any_none, Bool.false_eq_true, false_iff]
    omega

/-- The characters that become small are as many as `decapitalize` makes small.

**Proof sketch.** A position within the leading capitals is among those counted, unless it is the
last of several capitals and more text follows.  This one alone is neither the first nor the last
character of the name, nor has it a capital behind it. -/
theorem becomesSmall_iff {cs : List Char} {i : Nat} (hi : i < cs.length) :
    becomesSmall cs i = true ↔ i < capitalsToLower cs := by
  have hle : (cs.takeWhile Char.isUpper).length ≤ cs.length :=
    (List.takeWhile_prefix Char.isUpper).length_le
  have hcount : capitalsToLower cs ≤ (cs.takeWhile Char.isUpper).length := by
    unfold capitalsToLower
    dsimp only
    split <;> omega
  simp only [becomesSmall, Bool.and_eq_true, Bool.or_eq_true, beq_iff_eq]
  rw [all_take_iff hi]
  by_cases hrun : i < (cs.takeWhile Char.isUpper).length
  · rw [any_getElem?_iff hrun]
    unfold capitalsToLower
    dsimp only
    split <;> omega
  · omega

/-- What `decapitalize` puts at a position. -/
theorem getElem?_decapitalize {cs : List Char} {i : Nat} (hi : i < cs.length) :
    (decapitalize cs)[i]? = some (if i < capitalsToLower cs then cs[i].toLower else cs[i]) := by
  rw [decapitalize, List.getElem?_append, List.length_map, List.length_take]
  by_cases hsmall : i < capitalsToLower cs
  · have htaken : i < min (capitalsToLower cs) cs.length := by omega
    rw [if_pos htaken, if_pos hsmall, List.getElem?_map, List.getElem?_take_of_lt hsmall,
      List.getElem?_eq_getElem hi, Option.map_some]
  · have hkept : ¬ i < min (capitalsToLower cs) cs.length := by omega
    have hindex : capitalsToLower cs + (i - min (capitalsToLower cs) cs.length) = i := by omega
    rw [if_neg hkept, if_neg hsmall, List.getElem?_drop, hindex, List.getElem?_eq_getElem hi]

/-- Decapitalizing a name makes the characters small that become so by their positions. -/
theorem decapitalize_eq_lowerCapitals (cs : List Char) : decapitalize cs = lowerCapitals cs := by
  refine List.ext_getElem? fun i => ?_
  rw [lowerCapitals, List.getElem?_mapIdx]
  rcases Nat.lt_or_ge i cs.length with hi | hi
  · rw [getElem?_decapitalize hi, List.getElem?_eq_getElem hi, Option.map_some]
    simp only [becomesSmall_iff hi]
  · rw [List.getElem?_eq_none hi, List.getElem?_eq_none ((length_decapitalize cs).trans_le hi),
      Option.map_none]

/-! ## What follows -/

/-- No character is added or lost. -/
@[simp]
theorem length_lowerCapitals (cs : List Char) : (lowerCapitals cs).length = cs.length :=
  List.length_mapIdx

/-- The result begins with no capital. -/
theorem isUpper_of_mem_head?_lowerCapitals {cs : List Char} {c : Char}
    (hc : c ∈ (lowerCapitals cs).head?) : c.isUpper = false := by
  cases cs with
  | nil => cases hc
  | cons first rest =>
    have hfirst : becomesSmall (first :: rest) 0 = first.isUpper := by simp [becomesSmall]
    rw [lowerCapitals, List.mapIdx_cons, List.head?_cons, Option.mem_some_iff, hfirst] at hc
    cases hupper : first.isUpper with
    | true =>
      rw [hupper, if_pos rfl] at hc
      rw [← hc, Char.isUpper_toLower_eq_false]
    | false =>
      rw [hupper, if_neg Bool.false_ne_true] at hc
      rw [← hc, hupper]

/-- A name that begins with no capital stays as it is. -/
theorem lowerCapitals_eq_self {cs : List Char} (h : ∀ c ∈ cs.head?, c.isUpper = false) :
    lowerCapitals cs = cs := by
  cases cs with
  | nil => rfl
  | cons first rest =>
    have hstays (i : Nat) : becomesSmall (first :: rest) i = false := by
      simp [becomesSmall, h first rfl]
    refine List.ext_getElem? fun i => ?_
    rw [lowerCapitals, List.getElem?_mapIdx]
    simp [hstays]

/-- Making the capitals small once more changes nothing. -/
theorem lowerCapitals_lowerCapitals (cs : List Char) :
    lowerCapitals (lowerCapitals cs) = lowerCapitals cs :=
  lowerCapitals_eq_self fun _ => isUpper_of_mem_head?_lowerCapitals

end BackingFields.Text
