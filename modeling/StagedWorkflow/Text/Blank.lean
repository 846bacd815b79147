/-!
# Text — blank characters

White space in the sense of the Unicode property `White_Space`, and the
trimming that titles and ids go through: blanks at either end are dropped
and blanks inside are kept.
-/

namespace StagedWorkflow

namespace Text

/-- Whether a code point lies in one of the inclusive ranges. -/
def inRanges (ranges : List (Nat × Nat)) (code : Nat) : Bool :=
  ranges.any fun range => range.1 ≤ code && code ≤ range.2

/-- The code points with the Unicode property `White_Space`. -/
def blankRanges : List (Nat × Nat) :=
  [(0x0009, 0x000D), (0x0020, 0x0020), (0x0085, 0x0085), (0x00A0, 0x00A0), (0x1680, 0x1680),
    (0x2000, 0x200A), (0x2028, 0x2029), (0x202F, 0x202F), (0x205F, 0x205F), (0x3000, 0x3000)]

/-- Whether a character is white space. -/
def isBlank (c : Char) : Bool :=
  inRanges blankRanges c.toNat

/-- Drops the blanks at both ends of a list of characters. -/
def trimChars (chars : List Char) : List Char :=
  ((chars.dropWhile isBlank).reverse.dropWhile isBlank).reverse

/-- The text without the blanks at its ends. -/
def trim (text : String) : String :=
  String.ofList (trimChars text.toList)

/-- Whether a text has no blank at either end. -/
def isTight (text : String) : Bool :=
  text.toList.head?.all (!isBlank ·) && text.toList.getLast?.all (!isBlank ·)

/-- A text whose first and last characters are not blank stays as it is. -/
theorem trimChars_eq_self {chars : List Char} (first : chars.head?.all (!isBlank ·))
    (last : chars.getLast?.all (!isBlank ·)) : trimChars chars = chars := by
  have drop {cs : List Char} (h : cs.head?.all (!isBlank ·)) : cs.dropWhile isBlank = cs := by
    cases cs with
    | nil => rfl
    | cons c cs => simp_all
  rw [trimChars, drop first, drop (by simpa using last), List.reverse_reverse]

/-- What is left after dropping does not begin with a blank. -/
theorem head?_dropWhile_isBlank {chars : List Char} :
    (chars.dropWhile isBlank).head?.all (!isBlank ·) := by
  induction chars with
  | nil => rfl
  | cons c cs ih =>
    rw [List.dropWhile_cons]
    split
    · exact ih
    · next solid => simpa using solid

/-- **Trimmed characters have no blank at either end.** -/
theorem ends_trimChars {chars : List Char} :
    (trimChars chars).head?.all (!isBlank ·) ∧ (trimChars chars).getLast?.all (!isBlank ·) := by
  have first : (chars.dropWhile isBlank).head?.all (!isBlank ·) := head?_dropWhile_isBlank
  have last : (trimChars chars).getLast?.all (!isBlank ·) := by
    rw [trimChars, List.getLast?_reverse]
    exact head?_dropWhile_isBlank
  refine ⟨?_, last⟩
  -- what is dropped at the end leaves a part of the beginning
  have part : trimChars chars <+: chars.dropWhile isBlank := by
    rw [trimChars, ← List.reverse_suffix, List.reverse_reverse]
    exact List.dropWhile_suffix _
  obtain ⟨rest, whole⟩ := part
  cases trimmed : trimChars chars with
  | nil => rfl
  | cons c cs =>
    rw [trimmed] at whole
    rw [← whole] at first
    exact first

/-- **Trimming leaves a text alone exactly if there is nothing to trim.** -/
theorem trim_eq_self_iff {text : String} : trim text = text ↔ isTight text := by
  rw [isTight, Bool.and_eq_true]
  constructor
  · intro same
    have chars : trimChars text.toList = text.toList := by
      rw [← String.toList_ofList (l := trimChars text.toList)]
      exact congrArg String.toList same
    rw [← chars]
    exact ends_trimChars
  · rintro ⟨first, last⟩
    rw [trim, trimChars_eq_self first last, String.ofList_toList]

end Text

end StagedWorkflow
