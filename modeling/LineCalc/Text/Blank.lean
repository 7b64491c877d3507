/-!
# LineCalc — blank characters

Two sets of blanks. `isBlank` is every white space and separator character; lines are trimmed of
it, and a line that holds nothing else is blank. `isNumericBlank` is what may stand around a
number that is read from text: the same set less the four ASCII information separators.
-/

namespace LineCalc

namespace Text

/-- White space: the ASCII controls that move the carriage or separate records, the space, and
the separators past ASCII. -/
def isBlank (c : Char) : Bool :=
  let n := c.toNat
  9 ≤ n && n ≤ 13 || 28 ≤ n && n ≤ 32 || n == 133 || n == 160 || n == 5760 ||
    8192 ≤ n && n ≤ 8202 || n == 8232 || n == 8233 || n == 8239 || n == 8287 || n == 12288

/-- White space that may surround a number. -/
def isNumericBlank (c : Char) : Bool :=
  isBlank c && !(28 ≤ c.toNat && c.toNat ≤ 31)

/-- `cs` without the characters of a class at either end. -/
def trimBy (p : Char → Bool) (cs : List Char) : List Char :=
  ((cs.dropWhile p).reverse.dropWhile p).reverse

/-- A text without the blanks at either end. -/
def trim (s : String) : String :=
  String.ofList (trimBy isBlank s.toList)

/-- Whether a text is made of blanks alone. -/
def isBlankText (s : String) : Bool :=
  s.toList.all isBlank

/-- **A text with a character that is no blank is not blank.** -/
theorem isBlankText_eq_false_iff {s : String} :
    isBlankText s = false ↔ ∃ c ∈ s.toList, isBlank c = false := by
  simp [isBlankText]

/-- The lower-case form of the ASCII letters of a text; commands and switches are words of these
letters alone. -/
def lower (s : String) : String :=
  s.map Char.toLower

end Text

end LineCalc
