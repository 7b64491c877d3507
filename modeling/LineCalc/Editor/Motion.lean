import LineCalc.Editor.Basic
import LineCalc.Text.CharClass
/-!
# LineCalc — where motions go

Words are runs of letters, numerals and low lines. `target` is where a motion puts the cursor, on a
character of the line; `span` is what an operator followed by the motion covers, from its start up
to but without its end. A word motion's span ends at the word boundary and not at the next word.
-/

namespace LineCalc

namespace Editor

/-- How many characters from the front are parts of words. -/
def wordRun (cs : List Char) : Nat :=
  (cs.takeWhile Text.isWordChar).length

/-- How many characters from the front are no parts of words. -/
def gapRun (cs : List Char) : Nat :=
  (cs.takeWhile (! Text.isWordChar ·)).length

/-- The position of the first word that starts behind `i`, or the length of the text. -/
def nextWord (cs : List Char) (i : Nat) : Nat :=
  let j := i + wordRun (cs.drop i)
  j + gapRun (cs.drop j)

/-- The start of the word that `j` is in: as many characters back as are parts of words. -/
def wordStart (cs : List Char) (j : Nat) : Nat :=
  j - wordRun (cs.take j).reverse

/-- The start of the last word that has a character before `i`. -/
def previousWord (cs : List Char) (i : Nat) : Nat :=
  wordStart cs (i - 1 - gapRun (cs.take i).reverse)

/-- **Where a motion puts the cursor.** -/
def target (e : Editor) (m : Motion) : Nat :=
  let last := e.text.length - 1
  let i := e.onChar
  match m with
  | .left => i - 1
  | .right => min (i + 1) last
  | .lineStart => 0
  | .lineEnd => last
  | .wordForward => min (nextWord e.text i) last
  | .wordBackward => previousWord e.text i

/-- Moves the cursor. -/
def move (e : Editor) (m : Motion) : Editor :=
  { e with cursor := (e.target m : Nat) }

/-- Behind the last character of the word at `i`, or of the next one if there is none at `i`. -/
def wordEnd (cs : List Char) (i : Nat) : Nat :=
  let j := i + gapRun (cs.drop i)
  j + wordRun (cs.drop j)

/-- The start of the last word that has a character at `i` or before. -/
def wordHere (cs : List Char) (i : Nat) : Nat :=
  wordStart cs (i - gapRun (cs.take (i + 1)).reverse)

/-- **What an operator with a motion covers**: from the first position up to the second one. -/
def span (e : Editor) (m : Motion) : Option (Nat × Nat) :=
  if e.text.length = 0 then none
  else
    let i := e.onChar
    match m with
    | .wordForward => some (i, min (max (wordEnd e.text i) (i + 1)) e.text.length)
    | .wordBackward => some (wordHere e.text i, i + 1)
    | _ =>
      let t := e.target m
      some (min i t, min (max i t + 1) e.text.length)

/-- The motion of a key. -/
def motionOfKey? : Key → Option Motion
  | .left => some .left
  | .char 'h' => some .left
  | .right => some .right
  | .char 'l' => some .right
  | .char '0' => some .lineStart
  | .char '$' => some .lineEnd
  | .char 'w' => some .wordForward
  | .char 'b' => some .wordBackward
  | _ => none

end Editor

end LineCalc
