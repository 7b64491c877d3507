import LineCalc.Editor.Motion
/-!
# LineCalc — edits

The changes that keys make: of mode, of the text at the cursor, of the selection, and of the
register. Each is a function on `Editor`; the keys are put to them in the module on modes.
-/

namespace LineCalc

namespace Editor

/-! ## Modes -/

/-- To insert mode, the cursor where it is. -/
def toInsert (e : Editor) : Editor :=
  { e with
    mode := .insert
    cursor := (min e.position e.text.length : Nat)
    anchor := none
    pending := none }

/-- Where the cursor stands in normal mode. From insert mode it steps back onto the character
before it. -/
def normalPosition (e : Editor) : Nat :=
  if e.mode = .insert then min (e.position - 1) (e.text.length - 1) else e.onChar

/-- To normal mode. -/
def toNormal (e : Editor) : Editor :=
  { e with
    mode := .normal
    cursor := (e.normalPosition : Nat)
    anchor := none
    pending := none }

/-- To visual mode, with the selection on one character. An empty line has nothing to select, and
stays in its mode. -/
def toVisual (e : Editor) : Editor :=
  if e.text.length = 0 then { e with cursor := 0, anchor := none, pending := none }
  else
    { e with
      mode := .visual
      cursor := (e.onChar : Nat)
      anchor := some e.onChar
      pending := none }

/-! ## Typing -/

/-- Puts characters in at the cursor. -/
def enter (e : Editor) (cs : List Char) : Editor :=
  let i := min e.position e.text.length
  { e with text := e.text.take i ++ cs ++ e.text.drop i, cursor := (i : Int) + 1 }

/-- Takes the character before the cursor out. -/
def backspace (e : Editor) : Editor :=
  if e.cursor = 0 then e
  else
    let i := min e.position e.text.length
    { e with text := e.text.take (i - 1) ++ e.text.drop i, cursor := (i : Int) - 1 }

/-- One character to the left. -/
def stepLeft (e : Editor) : Editor :=
  { e with cursor := (e.position - 1 : Nat) }

/-- One character to the right. -/
def stepRight (e : Editor) : Editor :=
  { e with cursor := (min (e.position + 1) e.text.length : Nat) }

/-! ## Cutting and copying -/

/-- Takes the character under the cursor out. -/
def deleteChar (e : Editor) : Editor :=
  if e.text.length ≤ e.position then e
  else clamp { e with text := e.text.take e.position ++ e.text.drop (e.position + 1) }

/-- Copies the selection. -/
def yankSelection (e : Editor) : Editor :=
  match e.selection with
  | none => e
  | some (first, last) => { e with register := (e.text.take (last + 1)).drop first }

/-- Takes the selection out. -/
def deleteSelection (e : Editor) : Editor :=
  match e.selection with
  | none => e
  | some (first, last) =>
    let text := e.text.take first ++ e.text.drop (last + 1)
    { e with text := text, cursor := (min first (text.length - 1) : Nat) }

/-- Copies the line. -/
def yankLine (e : Editor) : Editor :=
  { e with register := e.text }

/-- Copies what a motion covers; on an empty line that is nothing. -/
def yankMotion (e : Editor) (m : Motion) : Editor :=
  match e.span m with
  | none => { e with register := [] }
  | some (first, stop) => { e with register := (e.text.take stop).drop first }

/-! ## Pasting -/

/-- Puts the register in at a position. The cursor lands on its last character. -/
def pasteAt (e : Editor) (i : Nat) : Editor :=
  clamp { e with
    text := e.text.take i ++ e.register ++ e.text.drop i
    cursor := (i : Int) + e.register.length - 1 }

/-- Puts the register in behind the character under the cursor. -/
def pasteAfter (e : Editor) : Editor :=
  if e.register = [] then e else e.pasteAt (min (e.position + 1) e.text.length)

/-- Puts the register in before the character under the cursor. -/
def pasteBefore (e : Editor) : Editor :=
  if e.register = [] then e else e.pasteAt (min e.position e.text.length)

end Editor

end LineCalc
