import LineCalc.Editor.Key
/-!
# LineCalc — the line editor

One line is edited in three modes. In insert mode the cursor stands between characters, from before
the first to behind the last; in normal and visual mode it stands on a character. Visual mode
selects from an anchor to the cursor; a register holds what was last copied. Positions count
characters.

`Editor` is the whole state. Its operations stand in the modules beside this one: where motions go,
what edits do, and what each key does in each mode.
-/

namespace LineCalc

/-- What keys mean. -/
inductive Mode where
  | insert
  | normal
  | visual
deriving DecidableEq

/-- Ways to move the cursor. -/
inductive Motion where
  | left
  | right
  | lineStart
  | lineEnd
  | wordForward
  | wordBackward
deriving DecidableEq

/-- What a key asks of whoever owns the editor. -/
inductive Command where
  | none
  | submit
  /-- Leave the line for the lists. -/
  | exitInput
  | focusNext
  | focusPrevious
  /-- The characters from the first to the last position were copied. -/
  | yanked (first last : Nat)
deriving DecidableEq

/-- The state of the line editor. -/
structure Editor where
  text : List Char
  cursor : Int
  mode : Mode
  register : List Char
  /-- Where a visual selection began. -/
  anchor : Option Nat
  /-- The operator key that waits for a motion. -/
  pending : Option Char
deriving DecidableEq

namespace Editor

/-- A text to go on with: the cursor behind it, in insert mode. -/
def ofText (text : List Char) (register : List Char) : Editor :=
  ⟨text, text.length, .insert, register, none, none⟩

/-- An empty line. -/
def empty : Editor := ofText [] []

/-- The position of the cursor as a count of characters. -/
def position (e : Editor) : Nat :=
  e.cursor.toNat

/-- The position of the character under the cursor, the last one if the cursor is behind it. -/
def onChar (e : Editor) : Nat :=
  min e.position (e.text.length - 1)

/-- Replaces the line. The register survives. -/
def setText (e : Editor) (text : List Char) : Editor :=
  ofText text e.register

/-- Empties the line. The register survives. -/
def clear (e : Editor) : Editor :=
  e.setText []

/-- Brings the cursor back to a position that its mode allows. -/
def clamp (e : Editor) : Editor :=
  match e.mode with
  | .insert => { e with cursor := (min e.position e.text.length : Nat) }
  | _ => { e with cursor := (e.onChar : Nat) }

/-- First and last position of the selection. -/
def selection (e : Editor) : Option (Nat × Nat) :=
  match e.anchor with
  | none => none
  | some anchor =>
    if e.text.length = 0 then none
    else
      let a := min anchor (e.text.length - 1)
      let c := e.onChar
      if a ≤ c then some (a, c) else some (c, a)

end Editor

end LineCalc
