import LineCalc.Desk
import LineCalc.Report
import LineCalc.Screen.Key
/-!
# LineCalc — the screen

A session is drawn as a frame: a list of texts, each at a cell and in a style, and the place of the
cursor if the line has the focus. Line and mode are above; below them the history stands on the
left half, the newest entry first, and variables and samples on the right half. A text that would
start outside the screen is left out, and every other one is cut before the last column.

A `Surface` takes down whatever it is sent. A `Terminal` is drawn on in the same way, and refuses a null
character in a text and a cursor outside the screen, by which a conversation on it is broken off. Each
character fills one cell on both. What a terminal makes of wide characters, of tabs and of halves of
pairs is left open, and so is one that cannot show a cursor.
-/

namespace LineCalc

/-- How a text is set off. -/
inductive Style where
  | plain
  | bold
  | reverse
  | underline
deriving DecidableEq

/-- A text on the screen, from a cell on. -/
structure Write where
  row : Nat
  column : Nat
  text : List Char
  style : Style
deriving DecidableEq

/-- A drawn session. There is a cursor while the line has the focus. -/
structure Frame where
  writes : List Write
  cursor : Option (Nat × Nat)
deriving DecidableEq

/-- A screen: its size, and the rows that take no text. -/
structure Surface where
  height : Nat
  width : Nat
  badRows : List Nat
deriving DecidableEq

namespace Surface

/-- A text put on the screen, if its cell is there: cut before the last column. -/
def put (s : Surface) (row column : Nat) (text : List Char) (style : Style) : List Write :=
  if s.height ≤ row ∨ s.width ≤ column ∨ row ∈ s.badRows then []
  else [⟨row, column, text.take (s.width - column - 1), style⟩]

/-- The column that the right half starts at. -/
def half (s : Surface) : Nat :=
  s.width / 2

end Surface

namespace Screen

/-- The name of a mode on the screen. -/
def modeLabel : Mode → String
  | .insert => "-- INSERT --"
  | .normal => "-- NORMAL --"
  | .visual => "-- VISUAL --"

/-- A style that is used where something holds. -/
def styleIf (b : Bool) (style : Style) : Style :=
  if b then style else .plain

/-- The top of the screen: what keys do, the mode, the line, and over it the selection. -/
def drawLine (surface : Surface) (s : Session) : List Write :=
  let caret := if s.focus = .input then "> " else "< "
  surface.put 0 0 "Enter to calculate, Esc for normal mode, Ctrl+C to quit".toList .plain ++
    surface.put 1 0 (modeLabel s.editor.mode).toList .bold ++
    surface.put 2 0 (caret.toList ++ s.editor.text) .plain ++
    match s.editor.selection with
    | none => []
    | some (first, last) =>
      surface.put 2 (2 + first) ((s.editor.text.take (last + 1)).drop first) .reverse

/-- The headings of the two halves. -/
def drawHeadings (surface : Surface) (s : Session) : List Write :=
  surface.put 4 0 "History".toList (styleIf (s.focus = .history) .underline) ++
    surface.put 4 surface.half "Variables".toList (styleIf (s.focus = .definitions) .underline)

/-- The history, as many entries as have a row. -/
def drawHistory (precision : Int) (surface : Surface) (s : Session) :
    Except Fault (List Write) := do
  let rows ← (s.newestFirst.take (surface.height - 6)).zipIdx.mapM fun (e, i) => do
    let text := (← Report.entry precision e).toList.take (surface.half - 1)
    let selected := s.focus = .history ∧ s.historySelected = some i
    return surface.put (5 + i) 0 text (styleIf selected .reverse)
  return rows.flatten

/-- The variables by name. -/
def drawVariables (precision : Int) (surface : Surface) (s : Session) :
    Except Fault (List Write) := do
  let rows ← s.environment.sortedNames.zipIdx.mapM fun (name, i) => do
    let text ← match s.environment.value? name with
      | some x => Report.definition precision name x
      | none => .error .noResult
    let selected := s.focus = .definitions ∧ s.definitionSelected = some i
    return surface.put (5 + i) surface.half text.toList (styleIf selected .reverse)
  return rows.flatten

/-- The samples below the variables, as many as have a row. -/
def drawSamples (precision : Int) (surface : Surface) (s : Session) :
    Except Fault (List Write) := do
  let samples := s.plot.getD []
  if samples.isEmpty then return []
  else
    let top := 5 + s.environment.size + 1
    let rows ← (samples.take (surface.height - top - 2)).zipIdx.mapM fun (p, i) => do
      let x ← Report.number precision p.1
      let y ← Report.number precision p.2
      return surface.put (top + 1 + i) surface.half ("(" ++ x ++ ", " ++ y ++ ")").toList .plain
    return surface.put top surface.half "Samples".toList .underline ++ rows.flatten

/-- The place of the cursor: on the line, at most at the last column. -/
def cursorCell (surface : Surface) (s : Session) : Option (Nat × Nat) :=
  if s.focus = .input then some (2, min (2 + s.editor.position) (surface.width - 1)) else none

/-- **A session drawn on a screen.** -/
def draw (precision : Int) (surface : Surface) (s : Session) : Except Fault Frame := do
  let history ← drawHistory precision surface s
  let definitions ← drawVariables precision surface s
  let samples ← drawSamples precision surface s
  return ⟨drawLine surface s ++ drawHeadings surface s ++ history ++ definitions ++ samples,
    cursorCell surface s⟩

/-- The desk after something was sent. -/
def react (d : Desk) (input : TerminalInput) : Desk :=
  match input.toKey? with
  | some key => (d.press key).1
  | none => d

/-- A whole conversation over what is sent, with the frames that were drawn: one before each input is
asked for. It ends with an interruption, at the latest behind the last input, and is broken off where a
session cannot be drawn. -/
def talk {ε : Type} (draw : Session → Except ε Frame) (d : Desk) :
    List TerminalInput → Except ε (List Frame × Desk)
  | [] => do return ([← draw d.session], d)
  | input :: rest => do
    let frame ← draw d.session
    if input.isInterrupt then return ([frame], d)
    else
      let (frames, d) ← talk draw (react d input) rest
      return (frame :: frames, d)

/-- **A conversation on a screen** that takes down whatever it is sent. -/
def converse (precision : Int) (surface : Surface) (d : Desk) (inputs : List TerminalInput) :
    Except Fault (List Frame × Desk) :=
  talk (draw precision surface) d inputs

/-- What is sent up to the first input that is broken off at a save, for want of room to write the state
in, and whether there is one. What comes behind an interruption is left out as well. -/
def inputsWithin (room : Nat) (d : Desk) : List TerminalInput → List TerminalInput × Bool
  | [] => ([], false)
  | input :: rest =>
    if input.isInterrupt then ([input], false)
    else if input.toKey?.any fun key => d.exhausts room (.key key) then ([], true)
    else
      let (inputs, exhausted) := inputsWithin room (react d input) rest
      (input :: inputs, exhausted)

end Screen

/-! ## Terminals -/

/-- What a terminal does not take. -/
inductive Refusal where
  /-- A null character in a text. -/
  | nullCharacter
  /-- A cursor outside the screen. -/
  | cursorOutside
deriving DecidableEq

/-- Why a conversation on a terminal is broken off. -/
inductive Breakdown where
  | fault (f : Fault)
  | refusal (r : Refusal)
deriving DecidableEq

/-- A terminal of a size. -/
structure Terminal where
  height : Nat
  width : Nat

namespace Terminal

/-- Its screen. -/
def surface (t : Terminal) : Surface :=
  ⟨t.height, t.width, []⟩

/-- Whether a cell is on the screen. -/
def hasCell (t : Terminal) (cell : Nat × Nat) : Bool :=
  cell.1 < t.height && cell.2 < t.width

/-- What it does not take of a frame. The texts are sent before the cursor is moved. -/
def refusal? (t : Terminal) (frame : Frame) : Option Refusal :=
  if frame.writes.any fun w => '\x00' ∈ w.text then some .nullCharacter
  else if frame.cursor.any fun cell => !t.hasCell cell then some .cursorOutside
  else none

/-- A session drawn on it, as far as it takes that. -/
def draw (precision : Int) (t : Terminal) (s : Session) : Except Breakdown Frame :=
  match Screen.draw precision t.surface s with
  | .error fault => .error (.fault fault)
  | .ok frame =>
    match t.refusal? frame with
    | some r => .error (.refusal r)
    | none => .ok frame

/-- **A conversation on a terminal.** -/
def converse (precision : Int) (t : Terminal) (d : Desk) (inputs : List TerminalInput) :
    Except Breakdown (List Frame × Desk) :=
  Screen.talk (t.draw precision) d inputs

end Terminal

end LineCalc
