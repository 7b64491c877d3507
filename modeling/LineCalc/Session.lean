import LineCalc.Editor.Modes
import LineCalc.Outcome
import LineCalc.SavedState
import LineCalc.Text.Blank
/-!
# LineCalc — a session

A session is an editor, the variables, the history and the samples of the last plot. Its focus is
on the line or on one of two lists, the history with the newest entry first, and the variables by
name; each list remembers which of its rows is selected.

The functions here change a session in memory. Where it is kept, and what is saved when, is the
matter of the `Desk` it stands on.
-/

namespace LineCalc

/-- What the keys go to. -/
inductive Focus where
  | input
  | history
  | definitions
deriving DecidableEq

namespace Focus

/-- The focus with a number, counted round. -/
def ofIndex (i : Int) : Focus :=
  match i % 3 with
  | 1 => history
  | 2 => definitions
  | _ => input

/-- The number of a focus. -/
def index : Focus → Int
  | input => 0
  | history => 1
  | definitions => 2

end Focus

/-- A session in memory. The newest entry of the history is the last. -/
structure Session where
  editor : Editor
  environment : Environment Float
  history : List HistoryEntry
  plot : Option (List (Float × Float))
  focus : Focus
  historySelected : Option Nat
  definitionSelected : Option Nat
  /-- First and last position of what was copied last. -/
  lastYank : Option (Nat × Nat)

namespace Session

/-- A session that goes on from a saved state. -/
def ofState (s : SavedState) : Session :=
  ⟨Editor.empty, s.environment, s.history, s.plot, .input, none, none, none⟩

/-- What there is to save of a session. -/
def toState (s : Session) : SavedState :=
  ⟨s.history, s.environment, s.plot⟩

/-! ## Focus and selections -/

/-- A selection in a list that gets the focus: the one it had, else the first row. -/
def select (selected : Option Nat) (length : Nat) : Option Nat :=
  match selected with
  | some i => some i
  | none => if length = 0 then none else some 0

/-- Turns the focus. -/
def focusOn (s : Session) (f : Focus) : Session :=
  match f with
  | .input => { s with focus := .input }
  | .history =>
    { s with focus := .history, historySelected := select s.historySelected s.history.length }
  | .definitions =>
    { s with
      focus := .definitions
      definitionSelected := select s.definitionSelected s.environment.size }

/-- Turns the focus by so many places. -/
def cycle (s : Session) (steps : Int) : Session :=
  s.focusOn (Focus.ofIndex (s.focus.index + steps))

/-- A selection moved by so many rows, kept inside its list. -/
def moved (selected : Option Nat) (length : Nat) (rows : Int) : Option Nat :=
  if length = 0 then none
  else
    match selected with
    | none => some 0
    | some i => some (min (max ((i : Int) + rows) 0) ((length : Int) - 1)).toNat

/-- Moves the selection of the list that has the focus. -/
def moveSelection (s : Session) (rows : Int) : Session :=
  match s.focus with
  | .input => s
  | .history => { s with historySelected := moved s.historySelected s.history.length rows }
  | .definitions =>
    { s with definitionSelected := moved s.definitionSelected s.environment.size rows }

/-- The history with the newest entry first, as its list shows it. -/
def newestFirst (s : Session) : List HistoryEntry :=
  s.history.reverse

/-- The line that the selected row stands for. -/
def selectedLine? (s : Session) : Option String :=
  match s.focus with
  | .input => none
  | .history => do
    let e ← s.newestFirst[(← s.historySelected)]?
    return e.expression
  | .definitions => do
    let name ← s.environment.sortedNames[(← s.definitionSelected)]?
    return (← s.environment.find? name).expression

/-- Replaces the line in the editor. -/
def setLine (s : Session) (line : String) : Session :=
  { s with editor := s.editor.setText line.toList }

/-- Fetches the line of the selected row into the editor, and tells whether there was one. -/
def recallSelected (s : Session) : Session × Bool :=
  match s.selectedLine? with
  | none => (s, false)
  | some line => ((s.setLine line).focusOn .input, true)

/-- Fetches the line submitted last into the editor, and tells whether there was one. -/
def recallLast (s : Session) : Session × Bool :=
  match s.history.getLast? with
  | none => (s, false)
  | some e => (s.setLine e.expression, true)

/-- What a key does in a list. -/
def pressInList (s : Session) : Key → Session
  | .char 'j' => s.moveSelection 1
  | .down => s.moveSelection 1
  | .char 'k' => s.moveSelection (-1)
  | .up => s.moveSelection (-1)
  | .enter => s.recallSelected.1
  | .char 'i' => s.focusOn .input
  | .escape => s.focusOn .input
  | .tab => s.cycle 1
  | .backTab => s.cycle (-1)
  | .left => s.focusOn .history
  | .right => s.focusOn .definitions
  | _ => s

/-! ## What comes of lines -/

/-- The line in the editor. -/
def line (s : Session) : String :=
  String.ofList s.editor.text

/-- **Records what came of a line.** An assignment goes to the variables, and everything else to
the history. -/
def record (s : Session) (line : String) : Outcome Float → Session
  | .value v => { s with history := s.history ++ [HistoryEntry.ofResult line v] }
  | .assigned name v => { s with environment := s.environment.set name ⟨line, v⟩ }
  | .plotted name samples =>
    { s with
      history := s.history ++ [HistoryEntry.ofPlot line name]
      plot := some samples }
  | .failed error _ =>
    { s with history := s.history ++ [HistoryEntry.ofError line error.message] }

/-- An empty line with the focus on it. -/
def refresh (s : Session) : Session :=
  { s with editor := s.editor.clear }.focusOn .input

/-- Forgets the history, the variables and the samples. -/
def clear (s : Session) : Session :=
  { s with
    history := []
    environment := Environment.empty
    plot := none
    historySelected := none
    definitionSelected := none }

end Session

end LineCalc
