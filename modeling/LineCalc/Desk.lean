import LineCalc.Session
import LineCalc.Store.Basic
/-!
# LineCalc — a session and its store

A `Desk` is a session with the store it is saved in and the limits it reckons within. A line is
submitted here: it is evaluated, what came of it is recorded, and, if the desk saves by itself, the
state is written. A state that cannot be written is no reason to stop, and changes nothing in the
session.

`Action` is everything that a front end can ask of a desk. `act` does it with as much room as it takes
to write the state; `actWithin` does it with so much room, and may be broken off.
-/

namespace LineCalc

/-- What lines are reckoned within: how many parentheses may be open, and over which points an
expression with a free variable is plotted. -/
structure Limits where
  depth : Int
  domain : List Float

/-- A session, where it is saved, and whether it is saved after each line. -/
structure Desk where
  session : Session
  store : Store
  autosave : Bool
  limits : Limits

namespace Desk

/-- Changes the session alone. -/
def update (d : Desk) (f : Session → Session) : Desk :=
  { d with session := f d.session }

/-- Writes the state. -/
def save (d : Desk) : Desk :=
  { d with store := (d.store.write d.session.toState).2 }

/-- What comes of a line here. -/
def evaluate (d : Desk) (line : String) : Outcome Float :=
  Outcome.ofLine d.limits.depth d.session.environment d.limits.domain line

/-- **Submits the line in the editor.** A blank line is left as it is. -/
def submit (d : Desk) : Desk × Option (Outcome Float) :=
  let line := d.session.line
  if Text.isBlankText line then (d, none)
  else
    let outcome := d.evaluate line
    let d := d.update fun s => (s.record line outcome).refresh
    (if d.autosave then d.save else d, some outcome)

/-- Puts a line in the editor and submits it. -/
def submitLine (d : Desk) (line : String) : Desk × Option (Outcome Float) :=
  (d.update (·.setLine line)).submit

/-- What a command of the editor asks for. -/
def obey (d : Desk) (key : Key) : Command → Desk
  | .none => if key = .up then d.update (·.recallLast.1) else d
  | .submit => d.submit.1
  | .exitInput => d.update (·.focusOn .history)
  | .focusNext => d.update (·.cycle 1)
  | .focusPrevious => d.update (·.cycle (-1))
  | .yanked first last => d.update fun s => { s with lastYank := some (first, last) }

/-- **What a key does.** It goes to the editor or to the list that has the focus. -/
def press (d : Desk) (key : Key) : Desk × Command :=
  match d.session.focus with
  | .input =>
    let (editor, command) := d.session.editor.press key
    ((d.update fun s => { s with editor := editor }).obey key command, command)
  | _ => (d.update (·.pressInList key), .none)

end Desk

/-- What a front end can ask of a desk. -/
inductive Action where
  | key (k : Key)
  | line (text : String)
  | setLine (text : String)
  | focus (f : Focus)
  | cycle (steps : Int)
  | move (rows : Int)
  | submit
  | clear
  | save
  | recallLast
  | recallSelected

/-- What a desk gives back. -/
inductive Reply where
  | nothing
  | command (c : Command)
  | outcome (o : Option (Outcome Float))
  | found (b : Bool)

namespace Desk

/-- **Does what a front end asks.** -/
def act (d : Desk) : Action → Desk × Reply
  | .key k => let (d, c) := d.press k; (d, .command c)
  | .line text => let (d, o) := d.submitLine text; (d, .outcome o)
  | .setLine text => (d.update (·.setLine text), .nothing)
  | .focus f => (d.update (·.focusOn f), .nothing)
  | .cycle steps => (d.update (·.cycle steps), .nothing)
  | .move rows => (d.update (·.moveSelection rows), .nothing)
  | .submit => let (d, o) := d.submit; (d, .outcome o)
  | .clear => (d.update (·.clear), .nothing)
  | .save => (d.save, .nothing)
  | .recallLast =>
    let (s, b) := d.session.recallLast
    ({ d with session := s }, .found b)
  | .recallSelected =>
    let (s, b) := d.session.recallSelected
    ({ d with session := s }, .found b)

/-! ## Too little room -/

/-- Whether a line comes to a save when it is submitted. -/
def lineSaves (d : Desk) (line : String) : Bool :=
  d.autosave && !Text.isBlankText line

/-- Whether a key comes to a save. -/
def keySaves (d : Desk) (key : Key) : Bool :=
  d.session.focus = .input && (d.session.editor.press key).2 = .submit && d.lineSaves d.session.line

/-- **Whether an action comes to a save.** The save is the last thing that it does. -/
def saves (d : Desk) : Action → Bool
  | .key k => d.keySaves k
  | .line text => d.lineSaves text
  | .submit => d.lineSaves d.session.line
  | .save => true
  | _ => false

/-- Whether an action is broken off at its save, for want of room to write the state in. -/
def exhausts (room : Nat) (d : Desk) (a : Action) : Bool :=
  d.saves a && d.store.exhausts room (d.act a).1.session.toState

/-- **Does what a front end asks, with so much room.** An action that is broken off has changed the
session by then, leaves the store alone and gives nothing back. -/
def actWithin (room : Nat) (d : Desk) (a : Action) : Desk × Option Reply :=
  let (d', reply) := d.act a
  if d.exhausts room a then ({ d' with store := d.store }, none) else (d', some reply)

end Desk

end LineCalc
