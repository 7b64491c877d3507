import LineCalc.Editor.Edit
import LineCalc.Text.CharClass
/-!
# LineCalc — what keys do in each mode

Each mode has one function from a key to the editor after it and a command for its owner; `press`
goes by the mode. In normal mode `y` waits for a second key, which is a motion or `y` again for the
whole line; any other key lets go of it.
-/

namespace LineCalc

namespace Editor

/-- In insert mode what can be shown is typed. -/
def pressInsert (e : Editor) : Key → Editor × Command
  | .escape => (e.toNormal, .none)
  | .enter => (e, .submit)
  | .backspace => (e.backspace, .none)
  | .left => (e.stepLeft, .none)
  | .right => (e.stepRight, .none)
  | .char c => (if Text.isPrintable c then e.enter [c] else e, .none)
  | _ => (e, .none)

/-- The second key of an operator. -/
def pressPending (e : Editor) (operator : Char) (key : Key) : Editor × Command :=
  let e := { e with pending := none }
  if operator ≠ 'y' then (e, .none)
  else if key = .char 'y' then
    if e.text.length = 0 then (e, .none) else (e.yankLine, .yanked 0 (e.text.length - 1))
  else
    match motionOfKey? key with
    | none => (e, .none)
    | some m =>
      match e.span m with
      | none => (e.yankMotion m, .none)
      | some (first, stop) => (e.yankMotion m, .yanked first (stop - 1))

/-- A motion key moves; any other key is let pass. -/
def pressMotion (e : Editor) (key : Key) : Editor × Command :=
  match motionOfKey? key with
  | some m => (e.move m, .none)
  | none => (e, .none)

/-- A first key in normal mode. -/
def pressFirst (e : Editor) : Key → Editor × Command
  | .escape => (e, .exitInput)
  | .enter => (e, .submit)
  | .tab => (e, .focusNext)
  | .backTab => (e, .focusPrevious)
  | .char 'i' => (e.toInsert, .none)
  | .char 'a' =>
    (toInsert { e with cursor := (min (e.position + 1) e.text.length : Nat) }, .none)
  | .char 'I' => (toInsert { e with cursor := 0 }, .none)
  | .char 'A' => (toInsert { e with cursor := e.text.length }, .none)
  | .char 'v' => (e.toVisual, .none)
  | .char 'x' => (e.deleteChar, .none)
  | .char 'p' => (e.pasteAfter, .none)
  | .char 'P' => (e.pasteBefore, .none)
  | .char 'y' => ({ e with pending := some 'y' }, .none)
  | key => e.pressMotion key

/-- In normal mode a key is a command, or completes one. -/
def pressNormal (e : Editor) (key : Key) : Editor × Command :=
  match e.pending with
  | some operator => e.pressPending operator key
  | none => e.pressFirst key

/-- In visual mode motions move one end of the selection. -/
def pressVisual (e : Editor) : Key → Editor × Command
  | .escape => (e.toNormal, .none)
  | .char 'v' => (e.toNormal, .none)
  | .enter => (e, .submit)
  | .char 'y' =>
    (e.yankSelection.toNormal,
      match e.selection with
      | none => .none
      | some (first, last) => .yanked first last)
  | .char 'd' => (e.deleteSelection.toNormal, .none)
  | .char 'x' => (e.deleteSelection.toNormal, .none)
  | key => e.pressMotion key

/-- **What a key does**, by the mode. -/
def press (e : Editor) (key : Key) : Editor × Command :=
  match e.mode with
  | .insert => e.pressInsert key
  | .normal => e.pressNormal key
  | .visual => e.pressVisual key

end Editor

end LineCalc
