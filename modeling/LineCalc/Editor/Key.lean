/-!
# LineCalc — keys

A key is one of nine named keys or a character. A name that no key has is kept as a key without a
meaning, so that a front end can pass on whatever it gets.
-/

namespace LineCalc

/-- A key. -/
inductive Key where
  | escape
  | enter
  | backspace
  | left
  | right
  | up
  | down
  | tab
  | backTab
  | char (c : Char)
  | unnamed
deriving DecidableEq

namespace Key

/-- The key of a name: a name in angle brackets, or a character for itself. -/
def ofName (s : String) : Key :=
  match s with
  | "<esc>" => escape
  | "<enter>" => enter
  | "<backspace>" => backspace
  | "<left>" => left
  | "<right>" => right
  | "<up>" => up
  | "<down>" => down
  | "<tab>" => tab
  | "<backtab>" => backTab
  | _ =>
    match s.toList with
    | [c] => char c
    | _ => unnamed

/-- The name of a key. -/
def name : Key → String
  | escape => "<esc>"
  | enter => "<enter>"
  | backspace => "<backspace>"
  | left => "<left>"
  | right => "<right>"
  | up => "<up>"
  | down => "<down>"
  | tab => "<tab>"
  | backTab => "<backtab>"
  | char c => String.singleton c
  | unnamed => ""

end Key

end LineCalc
