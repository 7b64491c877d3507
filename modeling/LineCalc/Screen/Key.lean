import LineCalc.Editor.Key
import LineCalc.Text.CharClass
/-!
# LineCalc — what a terminal sends

A terminal sends characters, and codes for the keys that are no characters. `toKey?` is the key of
either, if it has a meaning; one character and one code stand for the interruption that ends the
conversation.
-/

namespace LineCalc

/-- What a terminal sends; it may also be asked in vain. -/
inductive TerminalInput where
  | char (c : Char)
  | code (n : Int)
  | nothing
deriving DecidableEq

namespace TerminalInput

/-- The key of a code: a control character, a function key, or an ASCII character. -/
def keyOfCode? (n : Int) : Option Key :=
  match n with
  | 27 => some .escape
  | 10 => some .enter
  | 13 => some .enter
  | 343 => some .enter
  | 9 => some .tab
  | 353 => some .backTab
  | 263 => some .backspace
  | 127 => some .backspace
  | 8 => some .backspace
  | 260 => some .left
  | 261 => some .right
  | 259 => some .up
  | 258 => some .down
  | _ => if 32 ≤ n ∧ n ≤ 126 then some (.char (Char.ofNat n.toNat)) else none

/-- **The key that was sent**, if it means anything. -/
def toKey? : TerminalInput → Option Key
  | char c =>
    if Text.isPrintable c then some (.char c)
    else if 128 ≤ c.toNat then none
    else keyOfCode? c.toNat
  | code n => keyOfCode? n
  | nothing => none

/-- Whether the conversation is to end. -/
def isInterrupt : TerminalInput → Bool
  | char c => c == '\x03'
  | code n => n == 3
  | nothing => false

end TerminalInput

end LineCalc
