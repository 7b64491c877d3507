import LineCalc.SavedState
import LineCalc.Store.Path
/-!
# LineCalc — why state cannot be kept

A `StateError` says what could not be done, where, and for what cause. The wording is a heading
with the detail of the cause behind it.
-/

namespace LineCalc

/-- Why a file was not read or written. -/
inductive StoreCause where
  | notADirectory (path : Path)
  | isADirectory (path : Path)
  | fileExists (path : Path)
  /-- The file holds no JSON value. -/
  | notJson
  /-- The state holds a number that JSON has no form for. -/
  | notFinite
  /-- The state holds an integer of more digits than are written. -/
  | integerTooLong
deriving DecidableEq

namespace StoreCause

/-- An error of the system, with its number. -/
def system (number : String) (words : String) (path : Path) : String :=
  "[Errno " ++ number ++ "] " ++ words ++ ": " ++ Text.quoted path.text

/-- The wording of a cause. -/
def message : StoreCause → String
  | notADirectory path => system "20" "Not a directory" path
  | isADirectory path => system "21" "Is a directory" path
  | fileExists path => system "17" "File exists" path
  | notJson => "not a JSON value"
  | notFinite => "Out of range float values are not JSON compliant"
  | integerTooLong =>
    "Exceeds the limit (" ++ toString Numeral.maxDigits ++
      " digits) for integer string conversion; use sys.set_int_max_str_digits() to increase the limit"

/-- The cause that a number without a text is. -/
def ofFlaw : Json.Flaw → StoreCause
  | .notFinite => notFinite
  | .integerTooLong => integerTooLong

end StoreCause

/-- Why state cannot be kept. -/
inductive StateError where
  | noHome
  | noState (file : Path)
  | unreadable (file : Path) (cause : StoreCause)
  | notObject (file : Path)
  | malformed (defect : Defect)
  | uncreatable (directory : Path) (cause : StoreCause)
  | unwritable (file : Path) (cause : StoreCause)
  | unremovable (file : Path) (cause : StoreCause)
deriving DecidableEq

namespace StateError

/-- What could not be done, before the detail of a cause. -/
def heading : StateError → String
  | noHome => "HOME is not set; cannot locate the state directory"
  | noState file => "No saved state at " ++ file.text
  | unreadable file _ => "Could not read " ++ file.text ++ ": "
  | notObject file => "Malformed state in " ++ file.text
  | malformed _ => "Malformed state: "
  | uncreatable directory _ => "Could not create " ++ directory.text ++ ": "
  | unwritable file _ => "Could not write " ++ file.text ++ ": "
  | unremovable file _ => "Could not remove " ++ file.text ++ ": "

/-- The detail of a cause. -/
def detail : StateError → String
  | unreadable _ cause => cause.message
  | malformed defect => defect.message
  | uncreatable _ cause => cause.message
  | unwritable _ cause => cause.message
  | unremovable _ cause => cause.message
  | _ => ""

/-- The wording of an error. -/
def message (e : StateError) : String :=
  e.heading ++ e.detail

end StateError

end LineCalc
