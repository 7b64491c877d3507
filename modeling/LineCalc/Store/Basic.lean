import LineCalc.Error
import LineCalc.Json.Reader
import LineCalc.Json.Writer
import LineCalc.Store.Error
import LineCalc.Text.Utf8
/-!
# LineCalc — the store

State is kept in one file of one directory. A `Store` is the condition of that place: no home to
look in, a file where the directory should be, or a directory in which the state file is missing,
is a directory, or holds bytes. `read`, `write` and `reset` work on it; `load` is how a session
starts, with nothing saved where nothing usable is there.
-/

namespace LineCalc

/-- What stands in the place of the state file. -/
inductive Slot where
  | missing
  | directory
  | file (bytes : List UInt8)
deriving DecidableEq

/-- The condition of the place that state is kept in. -/
inductive Store where
  /-- There is no home directory, and none is set. -/
  | homeless
  /-- A file stands where the directory should be. -/
  | blocked (directory : Path)
  /-- The directory is there, or can be made. -/
  | folder (directory : Path) (slot : Slot)
deriving DecidableEq

namespace Store

/-- The state file. -/
def file? : Store → Option Path
  | homeless => none
  | blocked directory => some directory.stateFile
  | folder directory _ => some directory.stateFile

/-- Why reading came to nothing: something to go on from, or a fault. -/
inductive Failure where
  | state (e : StateError)
  | fault (f : Fault)
deriving DecidableEq

/-- The state that a JSON value holds. -/
def ofJson (file : Path) : Json → Except Failure SavedState
  | .object members =>
    match SavedState.ofMembers members with
    | .ok s => .ok s
    | .error .numberTooLarge => .error (.fault .numberTooLarge)
    | .error defect => .error (.state (.malformed defect))
  | _ => .error (.state (.notObject file))

/-- The state that bytes hold. -/
def ofBytes (file : Path) (bytes : List UInt8) : Except Failure SavedState :=
  match Utf8.decode bytes with
  | none => .error (.fault .notText)
  | some cs =>
    match Json.read cs with
    | .ok v => ofJson file v
    | .error .malformed => .error (.state (.unreadable file .notJson))
    | .error .integerTooLong => .error (.fault .integerTooLong)

/-- **Reads the saved state.** -/
def read : Store → Except Failure SavedState
  | homeless => .error (.state .noHome)
  | blocked directory =>
    let file := directory.stateFile
    .error (.state (.unreadable file (.notADirectory file)))
  | folder directory slot =>
    let file := directory.stateFile
    match slot with
    | .missing => .error (.state (.noState file))
    | .directory => .error (.state (.unreadable file (.isADirectory file)))
    | .file bytes => ofBytes file bytes

/-- **The state to start with**: the saved one, or nothing saved. -/
def load (s : Store) : Except Fault SavedState :=
  match s.read with
  | .ok state => .ok state
  | .error (.state _) => .ok SavedState.empty
  | .error (.fault f) => .error f

/-- **Writes the state**, and tells the file. The text is made before the file is touched, so a
state that cannot be written leaves what was there. There is room for whatever the state holds; for
what becomes of one with more levels than that see `exhausts`. -/
def write (s : Store) (state : SavedState) : Except StateError Path × Store :=
  match s with
  | homeless => (.error .noHome, s)
  | blocked directory => (.error (.uncreatable directory (.fileExists directory)), s)
  | folder directory slot =>
    let file := directory.stateFile
    let v := state.toJson
    match v.flaw? with
    | some flaw => (.error (.unwritable file (.ofFlaw flaw)), s)
    | none =>
      match slot with
      | .directory => (.error (.unwritable file (.isADirectory file)), s)
      | _ => (.ok file, folder directory (.file (Utf8.encode v.text)))

/-- Whether there is too little room to write the state. It comes to that only where there is a directory
to write it in. Nothing is written then, and no `StateError` tells it: all that was going on is broken
off. -/
def exhausts (room : Nat) (s : Store) (state : SavedState) : Bool :=
  match s with
  | folder _ _ => state.toJson.exhausts room
  | _ => false

/-- **Removes the state file**, if there is one, and tells where it was. -/
def reset (s : Store) : Except StateError Path × Store :=
  match s with
  | homeless => (.error .noHome, s)
  | blocked directory =>
    let file := directory.stateFile
    (.error (.unremovable file (.notADirectory file)), s)
  | folder directory .directory =>
    let file := directory.stateFile
    (.error (.unremovable file (.isADirectory file)), s)
  | folder directory _ => (.ok directory.stateFile, folder directory .missing)

/-- The bytes of the state file. -/
def bytes? : Store → Option (List UInt8)
  | folder _ (.file bytes) => some bytes
  | _ => none

end Store

end LineCalc
