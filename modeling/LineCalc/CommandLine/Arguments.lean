import LineCalc.Decimal.Numeral
/-!
# LineCalc — arguments

The arguments of a command line are options, the texts that belong to options, and words. A long
name may be cut short as long as it stays the start of one name only, and may carry its text behind
an equals sign; short options can be run together, the last one with its text attached, and the
first one may have an equals sign behind it. A negative number is a word, and so is everything
behind two dashes. Two dashes that are attached to an option stand for no text.

`Arguments.read` takes a command line apart into items, in order, up to the first thing in it that
cannot be understood.
-/

namespace LineCalc

/-- An option: the names it goes by, and whether a text belongs to it. -/
structure Switch (α : Type) where
  id : α
  names : List String
  takesText : Bool

namespace Arguments

variable {α : Type}

/-! ## Single arguments -/

/-- What is attached to the name of an option. -/
inductive Attached where
  | nothing
  /-- The text of a long name, behind an equals sign. -/
  | text (cs : List Char)
  /-- What follows a short name: its text, or further options. -/
  | tail (cs : List Char)

/-- What an argument is by its form. -/
inductive Form (α : Type) where
  | word
  /-- Two dashes, behind which everything is a word. -/
  | mark
  | switch (s : Switch α) (attached : Attached)
  /-- The form of an option, and the name of none. -/
  | stranger
  /-- The start of more than one name. -/
  | ambiguous

/-- The option of a name. -/
def named? (switches : List (Switch α)) (name : List Char) : Option (Switch α) :=
  switches.find? fun s => s.names.any (·.toList == name)

/-- For each name with the start given, its option. -/
def startingWith (switches : List (Switch α)) (start : List Char) : List (Switch α) :=
  switches.flatMap fun s => (s.names.filter fun n => start.isPrefixOf n.toList).map fun _ => s

/-- What stands before and behind the first equals sign of an argument, if there is one. -/
def splitEquals (cs : List Char) : List Char × Option (List Char) :=
  match cs.dropWhile (· ≠ '=') with
  | [] => (cs, none)
  | _ :: text => (cs.takeWhile (· ≠ '='), some text)

/-- Whether a name is a long one. -/
def isLong (name : List Char) : Bool :=
  ['-', '-'].isPrefixOf name

/-- What a name has attached, if `text` stands behind an equals sign after it. -/
def attachedTo (name : List Char) : (text : Option (List Char)) → Attached
  | none => .nothing
  | some text => if isLong name then .text text else .tail text

/-- The options that an argument can stand for without being the name of one: a long name that is
cut short, or a short option with something attached. -/
def candidates (switches : List (Switch α)) (cs : List Char) : List (Form α) :=
  match cs with
  | '-' :: '-' :: _ =>
    let (name, text) := splitEquals cs
    (startingWith switches name).map fun s => .switch s (attachedTo name text)
  | '-' :: c :: text =>
    match named? switches ['-', c] with
    | some s => [.switch s (.tail text)]
    | none => []
  | _ => []

/-- Whether an argument is a minus sign and a number. A number does not end with a point here. -/
def isNegativeNumber : List Char → Bool
  | '-' :: cs =>
    let tail := cs.dropWhile (· ≠ '.')
    (Literal.read? cs).isSome && tail ≠ ['.'] && tail ≠ ['.', '\n']
  | _ => false

/-- The form of an argument that is not two dashes. -/
def form (switches : List (Switch α)) (arg : String) : Form α :=
  let cs := arg.toList
  if cs.head? ≠ some '-' ∨ cs.length = 1 then .word
  else
    let (name, text) := splitEquals cs
    match named? switches name with
    | some s => .switch s (attachedTo name text)
    | none =>
      match candidates switches cs with
      | [] => if isNegativeNumber cs || ' ' ∈ cs then .word else .stranger
      | [f] => f
      | _ => .ambiguous

/-- The forms of all arguments. -/
def forms (switches : List (Switch α)) : List String → List (String × Form α)
  | [] => []
  | arg :: rest =>
    if arg = "--" then (arg, .mark) :: rest.map fun a => (a, .word)
    else (arg, form switches arg) :: forms switches rest

/-! ## Options in one argument -/

/-- How an argument ends behind the plain options in it. -/
inductive Ending (α : Type) where
  | plain
  | text (id : α) (text : List Char)
  /-- An option whose text has to follow as an argument. -/
  | waiting (id : α)
  | refused

/-- An option with nothing attached. -/
def expandBare (s : Switch α) : List α × Ending α :=
  if s.takesText then ([], .waiting s.id) else ([s.id], .plain)

/-- The options in a short name and its tail. An option that takes a text takes all the rest; behind
any other the next character has to name an option. -/
def expandTail (switches : List (Switch α)) (s : Switch α) : List Char → List α × Ending α
  | [] => ([], if s.takesText then .text s.id [] else .refused)
  | c :: cs =>
    if s.takesText then ([], .text s.id (c :: cs))
    else
      match named? switches ['-', c] with
      | none => ([], .refused)
      | some next =>
        let (ids, ending) := if cs.isEmpty then expandBare next else expandTail switches next cs
        (s.id :: ids, ending)

/-- The options that an argument holds: `s`, with what is attached to it. -/
def expand (switches : List (Switch α)) (s : Switch α) : Attached → List α × Ending α
  | .nothing => expandBare s
  | .text cs => ([], if s.takesText then .text s.id cs else .refused)
  | .tail cs => expandTail switches s cs

/-- The text that an option is given by what is attached to it. -/
def textOf? (cs : List Char) : Option String :=
  if cs = ['-', '-'] then none else some (String.ofList cs)

/-! ## The whole line -/

/-- A part of a command line. -/
inductive Item (α : Type) where
  | switch (id : α)
  /-- An option that takes a text, and its text unless it was left out. -/
  | text (id : α) (text : Option String)
  /-- A word, and all arguments behind it. -/
  | word (text : String) (behind : List String)
  | stranger
  | refused

/-- The items of arguments whose forms are known. What is refused is the last. -/
def items (switches : List (Switch α)) : List (String × Form α) → List (Item α)
  | [] => []
  | (arg, form) :: rest =>
    match form with
    | .word => .word arg (rest.map (·.1)) :: items switches rest
    | .mark => .word arg (rest.map (·.1)) :: items switches rest
    | .stranger => .stranger :: items switches rest
    | .ambiguous => [.refused]
    | .switch s attached =>
      let (ids, ending) := expand switches s attached
      match ending with
      | .plain => ids.map .switch ++ items switches rest
      | .text id text => ids.map .switch ++ .text id (textOf? text) :: items switches rest
      | .waiting id =>
        match rest with
        | (text, .word) :: rest => ids.map .switch ++ .text id (some text) :: items switches rest
        | _ => [.refused]
      | .refused => [.refused]

/-- Whether an argument is the start of more than one name. -/
def isAmbiguous : String × Form α → Bool
  | (_, .ambiguous) => true
  | _ => false

/-- **The items of a command line.** One ambiguous argument spoils all. -/
def read (switches : List (Switch α)) (arguments : List String) : List (Item α) :=
  let fs := forms switches arguments
  if fs.any isAmbiguous then [.refused] else items switches fs

end Arguments

end LineCalc
