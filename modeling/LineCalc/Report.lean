import LineCalc.Environment
import LineCalc.Error
import LineCalc.SavedState
import LineCalc.Json.Display
/-!
# LineCalc — what is shown

Numbers are shown as integers where they are integers below `10 ^ 16`, and else with a set count of
digits, the zeros at the end left off. Entries of the history, variables and tables of samples are
lines made with such numbers. A count of digits below zero, or past what fits 31 bits, shows no
number that needs digits.

Samples are made into an image by a `Plot.Renderer`, which is not part of this library and need not be
there; `Plot.render` is what is done around it.
-/

namespace LineCalc

namespace Report

/-- The largest count of digits. -/
def maxPrecision : Int := 2147483647

/-- No double has more digits than this. -/
def mostDigits : Nat := 800

/-- The number `m * 2 ^ q` if it is an integer below `10 ^ 16`. -/
def smallInteger? (m : Nat) (q : Int) : Option Nat :=
  if Decimal.below m q 16 ∧ m * Power.two q.toNat % Power.two (-q).toNat = 0 then
    some (m * Power.two q.toNat / Power.two (-q).toNat)
  else none

/-- The layout of numbers shown with `count` digits: an exponent from `10 ^ count` on. -/
def layout (count : Nat) : Layout := ⟨count, []⟩

/-- **A number as it is shown**, with at most `precision` digits. -/
def number (precision : Int) (x : Float) : Except Fault String :=
  match Double.ofFloat x with
  | .nan => .ok "NaN"
  | .infinite negative => .ok (if negative then "-inf" else "inf")
  | .finite negative m q =>
    match smallInteger? m q with
    | some n => .ok (String.ofList (Layout.sign (negative && n != 0) ++ Layout.digits n))
    | none =>
      if precision < 0 ∨ maxPrecision < precision then .error .badPrecision
      else
        let count := max precision.toNat 1
        let d := Decimal.rounded (min count mostDigits) m q
        .ok (String.ofList ((layout count).render negative d))

/-- A number that has to be there. -/
def result (precision : Int) : Option Float → Except Fault String
  | some x => number precision x
  | none => .error .noResult

/-- A name and its value. -/
def definition (precision : Int) (name : String) (x : Float) : Except Fault String := do
  return name ++ " = " ++ (← number precision x)

/-- An entry of the history. -/
def entry (precision : Int) (e : HistoryEntry) : Except Fault String :=
  match e.error, e.plotName with
  | some error, _ => .ok ("'" ++ e.expression ++ "' resulted in error: " ++ error.display)
  | none, some name => .ok (e.expression ++ " plotted over " ++ name.display)
  | none, none => do return e.expression ++ " = " ++ (← result precision e.result)

/-- A text on the right of a field of `width` characters. -/
def padLeft (width : Nat) (s : String) : String :=
  String.ofList (List.replicate (width - s.length) ' ') ++ s

/-- A row of a table. -/
def row (width : Nat) (left right : String) : String :=
  padLeft width left ++ " | " ++ right

/-- The line under the heading of a table. -/
def ruler (width : Nat) : String :=
  String.ofList (List.replicate (width + 1) '-' ++ '+' :: List.replicate 12 '-')

/-- Samples as a table under a name. The left column is as wide as its widest text. -/
def table (precision : Int) (name : String) (samples : List (Float × Float)) :
    Except Fault String :=
  if samples.isEmpty then .ok "(no samples)"
  else do
    let left ← samples.mapM fun s => number precision s.1
    let right ← samples.mapM fun s => number precision s.2
    let width := left.foldl (fun w s => max w s.length) name.length
    let rows := List.zipWith (row width) left right
    return "\n".intercalate (row width name "y" :: ruler width :: rows)

/-- Samples as a table under a label from a saved state, which need not be text. -/
def labelledTable (precision : Int) (label : Json) (samples : List (Float × Float)) :
    Except Fault String :=
  match label with
  | .string name => table precision name samples
  | _ =>
    if samples.isEmpty then table precision "" samples
    else do
      let _ ← table precision "" samples
      .error .labelNotText

end Report

/-! ## Images -/

namespace Plot

/-- What puts an image of samples under a label in a file, or says why that cannot be done. What it
draws is left open. -/
abbrev Renderer := String → Json → List (Float × Float) → Except String Unit

/-- Why there is no image. -/
inductive ImageError where
  | noRenderer
  | noSamples
  | unsaved (file reason : String)
deriving DecidableEq

/-- The wording of an error. -/
def ImageError.message : ImageError → String
  | noRenderer => "Plotting requires matplotlib. Install with: pip install matplotlib"
  | noSamples => "Nothing to plot"
  | unsaved file reason => "Could not save plot to " ++ file ++ ": " ++ reason

/-- **Makes an image**, if there is something to make it with and of. -/
def render (renderer : Option Renderer) (file : String) (label : Json)
    (samples : List (Float × Float)) : Except ImageError Unit :=
  match renderer with
  | none => .error .noRenderer
  | some renderer =>
    if samples.isEmpty then .error .noSamples
    else (renderer file label samples).mapError (.unsaved file)

end Plot

end LineCalc
