import LineCalc.Decimal.Numeral
/-!
# LineCalc — what can be wrong

Each error of a line is a cause, and its wording stands in one function. `ExprError` is about the
tokens of an expression, `AssignmentError` about the part before an equals sign, and `LineError` is
either, or the finding that a line has more free variables than one.

A `Fault` is what no part of the calculator recovers from: it ends the operation that met it, and the
program with it. A line that is wrong, or a state file that is missing or misshapen, is no fault.
-/

namespace LineCalc

/-- Why tokens are no expression. -/
inductive ExprError where
  | empty
  | unknownVariable (name : String)
  | unexpected (token : String)
  | unexpectedEnd
  | unmatchedParen
  | tooDeep (limit : Int)
deriving DecidableEq

namespace ExprError

/-- The wording of an error. -/
def message : ExprError → String
  | empty => "Empty expression"
  | unknownVariable name => "Unknown variable: " ++ name
  | unexpected token => "Unexpected token: " ++ token
  | unexpectedEnd => "Unexpected end of expression"
  | unmatchedParen => "Unmatched parenthesis"
  | tooDeep limit => "Expression nested too deeply (limit " ++ toString limit ++ ")"

end ExprError

/-- Why tokens are no assignment. -/
inductive AssignmentError where
  | missing
  | missingName
  | invalidTarget (target : String)
deriving DecidableEq

namespace AssignmentError

/-- The wording of an error. -/
def message : AssignmentError → String
  | missing => "No assignment found"
  | missingName => "Missing variable name before '='"
  | invalidTarget target => "Invalid assignment target: " ++ target

end AssignmentError

/-- Why a line has no value. -/
inductive LineError where
  | expr (e : ExprError)
  | assignment (e : AssignmentError)
  | unknownVariables (names : List String)
deriving DecidableEq

namespace LineError

/-- The wording of an error. -/
def message : LineError → String
  | expr e => e.message
  | assignment e => e.message
  | unknownVariables names => "Unknown variables: " ++ ", ".intercalate names

end LineError

/-- What ends an operation. -/
inductive Fault where
  /-- A count of digits that numbers cannot be shown with. -/
  | badPrecision
  /-- A result is to be shown, and there is none. -/
  | noResult
  /-- A plot is to be labelled, and there is no name. -/
  | noLabel
  /-- A plot is labelled with something other than text. -/
  | labelNotText
  /-- The state file is not encoded text. -/
  | notText
  /-- The state file holds an integer past the largest double. -/
  | numberTooLarge
  /-- The state file holds an integer of more digits than are read. -/
  | integerTooLong
  /-- A line is to be evaluated, and none is given. -/
  | noLine
  /-- The line format of the log is named where a level belongs. -/
  | formatAsLevel
  /-- The styles of the log are named where a level belongs. -/
  | stylesAsLevel
deriving DecidableEq

end LineCalc
