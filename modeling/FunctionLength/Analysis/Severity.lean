namespace FunctionLength.Analysis

inductive Severity where
  | none
  | warning
  | error
  deriving DecidableEq, Repr

namespace Severity

def label : Severity → String
  | none => "none"
  | warning => "warning"
  | error => "error"

def code : Severity → Int64
  | none => 0
  | warning => 1
  | error => 2

def ofCode (n : Int64) : Severity := if n = 1 then warning else if n = 2 then error else none

/-- The severity of a number of lines. The warning limit itself is still fine, the error limit is not. -/
def ofLines (warningLimit errorLimit lines : Int64) : Severity :=
  if lines ≤ warningLimit then none else if errorLimit ≤ lines then error else warning

end Severity
end FunctionLength.Analysis
