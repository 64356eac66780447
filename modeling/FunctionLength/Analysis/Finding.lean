import FunctionLength.Analysis.Severity

namespace FunctionLength.Analysis

inductive Kind where
  | function
  | method
  | other (label : String)
  deriving DecidableEq, Repr

def Kind.label : Kind → String
  | function => "function"
  | method => "method"
  | other label => label

structure Finding where
  file : String
  name : String
  kind : Kind
  severity : Severity
  lines : Int64
  first : Int64
  last : Int64
  deriving DecidableEq, Repr

def Finding.text (f : Finding) : String :=
  "(" ++ f.severity.label ++ ") The " ++ f.kind.label ++ " '" ++ f.name ++ "' in file '" ++ f.file ++
    "' has " ++ toString f.lines ++ " lines."

end FunctionLength.Analysis
