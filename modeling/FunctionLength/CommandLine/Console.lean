import FunctionLength.CommandLine.Flag
import FunctionLength.Log
import FunctionLength.Text.Fold

namespace FunctionLength.Log

def Level.rank : Level → Int
  | debug => 0
  | info => 1
  | warn => 2

def Level.tag : Level → String
  | debug => "DBG"
  | info => "INF"
  | warn => "WRN"

end FunctionLength.Log

namespace FunctionLength.CommandLine
open FunctionLength.Text FunctionLength.Log

/-- The names of levels. Records have only some of them; the empty name and the last one let none pass. -/
def levelNames : List (String × Int) :=
  [("trace", -1), ("debug", 0), ("info", 1), ("warn", 2), ("error", 3), ("fatal", 4), ("panic", 5),
    ("disabled", 7), ("", 6)]

/-- The rank that a level means: by name, where case does not matter, or as a number of eight bits. -/
def rankOf (level : String) : Except UsageError Int :=
  match levelNames.find? (equalFolded ·.1 level) with
  | some (_, rank) => .ok rank
  | none =>
    match Integer.readDecimal level with
    | .error _ => .error (.unknownLevel level)
    | .ok n => if n < -128 || 127 < n then .error (.levelOutOfBounds level n) else .ok n.toInt

def atLeast (rank : Int) (log : List Record) : List Record := log.filter (rank ≤ ·.level.rank)

def isPlain (s : String) : Bool := s.toList.all fun c => '!' ≤ c && c ≤ '~' && c ≠ '\\' && c ≠ '"'

def fieldText : Field → String
  | .text s => if isPlain s then s else quoted s
  | .number n => toString n
  | .flag b => toString b

/-- The fields of a record in the order of the console: an error comes first, the others by name. -/
def orderedFields (fields : List (String × Field)) : List (String × Field) :=
  fields.filter (·.1 = "error") ++
    (fields.filter (·.1 ≠ "error")).mergeSort (fun a b => !(b.1 < a.1))

def clockTime (hour minute : Nat) : String :=
  toString ((hour + 11) % 12 + 1) ++ ":" ++ (if minute < 10 then "0" else "") ++ toString minute ++
    (if hour < 12 then "AM" else "PM")

def line (time : String) (r : Record) : String :=
  (orderedFields r.fields).foldl (fun text (name, value) => text ++ " " ++ name ++ "=" ++ fieldText value)
    (time ++ " " ++ r.level.tag ++ " " ++ r.message) ++ "\n"

end FunctionLength.CommandLine
