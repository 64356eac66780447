import FunctionLength.CommandLine.Flag

namespace FunctionLength.CommandLine

def programName : String := "funclen"

inductive Command where
  | check
  | completion
  | config
  | help
  | watch
  deriving DecidableEq, Repr

namespace Command

def name : Command → String
  | check => programName
  | completion => "completion"
  | config => "config"
  | help => "help"
  | watch => "watch"

def path : Command → String
  | check => programName
  | c => programName ++ " " ++ c.name

def named : List Command := [completion, config, help, watch]

def ofName? (word : String) : Option Command := named.find? (·.name = word)

end Command

/-- Whether an argument takes the next one as its value, as far as this can be told before the command is
known: a flag that is not known to be a switch does. -/
def takesNext (argument : String) : Bool :=
  match argument.toList with
  | '-' :: '-' :: cs =>
    !cs.contains '=' && ((Flag.ofName? (String.ofList cs)).all fun f => f = .help || f.shape ≠ .switch)
  | '-' :: cs => !cs.contains '=' && argument.utf8ByteSize = 2
  | _ => false

def isFlagLike (argument : String) : Bool := argument.toList.head? = some '-'

/-- The first word that is neither a flag nor the value of one. A value at the end is not looked at. -/
def firstWord? : List String → Option String
  | [] => none
  | argument :: rest =>
    if argument = "--" then none
    else if takesNext argument then
      match rest with
      | _ :: next :: rest => firstWord? (next :: rest)
      | _ => none
    else if argument = "" || isFlagLike argument then firstWord? rest
    else some argument

def eraseWord (word : String) : List String → List String
  | [] => []
  | argument :: rest =>
    if argument = "--" then argument :: rest
    else if takesNext argument then
      match rest with
      | [] => [argument]
      | value :: rest => argument :: value :: eraseWord word rest
    else if argument = word then rest
    else argument :: eraseWord word rest

def Command.pick (arguments : List String) : Command × List String :=
  match (firstWord? arguments).bind Command.ofName? with
  | some c => (c, eraseWord c.name arguments)
  | none => (.check, arguments)

end FunctionLength.CommandLine
