import FunctionLength.Settings
import FunctionLength.Text.Integer
import FunctionLength.Text.Quoted

namespace FunctionLength.CommandLine
open FunctionLength.Text

inductive Flag where
  | config
  | disableOutput
  | help
  | ignoreTest
  | lineLimit
  | logLevel
  | warningLineLimit
  deriving DecidableEq, Repr

inductive Shape where
  | text
  | integer
  | switch
  deriving DecidableEq, Repr

namespace Flag

def all : List Flag := [config, disableOutput, help, ignoreTest, lineLimit, logLevel, warningLineLimit]

def name : Flag → String
  | config => "config"
  | disableOutput => "disable_output"
  | help => "help"
  | ignoreTest => "ignore_test"
  | lineLimit => "line_limit"
  | logLevel => "log-level"
  | warningLineLimit => "warning_line_limit"

def letter? : Flag → Option Char
  | help => some 'h'
  | _ => none

def shape : Flag → Shape
  | config | logLevel => .text
  | lineLimit | warningLineLimit => .integer
  | disableOutput | help | ignoreTest => .switch

def ofName? (name : String) : Option Flag := all.find? (·.name = name)

def ofLetter? (c : Char) : Option Flag := all.find? (·.letter? = some c)

def label (f : Flag) : String :=
  match f.letter? with
  | some c => "-" ++ c.toString ++ ", --" ++ f.name
  | none => "--" ++ f.name

end Flag

inductive ValueError where
  | integer (error : Integer.Error)
  | switch
  deriving DecidableEq, Repr

inductive UsageError where
  | badSyntax (argument : String)
  | unknownFlag (name : String)
  | unknownLetter (letter : Char) (letters : String)
  | missingValue (flag : Flag)
  | invalidValue (flag : Flag) (value : String) (error : ValueError)
  | unknownCommand (word command : String)
  | missingArgument
  | unknownLevel (level : String)
  | levelOutOfBounds (level : String) (value : Int64)
  deriving DecidableEq, Repr

def ValueError.text (value : String) : ValueError → String
  | integer .malformed => "strconv.ParseInt: parsing " ++ quoted value ++ ": invalid syntax"
  | integer .outOfRange => "strconv.ParseInt: parsing " ++ quoted value ++ ": value out of range"
  | switch => "strconv.ParseBool: parsing " ++ quoted value ++ ": invalid syntax"

def UsageError.text : UsageError → String
  | badSyntax argument => "bad flag syntax: " ++ argument
  | unknownFlag name => "unknown flag: --" ++ name
  | unknownLetter letter letters => "unknown shorthand flag: " ++ quotedChar letter ++ " in -" ++ letters
  | missingValue flag => "flag needs an argument: --" ++ flag.name
  | invalidValue flag value error =>
    "invalid argument " ++ quoted value ++ " for " ++ quoted flag.label ++ " flag: " ++ error.text value
  | unknownCommand word command => "unknown command " ++ quoted word ++ " for " ++ quoted command
  | missingArgument => "requires at least 1 arg(s), only received 0"
  | unknownLevel level =>
    "invalid --log-level " ++ quoted level ++ ": Unknown Level String: '" ++ level ++
      "', defaulting to NoLevel"
  | levelOutOfBounds level value =>
    "invalid --log-level " ++ quoted level ++ ": Out-Of-Bounds Level: '" ++ toString value ++
      "', defaulting to NoLevel"

/-- The values of the flags. Some are open as long as they are not given. -/
structure Options where
  config : String := "pyproject.toml"
  logLevel : String := "warn"
  ignoreTests : Bool := false
  lineLimit : Option Int64 := none
  warningLineLimit : Option Int64 := none
  disableOutput : Option Bool := none
  help : Bool := false
  deriving DecidableEq, Repr

namespace Options

def switch? (value : String) : Option Bool :=
  if ["1", "t", "T", "true", "TRUE", "True"].contains value then some true
  else if ["0", "f", "F", "false", "FALSE", "False"].contains value then some false
  else none

def readInteger (value : String) : Except ValueError Int64 := (Integer.read value).mapError .integer

def readSwitch (value : String) : Except ValueError Bool :=
  match switch? value with
  | some b => .ok b
  | none => .error .switch

def assign (o : Options) (value : String) : Flag → Except ValueError Options
  | .config => .ok { o with config := value }
  | .logLevel => .ok { o with logLevel := value }
  | .ignoreTest => (readSwitch value).map fun b => { o with ignoreTests := b }
  | .lineLimit => (readInteger value).map fun n => { o with lineLimit := some n }
  | .warningLineLimit => (readInteger value).map fun n => { o with warningLineLimit := some n }
  | .disableOutput => (readSwitch value).map fun b => { o with disableOutput := some b }
  | .help => (readSwitch value).map fun b => { o with help := b }

def set (o : Options) (flag : Flag) (value : String) : Except UsageError Options :=
  (o.assign value flag).mapError (.invalidValue flag value)

def layer (o : Options) : Settings.Layer where
  errorLimit := o.lineLimit
  warningLimit := o.warningLineLimit
  output := o.disableOutput.map (!·)

end Options

inductive Argument where
  | word
  | endOfFlags
  | letters (cs : List Char)
  | named (name : List Char) (value : Option (List Char))
  | malformed
  deriving DecidableEq, Repr

namespace Argument

def splitValue : List Char → List Char × Option (List Char)
  | [] => ([], none)
  | '=' :: value => ([], some value)
  | c :: cs =>
    let (name, value) := splitValue cs
    (c :: name, value)

def ofText (s : String) : Argument :=
  match s.toList with
  | ['-', '-'] => .endOfFlags
  | '-' :: '-' :: '-' :: _ => .malformed
  | '-' :: '-' :: '=' :: _ => .malformed
  | '-' :: '-' :: cs =>
    let (name, value) := splitValue cs
    .named name value
  | '-' :: c :: cs => .letters (c :: cs)
  | _ => .word

end Argument

/-- A letter that is unknown is shown by the first byte of its encoding. -/
def firstByte (c : Char) : Char :=
  match (String.singleton c).toUTF8.data[0]? with
  | some b => Char.ofNat b.toNat
  | none => c

namespace Options

def setLetters (o : Options) : List Char → Except UsageError Options
  | [] => .ok o
  | c :: rest =>
    match Flag.ofLetter? c, rest with
    | none, _ => .error (.unknownLetter (firstByte c) (String.ofList (c :: rest)))
    | some flag, '=' :: d :: value => o.set flag (String.ofList (d :: value))
    | some flag, rest => do setLetters (← o.set flag "true") rest

/-- The value that a flag has without a further argument. -/
def ownValue? (flag : Flag) : Option (List Char) → Option String
  | some value => some (String.ofList value)
  | none => if flag.shape = .switch then some "true" else none

def read (o : Options) : List String → Except UsageError (Options × List String)
  | [] => .ok (o, [])
  | argument :: rest =>
    match Argument.ofText argument with
    | .word => (read o rest).map fun (o, words) => (o, argument :: words)
    | .endOfFlags => .ok (o, rest)
    | .malformed => .error (.badSyntax argument)
    | .letters cs => do read (← o.setLetters cs) rest
    | .named name value =>
      match Flag.ofName? (String.ofList name) with
      | none => .error (.unknownFlag (String.ofList name))
      | some flag =>
        match ownValue? flag value with
        | some value => do read (← o.set flag value) rest
        | none =>
          match rest with
          | [] => .error (.missingValue flag)
          | value :: rest => do read (← o.set flag value) rest

end Options
end FunctionLength.CommandLine
