import FunctionLength.CommandLine.Help
import FunctionLength.CommandLine.Invocation
import FunctionLength.Python.Reader
import FunctionLength.Watch.Session

namespace FunctionLength.CommandLine
open FunctionLength.Log

/-- How the program fails: some function reached the error limit, the command line is wrong, or watching
came to a bad end. -/
inductive Failure where
  | tooLong
  | usage (error : UsageError)
  | watching (reason : String)
  deriving DecidableEq, Repr

namespace Failure

def exitCode : Failure → Nat
  | tooLong => 1
  | usage _ | watching _ => 2

def text : Failure → String
  | tooLong => "exit status " ++ toString tooLong.exitCode
  | usage e => e.text
  | watching reason => reason

def lastWords : Failure → String
  | tooLong => ""
  | e => programName ++ ": " ++ e.text ++ "\n"

end Failure

structure Outcome where
  output : List String := []
  log : List Record := []
  failure : Option Failure := none
  /-- Whether the program waits without end for something to read. -/
  stuck : Bool := false

namespace Outcome

def exitCode (o : Outcome) : Nat := (o.failure.map Failure.exitCode).getD 0

def exit? (o : Outcome) : Option Nat := if o.stuck then none else some o.exitCode

def outputText (o : Outcome) : String := String.join o.output

def logText (time : String) (o : Outcome) : String := String.join (o.log.map (line time))

end Outcome

structure Resolution where
  settings : Settings
  source : Option String
  log : List Record := []

namespace Options

/-- The settings that hold: flags come before the project file, and this before what is built in. -/
def resolve (o : Options) (fs : FileSystem) : Resolution :=
  match Settings.load fs o.config with
  | .ok s => { settings := s.apply o.layer, source := some o.config }
  | .error e =>
    { settings := Settings.builtIn.apply o.layer
      source := none
      log := [⟨.debug, "using default configuration", [("error", .text e.text)]⟩] }

/-- What comes after the settings are known. To read them from a pipe can take without end. -/
def resolving (o : Options) (fs : FileSystem) (next : Resolution → Outcome) : Outcome :=
  if fs.waits o.config then { stuck := true } else next (o.resolve fs)

def job (o : Options) (parser : Syntax.Parser) (s : Settings) : Job where
  checker := { settings := s, parser }
  ignoreTests := o.ignoreTests

def report (o : Options) (r : Resolution) : List String :=
  ["⚡ " ++ programName ++ " config\n",
    "  Source:              " ++ r.source.getD "built-in defaults" ++ "\n",
    "  Error line limit:    " ++ toString r.settings.errorLimit ++ "\n",
    "  Warning line limit:  " ++ toString r.settings.warningLimit ++ "\n",
    "  Output:              " ++ (if r.settings.output then "enabled" else "disabled") ++ "\n",
    "  Ignore directories:  " ++ ", ".intercalate r.settings.ignoredDirectories ++ "\n",
    "  Ignore files:        " ++ ", ".intercalate r.settings.ignoredFiles ++ "\n",
    "  Ignore test files:   " ++ toString o.ignoreTests ++ "\n"]

end Options

namespace Invocation

/-- Does what an action asks for. Watching ends as soon as it has to wait. -/
def perform (parser : Syntax.Parser) (fs : FileSystem) (o : Options) : Action → Outcome
  | .showHelp topic => { output := [topic.helpText] }
  | .showConfig => o.resolving fs fun r => { output := o.report r, log := r.log }
  | .check paths => o.resolving fs fun r =>
    match (o.job parser r.settings).execute fs paths with
    | .ok a =>
      { output := a.output, log := r.log ++ a.log, failure := if a.tooLong then some .tooLong else none }
    | .error a => { output := a.output, log := r.log ++ a.log, stuck := true }
  | .watch paths => o.resolving fs fun r =>
    let s := (o.job parser r.settings).watch fs {} paths []
    { output := s.initial.output, log := r.log ++ s.initial.log, failure := s.error.map .watching, stuck := s.stuck }

def run (i : Invocation) (parser : Syntax.Parser) (fs : FileSystem) : Outcome :=
  let o := perform parser fs i.options i.action
  { o with log := atLeast i.rank o.log }

end Invocation

def runWith (parser : Syntax.Parser) (fs : FileSystem) (arguments : List String) : Outcome :=
  match Invocation.ofArguments arguments with
  | .ok i => i.run parser fs
  | .error e => { failure := some (.usage e) }

def run (fs : FileSystem) (arguments : List String) : Outcome := runWith Python.parser fs arguments

end FunctionLength.CommandLine
