import FunctionLength.CommandLine.Command
import FunctionLength.CommandLine.Console

/-!
What a command line asks for. Flags are read first, a wish for help comes before all else, then the words are
looked at, and the level of the log last.
-/

namespace FunctionLength.CommandLine

inductive Action where
  | check (paths : List String)
  | showConfig
  | watch (paths : List String)
  | showHelp (topic : Command)
  deriving DecidableEq, Repr

structure Invocation where
  action : Action
  options : Options
  rank : Int
  deriving DecidableEq, Repr

def Command.action : Command → List String → Except UsageError Action
  | check, paths => .ok (.check paths)
  | completion, _ => .ok (.showHelp completion)
  | config, [] => .ok .showConfig
  | config, word :: _ => .error (.unknownCommand word config.path)
  | help, words => .ok (.showHelp (pick words).1)
  | watch, [] => .error .missingArgument
  | watch, paths => .ok (.watch paths)

def Invocation.ofArguments (arguments : List String) : Except UsageError Invocation := do
  let (command, rest) := Command.pick arguments
  let (options, words) ← ({} : Options).read rest
  if options.help || command = .completion then
    return { action := .showHelp command, options, rank := 0 }
  let action ← command.action words
  let rank ← rankOf options.logLevel
  return { action, options, rank }

def Invocation.paths (i : Invocation) : List String :=
  match i.action with
  | .check paths | .watch paths => i.options.config :: paths
  | .showConfig => [i.options.config]
  | .showHelp _ => []

end FunctionLength.CommandLine
