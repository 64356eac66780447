import FunctionLength.CommandLine.Command
import FunctionLength.Settings.Project

namespace FunctionLength.CommandLine
open FunctionLength.Text

namespace Flag

def summary (c : Command) : Flag → String
  | config => "project file holding [tool." ++ Settings.sectionName ++ "]"
  | disableOutput => "Disable diagnostic output (default from config)."
  | help => "help for " ++ c.name
  | ignoreTest => "Ignore files starting with 'test_' and configured ignore files."
  | lineLimit => "Line limit error for functions (default from config)."
  | logLevel => "log level for stderr diagnostics (debug, info, warn, error)"
  | warningLineLimit => "Line limit warning for functions (default from config)."

def defaultText? : Flag → Option String
  | config => some (quoted ({} : Options).config)
  | logLevel => some (quoted ({} : Options).logLevel)
  | lineLimit => some (toString Settings.builtIn.errorLimit)
  | warningLineLimit => some (toString Settings.builtIn.warningLimit)
  | disableOutput | help | ignoreTest => none

def synopsis (f : Flag) : String :=
  let label := if f.letter?.isSome then "  " ++ f.label else "      " ++ f.label
  match f.shape with
  | .text => label ++ " string"
  | .integer => label ++ " int"
  | .switch => label

end Flag

def padded (width : Nat) (s : String) : String := s ++ String.ofList (List.replicate (width - s.length) ' ')

def flagLines (c : Command) (flags : List Flag) : String :=
  let width := (flags.map (·.synopsis.length)).foldl max 0
  String.join (flags.map fun f =>
    padded width f.synopsis ++ "   " ++ f.summary c ++
      (match f.defaultText? with
        | some text => " (default " ++ text ++ ")"
        | none => "") ++ "\n")

namespace Command

def summary : Command → String
  | check => "Flag overly long Python functions"
  | completion => "Generate the autocompletion script for the specified shell"
  | config => "Show the resolved configuration"
  | help => "Help about any command"
  | watch => "Re-check Python files as they change"

def description : Command → String
  | check =>
    "Analyzes Python files and directories and reports functions and methods whose\n" ++
    "length exceeds the warning or error line limit. Exits 1 if any reaches the\n" ++
    "error limit. Limits are read from [tool." ++ Settings.sectionName ++ "] in pyproject.toml."
  | completion =>
    "Generate the autocompletion script for " ++ programName ++ " for the specified shell.\n" ++
    "See each sub-command's help for details on how to use the generated script."
  | config => "Shows the limits and ignore lists after merging the project file, defaults, and flags."
  | help =>
    "Help provides help for any command in the application.\n" ++
    "Simply type " ++ programName ++ " help [path to command] for full details."
  | watch => "Analyzes the paths once, then re-analyzes each changed Python file until interrupted."

def arguments? : Command → Option String
  | check => some " [path...] [flags]"
  | completion => none
  | config => some " [flags]"
  | help => some " [command] [flags]"
  | watch => some " path... [flags]"

def below : Command → List (String × String)
  | check => named.map fun c => (c.name, c.summary)
  | completion =>
    ["bash", "fish", "powershell", "zsh"].map fun shell =>
      (shell, "Generate the autocompletion script for " ++ shell)
  | _ => []

def flags : Command → List Flag × List Flag
  | check => (Flag.all, [])
  | _ => ([.help], Flag.all.filter (· ≠ .help))

def usage (c : Command) : String :=
  let own := match c.arguments? with
    | some arguments => "\n  " ++ c.path ++ arguments
    | none => ""
  let further := if c.below.isEmpty then "" else "\n  " ++ c.path ++ " [command]"
  "Usage:" ++ own ++ further ++ "\n"

def helpText (c : Command) : String :=
  let below := c.below.map fun (name, summary) => "  " ++ padded 11 name ++ " " ++ summary ++ "\n"
  let (own, shared) := c.flags
  c.description ++ "\n\n" ++ c.usage ++
    (if below.isEmpty then "" else "\nAvailable Commands:\n" ++ String.join below) ++
    "\nFlags:\n" ++ flagLines c own ++
    (if shared.isEmpty then "" else "\nGlobal Flags:\n" ++ flagLines c shared) ++
    (if below.isEmpty then ""
      else "\nUse \"" ++ c.path ++ " [command] --help\" for more information about a command.\n")

end Command
end FunctionLength.CommandLine
