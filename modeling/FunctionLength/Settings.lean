namespace FunctionLength

structure Settings where
  errorLimit : Int64
  warningLimit : Int64
  output : Bool
  ignoredDirectories : List String
  ignoredFiles : List String
  deriving DecidableEq, Repr

namespace Settings

def builtIn : Settings where
  errorLimit := 60
  warningLimit := 50
  output := true
  ignoredDirectories := [".git", ".venv", "node_modules"]
  ignoredFiles := ["conftest.py", "fixtures.py"]

/-- A layer of settings: what it leaves open is taken from the layer below. -/
structure Layer where
  errorLimit : Option Int64 := none
  warningLimit : Option Int64 := none
  output : Option Bool := none
  ignoredDirectories : Option (List String) := none
  ignoredFiles : Option (List String) := none
  deriving DecidableEq, Repr

def apply (s : Settings) (l : Layer) : Settings where
  errorLimit := l.errorLimit.getD s.errorLimit
  warningLimit := l.warningLimit.getD s.warningLimit
  output := l.output.getD s.output
  ignoredDirectories := l.ignoredDirectories.getD s.ignoredDirectories
  ignoredFiles := l.ignoredFiles.getD s.ignoredFiles

end Settings
end FunctionLength
