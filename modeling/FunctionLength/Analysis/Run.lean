import FunctionLength.Analysis.State

namespace FunctionLength

structure Job where
  checker : Checker
  ignoreTests : Bool

namespace Job

def ofParser (settings : Settings) (ignoreTests : Bool) : Option Syntax.Parser → Except String Job
  | some parser => .ok { checker := { settings, parser }, ignoreTests }
  | none => .error "app: parser is required"

def addPath (j : Job) (fs : FileSystem) (a : Analysis) (path : String) : Analysis :=
  match fs.status path with
  | .error e => a.record .debug "skipping path" [("error", .text e.text), ("path", .text path)]
  | .ok (.file _) => j.checker.addFile fs j.ignoreTests path a
  | .ok (.directory _) => j.checker.addDirectory fs j.ignoreTests path a
  | .ok _ => a.record .debug "skipping non-regular path" [("path", .text path)]

def conclude (a : Analysis) : Analysis :=
  a.record .debug "analysis complete" [("findings", .number a.findings.length), ("too_long", .flag a.tooLong)]

/-- Analyzes path arguments in turn, if all that is read comes to an end. -/
def run (j : Job) (fs : FileSystem) (paths : List String) : Analysis := conclude (paths.foldl (j.addPath fs) {})

/-- Analyzes one path argument, as far as that gets. Only a walk can come to something that waits without end,
since an argument has to be a regular file or a directory. -/
def tryPath (j : Job) (fs : FileSystem) (a : Analysis) (path : String) : Except Analysis Analysis :=
  match fs.status path with
  | .ok (.directory _) => j.checker.tryDirectory fs j.ignoreTests path a
  | _ => .ok (j.addPath fs a path)

def execute (j : Job) (fs : FileSystem) (paths : List String) : Except Analysis Analysis :=
  (paths.foldlM (j.tryPath fs) {}).map conclude

end Job
end FunctionLength
