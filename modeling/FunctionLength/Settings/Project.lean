import FunctionLength.FileSystem
import FunctionLength.Settings
import FunctionLength.Text.Fold
import FunctionLength.Toml.Document

/-!
Settings from the project file: a table in it holds a layer over the built-in ones. The whole file has to be
well formed and of the right types, or nothing of it counts.
-/

namespace FunctionLength.Settings
open FunctionLength.Text FunctionLength.Toml

def sectionName : String := "FunctionLengthAnalyzer"

inductive LoadCause where
  | inaccessible (error : FileSystem.Error)
  | malformed
  | illTyped
  | noSection

def LoadCause.text : LoadCause → String
  | inaccessible e => e.text
  | malformed => "toml: malformed document"
  | illTyped => "toml: value of an unexpected type"
  | noSection => "no [tool." ++ sectionName ++ "] section"

structure LoadError where
  path : String
  cause : LoadCause

def LoadError.text (e : LoadError) : String := "load " ++ e.path ++ ": " ++ e.cause.text

def integer : Value → Option Int64
  | .integer n => some n
  | _ => none

def boolean : Value → Option Bool
  | .boolean b => some b
  | _ => none

def text : Value → Option String
  | .text s => some s
  | _ => none

def texts : Value → Option (List String)
  | .list vs => vs.mapM text
  | _ => none

/-- Sets the field of a layer that a name means. Case does not matter, and other names are ignored. -/
def Layer.set (l : Layer) (name : String) (v : Value) : Option Layer :=
  if equalFolded "error_line_limit" name then (integer v).map fun n => { l with errorLimit := some n }
  else if equalFolded "warning_line_limit" name then (integer v).map fun n => { l with warningLimit := some n }
  else if equalFolded "enable_output" name then (boolean v).map fun b => { l with output := some b }
  else if equalFolded "ignore_directories" name then
    (texts v).map fun names => { l with ignoredDirectories := some names }
  else if equalFolded "ignore_files" name then (texts v).map fun names => { l with ignoredFiles := some names }
  else some l

def layerOf (l : Layer) (entries : Table) : Option Layer :=
  entries.foldlM (fun l (name, v) => l.set name v) l

def layerOfTools (l : Option Layer) (tools : Table) : Option (Option Layer) :=
  tools.foldlM (fun l (name, v) =>
    if equalFolded sectionName name then
      match v with
      | .table t => (layerOf (l.getD {}) t).map some
      | _ => none
    else some l) l

/-- The layer that a document holds, if it has one, unless something has the wrong type. -/
def layerOfDocument (document : Table) : Option (Option Layer) :=
  document.foldlM (fun l (name, v) =>
    if equalFolded "tool" name then
      match v with
      | .table t => layerOfTools l t
      | _ => none
    else some l) none

def loadLayer (fs : FileSystem) (path : String) : Except LoadCause Layer :=
  match fs.readFile path with
  | .error e => .error (.inaccessible e)
  | .ok content =>
    match Toml.read? content with
    | none => .error .malformed
    | some document =>
      match layerOfDocument document with
      | none => .error .illTyped
      | some none => .error .noSection
      | some (some l) => .ok l

def load (fs : FileSystem) (path : String) : Except LoadError Settings :=
  match loadLayer fs path with
  | .ok l => .ok (builtIn.apply l)
  | .error cause => .error ⟨path, cause⟩

end FunctionLength.Settings
