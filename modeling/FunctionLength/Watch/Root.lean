import FunctionLength.Analysis.Run
import FunctionLength.FileSystem.Change

namespace FunctionLength.Watch

/-- A watched directory, with the name that was given for it. -/
structure Root where
  absolute : String
  display : String
  /-- The files of interest, if only some of the directory are. -/
  only : Option (List String)
  deriving DecidableEq, Repr

def merge (new : Root) : List Root → List Root
  | [] => [new]
  | r :: rest =>
    if r.absolute = new.absolute then
      let only := match r.only, new.only with
        | some a, some b => some (a ++ b)
        | _, _ => none
      { r with only } :: rest
    else r :: merge new rest

def root? (fs : FileSystem) (path : String) : Option Root :=
  match fs.status path with
  | .error _ => none
  | .ok (.directory _) =>
    (fs.absolute? path).map fun absolute => { absolute, display := path, only := none }
  | .ok _ =>
    let display := Path.directory path
    (fs.absolute? display).map fun absolute =>
      { absolute, display, only := some [(fs.absolute? path).getD ""] }

def roots (fs : FileSystem) (paths : List String) : List Root :=
  (paths.filterMap (root? fs)).foldl (fun rs r => merge r rs) []

end FunctionLength.Watch

namespace FunctionLength.Job
open FunctionLength.Watch

def displayName (r : Root) (changed : String) : String :=
  match Path.relative? r.absolute changed with
  | some way => Path.join [r.display, way]
  | none => changed

inductive Answer where
  | ignore
  | tellGone
  | analyze (path : String)

/-- A changed file is analyzed if a run over the root would have done so. -/
def answer (j : Job) (fs : FileSystem) (r : Root) (changed : String) : Answer :=
  let wanted := match r.only with
    | some files => files.contains changed
    | none => j.checker.parser.supports (Path.extension changed)
  if !wanted then .ignore
  else
    match fs.status changed with
    | .ok (.file _) =>
      let path := displayName r changed
      if r.only.isNone && j.checker.ignoresPath path then .ignore else .analyze path
    | _ => .tellGone

def onChange (j : Job) (fs : FileSystem) (r : Root) (changed : String) : Analysis :=
  match j.answer fs r changed with
  | .ignore => {}
  | .tellGone => ({} : Analysis).record .debug "changed file no longer exists" [("file", .text changed)]
  | .analyze path =>
    let a := j.checker.addFile fs j.ignoreTests path {}
    a.record .debug "re-analyzed" [("file", .text path), ("too_long", .flag a.tooLong)]

/-- Whether the answer to a report waits without end. What is analyzed goes by another path than what was found
to be a file, and may be something else. -/
def hangs (j : Job) (fs : FileSystem) (r : Root) (changed : String) : Bool :=
  match j.answer fs r changed with
  | .analyze path => j.checker.waits fs j.ignoreTests path
  | _ => false

end FunctionLength.Job
