import FunctionLength.Watch.Root

namespace FunctionLength.Watch

/-- How the watchers of a session behave, by their number: whether one can be made, started and stopped.
A text says why not. -/
structure Supply where
  createError : Nat → Option String := fun _ => none
  startError : Nat → Option String := fun _ => none
  stopError : Nat → Option String := fun _ => none

inductive Call where
  | create (watcher : Nat)
  | start (watcher : Nat) (root : String)
  | stop (watcher : Nat)
  deriving DecidableEq, Repr

/-- What happens while a session waits: the file system changes, or a watcher reports a path. -/
inductive Step where
  | change (c : FileSystem.Change)
  | report (watcher : Nat) (path : String)

inductive Cause where
  | noPaths
  | setUp (display reason : String)
  | stop (watcher : Nat) (reason : String)
  deriving DecidableEq, Repr

def Cause.text : Cause → String
  | noPaths => "watch: no existing paths to watch"
  | setUp display reason => "watch " ++ display ++ ": " ++ reason
  | stop _ reason => reason

structure SetUp where
  calls : List Call := []
  created : Nat := 0
  watching : List Root := []
  failure : Option Cause := none

def setUp (supply : Supply) : (i : Nat) → List Root → SetUp
  | i, [] => { created := i }
  | i, r :: rest =>
    match supply.createError i with
    | some reason => { created := i, failure := some (.setUp r.display reason) }
    | none =>
      match supply.startError i with
      | some reason =>
        { calls := [.create i, .start i r.absolute]
          created := i + 1
          failure := some (.setUp r.display reason) }
      | none =>
        let later := setUp supply (i + 1) rest
        { later with
          calls := .create i :: .start i r.absolute :: later.calls
          watching := r :: later.watching }

structure Session where
  initial : Analysis
  responses : List Analysis := []
  calls : List Call := []
  causes : List Cause
  /-- Whether the first run waits without end, so that the session does not even begin. -/
  stuck : Bool := false

def Session.error (s : Session) : Option String :=
  if s.causes = [] then none else some ("\n".intercalate (s.causes.map Cause.text))

end FunctionLength.Watch

namespace FunctionLength.Job
open FunctionLength.Watch

/-- The answers to what happens while a session waits. They are given one at a time, so that one that does not
come to an end is the last. -/
def respond (j : Job) (roots : List Root) : List Step → FileSystem → List Analysis
  | [], _ => []
  | .change c :: rest, fs => {} :: respond j roots rest (fs.apply c)
  | .report i path :: rest, fs =>
    match roots[i]? with
    | none => {} :: respond j roots rest fs
    | some r =>
      if j.hangs fs r path then {} :: rest.map fun _ => {}
      else j.onChange fs r path :: respond j roots rest fs

def watchAfter (j : Job) (a : Analysis) (fs : FileSystem) (supply : Supply) (paths : List String)
    (steps : List Step) : Session :=
  match roots fs paths with
  | [] => { initial := a, causes := [.noPaths] }
  | rs =>
    let s := setUp supply 0 rs
    let initial := s.watching.foldl
      (fun a r => a.record .info "watching" [("path", .text r.display)]) a
    let watchers := List.range s.created
    { initial
      responses := if s.failure.isNone then j.respond rs steps fs else []
      calls := s.calls ++ watchers.map .stop
      causes := s.failure.toList ++ watchers.filterMap fun i => (supply.stopError i).map (.stop i) }

def watch (j : Job) (fs : FileSystem) (supply : Supply) (paths : List String) (steps : List Step) : Session :=
  match j.execute fs paths with
  | .ok a => j.watchAfter a fs supply paths steps
  | .error a => { initial := a, causes := [], stuck := true }

end FunctionLength.Job
