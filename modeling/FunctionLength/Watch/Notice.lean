import FunctionLength.FileSystem.Change

/-!
Notices of changes in a file system. Who is subscribed to a directory is told of what happens to its
entries, under the name by which the directory was subscribed.
-/

namespace FunctionLength.Watch
open FunctionLength.FileSystem

inductive Operation where
  | create
  | write
  | remove
  | rename
  | setAttributes
  deriving DecidableEq, Repr

structure Notice where
  operation : Operation
  path : String
  deriving DecidableEq, Repr

/-- A subscribed directory. It stays the same directory when it is moved. -/
structure Subscription where
  location : Location
  path : String
  deriving DecidableEq, Repr

/-- Subscribes a directory under a path. There is one subscription for a directory, and one for a path: a
directory keeps the path under which it was subscribed first, and a path is for the directory that was
subscribed last. -/
def subscribe (l : Location) (path : String) (subs : List Subscription) : List Subscription :=
  let kept := subs.filter fun s => s.location = l || s.path ≠ path
  if kept.any (·.location = l) then kept else kept ++ [⟨l, path⟩]

def subscribeAll (ts : List (Location × String)) (subs : List Subscription) : List Subscription :=
  ts.foldl (fun subs (l, path) => subscribe l path subs) subs

def aboutEntry (subs : List Subscription) (op : Operation) (l : Location) : List Notice :=
  match l.getLast? with
  | none => []
  | some name =>
    (subs.filter (·.location = l.dropLast)).map fun s => ⟨op, s.path ++ "/" ++ name⟩

def aboutSelf (subs : List Subscription) (op : Operation) (l : Location) : List Notice :=
  (subs.filter (·.location = l)).map fun s => ⟨op, s.path⟩

/-- The notices of an effect, and the subscriptions after it. A directory that is taken away or moved loses
its subscription. -/
def notices (subs : List Subscription) : Effect → List Notice × List Subscription
  | .create l (.file content) =>
    (aboutEntry subs .create l ++ if content.isEmpty then [] else aboutEntry subs .write l, subs)
  | .create l _ => (aboutEntry subs .create l, subs)
  | .write l _ => (aboutEntry subs .write l, subs)
  | .delete l =>
    (aboutEntry subs .remove l ++ aboutSelf subs .remove l, subs.filter (·.location ≠ l))
  | .move source target =>
    let moved := (subs.filter (·.location ≠ source)).map fun s =>
      { s with location := relocate source target s.location }
    (aboutEntry subs .rename source ++ aboutEntry subs .create target ++ aboutSelf subs .rename source, moved)
  | .setAttributes l => (aboutEntry subs .setAttributes l ++ aboutSelf subs .setAttributes l, subs)

def allNotices : List Subscription → List Effect → List Notice × List Subscription
  | subs, [] => ([], subs)
  | subs, e :: rest =>
    let (first, subs) := notices subs e
    let (later, subs) := allNotices subs rest
    (first ++ later, subs)

end FunctionLength.Watch
