import FunctionLength.Watch.Notice

/-!
A watcher of a directory and all below it. Directories that come up later are watched too, ignored ones are
not. Notices wait until one of the loops of the watcher takes them, one at a time, and the end of watching does
not wait for what a loop has taken.
-/

namespace FunctionLength.Watch
open FunctionLength.FileSystem

structure Loop where
  /-- When a notice about a path counted last, in milliseconds. -/
  seen : List (String × Nat) := []
  /-- The notice that the loop has taken and not dealt with yet. -/
  held : Option Notice := none
  deriving DecidableEq, Repr

structure Watcher where
  ignored : List String
  subscriptions : List Subscription := []
  pending : List Notice := []
  /-- There is a loop for each time that watching was begun. -/
  loops : List Loop := []
  stopped : Bool := false

def pause : Nat := 50

def Notice.newDirectory? (n : Notice) (fs : FileSystem) : Option Location :=
  match n.operation, fs.resolve true n.path with
  | .create, .ok (l, .directory _) => some l
  | _, _ => none

mutual

/-- The directories from an entry down that are to be watched, with their paths. -/
def directories (locked : Location → Bool) (prune : String → Bool) (l : Location) (path : String) :
    Entry → List (Location × String)
  | .directory entries => if locked l then [] else (l, path) :: directoriesIn locked prune l path entries
  | _ => []

def directoriesIn (locked : Location → Bool) (prune : String → Bool) (l : Location) (above : String) :
    List (String × Entry) → List (Location × String)
  | [] => []
  | (name, e) :: rest =>
    let path := Path.join [above, name]
    (if prune path || pathLimit ≤ path.utf8ByteSize then []
      else directories locked prune (l ++ [name]) path e) ++ directoriesIn locked prune l above rest

end

namespace Loop

def count (loop : Loop) (op : Operation) (path : String) (time : Nat) : Loop × Option String :=
  ({ loop with seen := (path, time) :: loop.seen.filter (·.1 ≠ path) },
    if op = .setAttributes then none else some path)

/-- Deals with a notice at a time. The result also has the path to report, if any. Of several notices about one
path in a short time only the first counts. -/
def receive (ignored : List String) (fs : FileSystem) (time : Nat) (n : Notice) (loop : Loop) :
    Loop × Option String :=
  if (n.newDirectory? fs).isSome || Path.mentions ignored (Path.directory n.path) then (loop, none)
  else
    match loop.seen.lookup n.path with
    | some last => if time - last < pause then (loop, none) else loop.count n.operation n.path time
    | none => loop.count n.operation n.path time

end Loop

namespace Watcher

def closedError : String := "fsnotify: watcher already closed"

def noDirectoryError : String := "getwd: no such file or directory"

/-- The directories to watch from an absolute path. The root itself is watched even if it is ignored. -/
def targets (w : Watcher) (fs : FileSystem) (root : String) : List (Location × String) :=
  match fs.resolve false root with
  | .ok (l, e) => directories fs.isLocked (Path.mentions w.ignored) l root e
  | .error _ => []

/-- Begins to watch. A root that is no directory is watched in vain, and a stopped watcher cannot begin
again. -/
def start (w : Watcher) (fs : FileSystem) (root : String) : Except String Watcher :=
  match fs.absolute? root with
  | none => .error noDirectoryError
  | some path =>
    let ts := w.targets fs path
    if w.stopped && !ts.isEmpty then .error closedError
    else .ok { w with
      subscriptions := subscribeAll ts w.subscriptions
      loops := w.loops ++ [{}] }

def notify (w : Watcher) (effects : List Effect) : Watcher :=
  let (ns, subscriptions) := allNotices w.subscriptions effects
  { w with subscriptions, pending := w.pending ++ ns }

def take (w : Watcher) (i : Nat) : Watcher :=
  match w.loops[i]?, w.pending with
  | some ⟨seen, none⟩, n :: rest => { w with pending := rest, loops := w.loops.set i ⟨seen, some n⟩ }
  | _, _ => w

/-- The directory that a notice brings to the watched ones. -/
def addition? (ignored : List String) (fs : FileSystem) (n : Notice) : Option (Location × String) :=
  match n.newDirectory? fs with
  | some l => if Path.mentions ignored n.path || fs.isLocked l then none else some (l, Path.clean n.path)
  | none => none

/-- A loop deals with the notice that it has taken. Once the watcher was stopped, nothing can be subscribed. -/
def deal (w : Watcher) (fs : FileSystem) (time : Nat) (i : Nat) : Watcher × Option String :=
  match w.loops[i]? with
  | some ⟨seen, some n⟩ =>
    let (loop, path) := Loop.receive w.ignored fs time n ⟨seen, none⟩
    let added := if w.stopped then [] else (addition? w.ignored fs n).toList
    ({ w with subscriptions := subscribeAll added w.subscriptions, loops := w.loops.set i loop }, path)
  | _ => (w, none)

def work (fs : FileSystem) (time : Nat) (i : Nat) : Nat → Watcher → Watcher × List String
  | 0, w => (w, [])
  | n + 1, w =>
    let (w, path) := (w.take i).deal fs time i
    let (w, paths) := work fs time i n w
    (w, path.toList ++ paths)

/-- What a watcher reports of a change at a time, if the last loop takes all notices when the change is
complete. -/
def observe (w : Watcher) (fs : FileSystem) (time : Nat) (c : Change) : Watcher × List String :=
  let w := w.notify (fs.effects c)
  work (fs.apply c) time (w.loops.length - 1) w.pending.length w

def stop (w : Watcher) : Watcher := { w with stopped := true, subscriptions := [], pending := [] }

/-- What the end of watching says, if the end of all subscriptions says the given. They are ended once. -/
def stopError (w : Watcher) (closing : Option String) : Option String := if w.stopped then none else closing

end Watcher
end FunctionLength.Watch
