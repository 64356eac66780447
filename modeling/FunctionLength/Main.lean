import FunctionLength.CommandLine.Program
import FunctionLength.FileSystem.Difference
import FunctionLength.FileSystem.Change
import Std.Internal.UV.Signal
import Std.Time

/-!
The program on a real machine. What a run may look at is read into a file system value first, and what the
run writes and logs is printed after it. Watching compares such values again and again.
-/

namespace FunctionLength.Machine
open FunctionLength.CommandLine FunctionLength.FileSystem

def typeAt (path : String) : IO (Option IO.FS.FileType) := do
  try return some (← ((← IO.currentDir) / path).symlinkMetadata).type
  catch _ => return none

def nowhere : String := "\x00"

/-- Where a link leads in the end. A link without end leads to itself. -/
def linkTarget (path : String) : IO String := do
  try
    discard ((← IO.currentDir) / path).metadata
    return (← IO.FS.realPath path).toString
  catch
    | .noFileOrDirectory .. => return nowhere
    | _ => return path

def namesIn (path : String) : IO (List String) := do
  try
    let entries ← ((← IO.currentDir) / path).readDir
    return (entries.toList.map (·.fileName)).mergeSort (fun a b => !(b < a))
  catch _ => return []

def contentAt (path : String) : IO ByteArray := do
  try IO.FS.readBinFile path catch _ => return ByteArray.empty

/-- What comes of reading something that is neither a file nor a directory. All but the null device counts as a
pipe that nobody writes to. -/
def readingAt (path : String) : Reading :=
  if path = "/dev/null" then .content ByteArray.empty else .endless

/-- Reads an entry with all below it, and lists the targets of links to files. Of the files only those with a
supported extension are of interest. -/
partial def loadEntry (path : String) : IO (Option Entry × List String) := do
  match ← typeAt path with
  | none => return (none, [])
  | some .file =>
    if Python.parser.supports (Path.extension path) then return (some (.file (← contentAt path)), [])
    else return (some (.file ByteArray.empty), [])
  | some .symlink =>
    let target ← linkTarget path
    return (some (.link target), if (← typeAt target) == some .file then [target] else [])
  | some .dir =>
    let mut entries := #[]
    let mut targets := #[]
    for name in ← namesIn path do
      let (entry, below) ← loadEntry (Path.join [path, name])
      if let some e := entry then entries := entries.push (name, e)
      targets := targets ++ below
    return (some (.directory entries.toList), targets.toList)
  | some .other => return (some (.special (readingAt path)), [])

def placed (fs : FileSystem) (l : Location) (e : Entry) : FileSystem :=
  match l, e with
  | [], .directory entries => { fs with root := entries }
  | _, _ => fs.put l e

/-- Adds to a file system what the names lead to from a location, and the links on the way. With `deep` a
directory is read with all below it. -/
partial def capture (deep : Bool) (fs : FileSystem) (l : Location) : List String → IO FileSystem
  | [] => do
    if !deep then return fs
    let (entry, targets) ← loadEntry (Path.ofNames true l)
    let mut fs := (entry.map (placed fs l)).getD fs
    for target in targets do
      fs ← capture false fs [] (steps target)
    return fs
  | name :: rest => do
    if name = "." then return ← capture deep fs l rest
    if name = ".." then return ← capture deep fs l.dropLast rest
    let here := l ++ [name]
    let path := Path.ofNames true here
    match ← typeAt path with
    | none => return fs
    | some .dir =>
      let known := (fs.directoryAt? here).isSome
      capture deep (if known then fs else fs.put here (.directory [])) here rest
    | some .symlink =>
      let target ← linkTarget path
      let fs := fs.put here (.link target)
      if target = nowhere || target = path then return fs
      capture deep fs [] (steps target ++ rest)
    | some .file => return fs.put here (.file (← contentAt path))
    | some .other => return fs.put here (.special (readingAt path))

def snapshot (paths : List String) : IO FileSystem := do
  let workingDirectory := (← IO.currentDir).toString
  let mut fs ← capture false { root := [], workingDirectory } [] (steps workingDirectory)
  for deep in [true, false] do
    for path in paths do
      if path ≠ "" then
        let start := if Path.isAbsolute path then [] else Path.names workingDirectory
        fs ← capture deep fs start (steps path)
  return fs

def now : IO String := do
  let time ← Std.Time.PlainTime.now
  return clockTime time.hour.val.toNat time.minute.val.toNat

def print (output : List String) (log : List Log.Record) : IO Unit := do
  let stdout ← IO.getStdout
  let stderr ← IO.getStderr
  for text in output do
    stdout.putStr text
  stdout.flush
  for r in log do
    stderr.putStr (line (← now) r)

def interruption : IO (IO Bool) := do
  let interrupt ← (← Std.Internal.UV.Signal.mk 2 false).next
  let terminate ← (← Std.Internal.UV.Signal.mk 15 false).next
  return do return (← interrupt.isResolved) || (← terminate.isResolved)

partial def watchRoots (j : Job) (rank : Int) (roots : List Watch.Root) (isOver : IO Bool) (fs : FileSystem) :
    IO Unit := do
  IO.sleep 100
  if ← isOver then return
  let after ← snapshot (roots.map (·.absolute))
  for r in roots do
    for path in fs.changedBelow after r.absolute do
      unless Path.mentions j.checker.settings.ignoredDirectories (Path.directory path) do
        let a := j.onChange after r path
        print a.output (atLeast rank a.log)
  watchRoots j rank roots isOver after

def keepWatching (i : Invocation) (paths : List String) (isOver : IO Bool) (fs : FileSystem) : IO Unit := do
  let j := i.options.job Python.parser (i.options.resolve fs).settings
  let roots := Watch.roots fs paths
  watchRoots j i.rank roots isOver (← snapshot (roots.map (·.absolute)))

def finish (failure : Option Failure) : IO UInt32 := do
  (← IO.getStderr).putStr ((failure.map Failure.lastWords).getD "")
  return (({ failure } : Outcome).exitCode).toUInt32

partial def hang : IO (Option Failure) := do
  IO.sleep 1000
  hang

def perform (i : Invocation) : IO (Option Failure) := do
  let fs ← snapshot i.paths
  let o := i.run Python.parser fs
  match i.action with
  | .watch paths =>
    let isOver ← interruption
    print o.output o.log
    if o.stuck then return ← hang
    if o.failure.isNone then keepWatching i paths isOver fs
  | _ =>
    print o.output o.log
    if o.stuck then return ← hang
  return o.failure

end FunctionLength.Machine

open FunctionLength.CommandLine FunctionLength.Machine in
def main (arguments : List String) : IO UInt32 := do
  match Invocation.ofArguments arguments with
  | .error e => finish (some (.usage e))
  | .ok i => finish (← perform i)
