import FunctionLength.Path

/-!
File systems, as far as a program can tell them apart: a tree of directories with files, symbolic links and
what else there is, such as devices and pipes. A path is followed from the working directory or from the root,
one name after the other.
-/

namespace FunctionLength

namespace FileSystem

inductive Cause where
  | notFound
  | notDirectory
  | isDirectory
  | tooManyLinks
  | nameTooLong
  | invalidPath
  | denied
  | noDevice
  | interrupted
  deriving DecidableEq, Repr

def Cause.text : Cause → String
  | notFound => "no such file or directory"
  | notDirectory => "not a directory"
  | isDirectory => "is a directory"
  | tooManyLinks => "too many levels of symbolic links"
  | nameTooLong => "file name too long"
  | invalidPath => "invalid argument"
  | denied => "permission denied"
  | noDevice => "no such device or address"
  | interrupted => "interrupted system call"

/-- What comes of reading something that is neither a file nor a directory. A device gives what it gives, a
socket cannot be opened, and at a pipe that nobody writes to one waits without end. -/
inductive Reading where
  | content (bytes : ByteArray)
  | failure (cause : Cause)
  | endless

inductive Entry where
  | file (content : ByteArray)
  | directory (entries : List (String × Entry))
  | link (target : String)
  | special (reading : Reading)

@[match_pattern] abbrev Entry.pipe : Entry := .special .endless

abbrev Entries := List (String × Entry)

/-- Where an entry really is: the names of the directories from the root down, and its own. -/
abbrev Location := List String

structure Error where
  operation : String
  path : String
  cause : Cause
  deriving DecidableEq, Repr

def Error.text (e : Error) : String := e.operation ++ " " ++ e.path ++ ": " ++ e.cause.text

end FileSystem

structure FileSystem where
  root : FileSystem.Entries
  /-- Where the working directory really is. -/
  workingDirectory : String
  /-- What the working directory is called, which may lead to it through links. There is no such path once the
  directory has been removed. -/
  workingPath : Option String := some workingDirectory
  /-- What may not be opened. Such a directory cannot be listed, but paths lead through it all the same. -/
  locked : List FileSystem.Location := []

namespace FileSystem

def Entries.at? : Entries → Location → Option Entry
  | entries, [] => some (.directory entries)
  | entries, name :: rest =>
    match entries.lookup name with
    | some (.directory inner) => Entries.at? inner rest
    | some e => if rest.isEmpty then some e else none
    | none => none

def at? (fs : FileSystem) (l : Location) : Option Entry := Entries.at? fs.root l

def directoryAt? (fs : FileSystem) (l : Location) : Option Entries :=
  match fs.at? l with
  | some (.directory entries) => some entries
  | _ => none

/-- The names to follow. A slash at the end means the directory itself. -/
def steps (path : String) : List String :=
  let names := ((Path.pieces path.toList).filter (· ≠ [])).map String.ofList
  if path.toList.getLast? = some '/' then names ++ ["."] else names

/-- How far names lead without following a link: to an entry, or to a link on the way. -/
inductive Progress where
  | arrived (l : Location) (e : Entry)
  | detour (l : Location) (steps : List String)
  | failed (c : Cause)

/-- Follows names from a directory. A link at the end is the goal itself, unless `follow` is set. -/
def advance (fs : FileSystem) (follow : Bool) : Location → List String → Progress
  | l, [] =>
    match fs.at? l with
    | some e => .arrived l e
    | none => .failed .notFound
  | l, name :: rest =>
    if name = "." then advance fs follow l rest
    else if name = ".." then advance fs follow l.dropLast rest
    else if 255 < name.utf8ByteSize then .failed .nameTooLong
    else
      match (fs.directoryAt? l).bind (·.lookup name) with
      | none => .failed .notFound
      | some (.directory _) => advance fs follow (l ++ [name]) rest
      | some (.link target) =>
        if rest.isEmpty && !follow then .arrived (l ++ [name]) (.link target)
        else .detour (if Path.isAbsolute target then [] else l) (steps target ++ rest)
      | some e => if rest.isEmpty then .arrived (l ++ [name]) e else .failed .notDirectory

def linkLimit : Nat := 40

def resolveFrom (fs : FileSystem) (follow : Bool) : (links : Nat) → Location → List String →
    Except Cause (Location × Entry)
  | links, l, names =>
    match fs.advance follow l names with
    | .arrived l e => .ok (l, e)
    | .failed c => .error c
    | .detour l names =>
      match links with
      | 0 => .error .tooManyLinks
      | links + 1 => resolveFrom fs follow links l names

/-- No path of this many bytes is followed. -/
def pathLimit : Nat := 4096

def resolve (fs : FileSystem) (follow : Bool) (path : String) : Except Cause (Location × Entry) :=
  if path.toList.contains '\x00' then .error .invalidPath
  else if path = "" then .error .notFound
  else if pathLimit ≤ path.utf8ByteSize then .error .nameTooLong
  else
    let start := if Path.isAbsolute path then [] else Path.names fs.workingDirectory
    fs.resolveFrom follow linkLimit start (steps path)

def status (fs : FileSystem) (path : String) : Except Error Entry :=
  match fs.resolve true path with
  | .ok (_, e) => .ok e
  | .error cause => .error ⟨"stat", path, cause⟩

def linkStatus (fs : FileSystem) (path : String) : Except Error Entry :=
  match fs.resolve false path with
  | .ok (_, e) => .ok e
  | .error cause => .error ⟨"lstat", path, cause⟩

def isLocked (fs : FileSystem) (l : Location) : Bool := fs.locked.contains l

def waits (fs : FileSystem) (path : String) : Bool :=
  match fs.resolve true path with
  | .ok (l, .special .endless) => !fs.isLocked l
  | _ => false

/-- The content of a file. A read that would wait without end counts as interrupted. -/
def readFile (fs : FileSystem) (path : String) : Except Error ByteArray :=
  match fs.resolve true path with
  | .error cause => .error ⟨"open", path, cause⟩
  | .ok (l, e) =>
    if fs.isLocked l then .error ⟨"open", path, .denied⟩
    else
      match e with
      | .file content | .special (.content content) => .ok content
      | .special (.failure cause) => .error ⟨"open", path, cause⟩
      | .special .endless => .error ⟨"open", path, .interrupted⟩
      | .directory _ => .error ⟨"read", path, .isDirectory⟩
      | .link _ => .error ⟨"open", path, .tooManyLinks⟩

def readDirectory (fs : FileSystem) (path : String) : Except Error (Location × Entries) :=
  match fs.resolve true path with
  | .error cause => .error ⟨"open", path, cause⟩
  | .ok (l, e) =>
    if fs.isLocked l then .error ⟨"open", path, .denied⟩
    else
      match e with
      | .directory entries => .ok (l, entries)
      | _ => .error ⟨"open", path, .notDirectory⟩

/-- The absolute path, as far as the working directory has one. -/
def absolute? (fs : FileSystem) (path : String) : Option String :=
  if Path.isAbsolute path then some (Path.clean path) else fs.workingPath.map (Path.absolute · path)

end FileSystem
end FunctionLength
