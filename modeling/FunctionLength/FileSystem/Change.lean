import FunctionLength.FileSystem

/-!
Changes of a file system. A change is carried out as a row of effects, each at one location.
-/

namespace FunctionLength.FileSystem

inductive Effect where
  | create (l : Location) (e : Entry)
  | write (l : Location) (content : ByteArray)
  | delete (l : Location)
  | move (source target : Location)
  | setAttributes (l : Location)

namespace Entries

def insert (name : String) (e : Entry) : Entries → Entries
  | [] => [(name, e)]
  | (n, old) :: rest =>
    if name < n then (name, e) :: (n, old) :: rest
    else if name = n then (n, e) :: rest
    else (n, old) :: insert name e rest

def erase (name : String) (entries : Entries) : Entries := entries.filter (·.1 ≠ name)

def modifyAt (f : Entries → Entries) : Location → Entries → Entries
  | [], entries => f entries
  | name :: rest, entries =>
    match entries.lookup name with
    | some (.directory inner) => entries.insert name (.directory (modifyAt f rest inner))
    | _ => entries

end Entries

def put (fs : FileSystem) (l : Location) (e : Entry) : FileSystem :=
  match l.getLast? with
  | some name => { fs with root := Entries.modifyAt (Entries.insert name e) l.dropLast fs.root }
  | none => fs

def take (fs : FileSystem) (l : Location) : FileSystem :=
  match l.getLast? with
  | some name => { fs with root := Entries.modifyAt (Entries.erase name) l.dropLast fs.root }
  | none => fs

def relocate (source target : Location) (l : Location) : Location :=
  if source.isPrefixOf l then target ++ l.drop source.length else l

/-- An entry that may not be opened takes this along, and leaves nothing of it behind. -/
def perform (fs : FileSystem) : Effect → FileSystem
  | .create l e => fs.put l e
  | .write l content => fs.put l (.file content)
  | .delete l => { fs.take l with locked := fs.locked.filter (!l.isPrefixOf ·) }
  | .move source target =>
    match fs.at? source with
    | some e =>
      { (fs.take source).put target e with
        locked := (fs.locked.filter (!target.isPrefixOf ·)).map (relocate source target) }
    | none => fs
  | .setAttributes _ => fs

/-- A change that a program may ask for. Missing directories on the way to an entry are made. -/
inductive Change where
  | write (path : String) (e : Entry)
  | remove (path : String)
  | rename (path target : String)
  | setAttributes (path : String)

def isEntryName (name : String) : Bool :=
  name ≠ "" && name ≠ "." && name ≠ ".." && !name.toList.contains '/' && !name.toList.contains '\x00' &&
    name.utf8ByteSize ≤ 255

def slotIn? (fs : FileSystem) (directory name : String) : Option Location :=
  match fs.resolve true directory with
  | .ok (l, .directory _) => if isEntryName name then some (l ++ [name]) else none
  | _ => none

/-- Makes the directories that are missing on a path, given by its names. -/
def directoryEffects (absolute : Bool) : (above : List String) → List String → FileSystem → List Effect
  | _, [], _ => []
  | above, name :: rest, fs =>
    let here := above ++ [name]
    match fs.resolve true (Path.ofNames absolute here) with
    | .ok _ => directoryEffects absolute here rest fs
    | .error _ =>
      match fs.slotIn? (Path.ofNames absolute above) name with
      | some l =>
        let effect := .create l (.directory [])
        effect :: directoryEffects absolute here rest (fs.perform effect)
      | none => []

def makeDirectories (fs : FileSystem) (path : String) : List Effect :=
  directoryEffects (Path.isAbsolute path) [] (Path.names path) fs

def slot? (fs : FileSystem) (path : String) : Option Location :=
  fs.slotIn? (Path.directory path) (Path.base path)

/-- Where the target of a link that leads nowhere would be. The first argument bounds the number of links. -/
def writeSlot? (fs : FileSystem) : Nat → String → Option Location
  | 0, _ => none
  | links + 1, path =>
    match fs.resolve false path with
    | .ok (_, .link target) =>
      writeSlot? fs links (if Path.isAbsolute target then target else Path.directory path ++ "/" ++ target)
    | .ok (l, _) => some l
    | .error _ => fs.slot? path

/-- The effects of writing an entry where its directory exists. A file is written through a link. -/
def writeEffects (fs : FileSystem) (path : String) : Entry → List Effect
  | .directory _ => []
  | .file content =>
    match fs.resolve true path with
    | .ok (l, .file _) => [.write l content]
    | .ok _ => []
    | .error _ => ((fs.writeSlot? linkLimit path).map fun l => Effect.create l (.file content)).toList
  | e =>
    match fs.resolve false path, fs.slot? path with
    | .error _, some l => [.create l e]
    | _, _ => []

mutual

/-- The effects of taking an entry away: what a directory holds goes first. -/
def removeEffects (l : Location) : Entry → List Effect
  | .directory entries => removeAllEffects l entries ++ [.delete l]
  | _ => [.delete l]

def removeAllEffects (above : Location) : List (String × Entry) → List Effect
  | [] => []
  | (name, e) :: rest => removeEffects (above ++ [name]) e ++ removeAllEffects above rest

end

/-- Whether an entry can be moved: not into itself, not over a directory, and a directory over nothing. -/
def canMove (fs : FileSystem) (source : Location) (e : Entry) (target : Location) : Bool :=
  !source.isPrefixOf target &&
    match e, fs.at? target with
    | _, none => true
    | .directory _, some _ => false
    | _, some (.directory _) => false
    | _, some _ => true

def directoryFor (path : String) : Entry → String
  | .directory _ => path
  | _ => Path.directory path

def effects (fs : FileSystem) : Change → List Effect
  | .write path e =>
    let parents := fs.makeDirectories (directoryFor path e)
    parents ++ (parents.foldl perform fs).writeEffects path e
  | .remove path =>
    match fs.resolve false path with
    | .ok (l, e) => removeEffects l e
    | .error _ => []
  | .rename path target =>
    match fs.resolve false path, fs.slot? target with
    | .ok (l, e), some l' => if fs.canMove l e l' then [.move l l'] else []
    | _, _ => []
  | .setAttributes path =>
    match fs.resolve true path with
    | .ok (l, _) => [.setAttributes l]
    | .error _ => []

def apply (fs : FileSystem) (c : Change) : FileSystem := (fs.effects c).foldl perform fs

end FunctionLength.FileSystem
