import FunctionLength.FileSystem

namespace FunctionLength.FileSystem

inductive Visit where
  | found (path : String)
  | pruned (path : String)
  | unreadable (path : String) (error : Error)

mutual

/-- The walk through an entry at a location, with the given path. -/
def visit (locked : Location → Bool) (prune : String → Bool) (l : Location) (path : String) : Entry → List Visit
  | .directory entries =>
    if prune path then [.pruned path]
    else if pathLimit ≤ path.utf8ByteSize then [.unreadable path ⟨"open", path, .nameTooLong⟩]
    else if locked l then [.unreadable path ⟨"open", path, .denied⟩]
    else visitAll locked prune l path entries
  | _ => [.found path]

def visitAll (locked : Location → Bool) (prune : String → Bool) (l : Location) (above : String) :
    List (String × Entry) → List Visit
  | [] => []
  | (name, e) :: rest =>
    visit locked prune (l ++ [name]) (Path.join [above, name]) e ++ visitAll locked prune l above rest

end

/-- The walk through a child of the starting point. Its path is the shortest one as text, so that its
entries are looked up anew. -/
def visitChild (fs : FileSystem) (prune : String → Bool) (path : String) : Entry → List Visit
  | .directory _ =>
    if prune path then [.pruned path]
    else
      match fs.readDirectory path with
      | .ok (l, entries) => visitAll fs.isLocked prune l path entries
      | .error e => [.unreadable path e]
  | _ => [.found path]

def walk (fs : FileSystem) (prune : String → Bool) (path : String) : List Visit :=
  match fs.linkStatus path with
  | .error e => [.unreadable path e]
  | .ok (.directory _) =>
    if prune path then [.pruned path]
    else
      match fs.readDirectory path with
      | .ok (_, entries) => entries.flatMap fun (name, e) => fs.visitChild prune (Path.join [path, name]) e
      | .error e => [.unreadable path e]
  | .ok _ => [.found path]

end FunctionLength.FileSystem
