import FunctionLength.FileSystem

namespace FunctionLength.FileSystem

mutual

def Entry.filePaths (path : String) : Entry → List String
  | .file _ => [path]
  | .directory entries => filePathsIn path entries
  | _ => []

def filePathsIn (above : String) : List (String × Entry) → List String
  | [] => []
  | (name, e) :: rest => e.filePaths (Path.join [above, name]) ++ filePathsIn above rest

end

def Entry.entries : Entry → Entries
  | .directory entries => entries
  | _ => []

mutual

def Entry.changedPaths (path : String) (before : Option Entry) : Entry → List String
  | .file content =>
    match before with
    | some (.file old) => if old = content then [] else [path]
    | _ => [path]
  | .directory entries =>
    let old := (before.map Entry.entries).getD []
    let gone := old.filter fun (name, _) => (entries.lookup name).isNone
    filePathsIn path gone ++ changedPathsIn path old entries
  | _ => []

def changedPathsIn (above : String) (before : Entries) : List (String × Entry) → List String
  | [] => []
  | (name, e) :: rest =>
    e.changedPaths (Path.join [above, name]) (before.lookup name) ++ changedPathsIn above before rest

end

def changedBelow (before after : FileSystem) (path : String) : List String :=
  match before.resolve true path, after.resolve true path with
  | .ok (_, old), .ok (_, new) => new.changedPaths path (some old)
  | .ok (_, old), .error _ => old.filePaths path
  | .error _, .ok (_, new) => new.changedPaths path none
  | .error _, .error _ => []

end FunctionLength.FileSystem
