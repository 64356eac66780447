/-!
Slash-separated paths, as text. Nothing here looks at a file system: a parent directory is cancelled by the
name before it, whatever that name may stand for.
-/

namespace FunctionLength.Path

/-- The pieces between slashes. There is always at least one, and pieces may be empty. -/
def pieces : List Char → List (List Char)
  | [] => [[]]
  | c :: cs =>
    if c = '/' then [] :: pieces cs
    else
      match pieces cs with
      | [] => [[c]]
      | p :: ps => (c :: p) :: ps

def names (path : String) : List String :=
  ((pieces path.toList).map String.ofList).filter fun name => name ≠ "" && name ≠ "."

def isAbsolute (path : String) : Bool := path.toList.head? == some '/'

/-- Adds a name at the end of a path, given from its end. A parent cancels the name before it, and at the
root it has no effect. -/
def descend (absolute : Bool) (above : List String) (name : String) : List String :=
  if name = ".." then
    match above with
    | [] => if absolute then [] else [".."]
    | last :: rest => if last = ".." then ".." :: above else rest
  else name :: above

def normalize (absolute : Bool) (names : List String) : List String :=
  (names.foldl (descend absolute) []).reverse

def joinNames (names : List String) : String := String.intercalate "/" names

def ofNames (absolute : Bool) (names : List String) : String :=
  if absolute then "/" ++ joinNames names
  else if names.isEmpty then "."
  else joinNames names

def clean (path : String) : String :=
  ofNames (isAbsolute path) (normalize (isAbsolute path) (names path))

def join (parts : List String) : String :=
  match parts.dropWhile (· = "") with
  | [] => ""
  | parts => clean (String.intercalate "/" parts)

def base (path : String) : String :=
  if path = "" then "."
  else
    match ((pieces path.toList).filter (· ≠ [])).getLast? with
    | some name => String.ofList name
    | none => "/"

def directory (path : String) : String :=
  clean (String.ofList (path.toList.reverse.dropWhile (· ≠ '/')).reverse)

def extension (path : String) : String :=
  let last := (pieces path.toList).getLastD []
  if last.contains '.' then String.ofList ('.' :: (last.reverse.takeWhile (· ≠ '.')).reverse) else ""

def absolute (workingDirectory path : String) : String :=
  if isAbsolute path then clean path else join [workingDirectory, path]

/-- The way from one path to another, as text. There is none between an absolute and a relative path, nor
from above an unknown parent. -/
def relative? (source target : String) : Option String :=
  if isAbsolute source ≠ isAbsolute target then none
  else
    let a := normalize (isAbsolute source) (names source)
    let b := normalize (isAbsolute target) (names target)
    let common := ((a.zip b).takeWhile fun (x, y) => x = y).length
    let up := a.drop common
    if up.contains ".." then none
    else some (ofNames false (up.map (fun _ => "..") ++ b.drop common))

def isPart (part : List Char) : List Char → Bool
  | [] => part.isEmpty
  | c :: cs => part.isPrefixOf (c :: cs) || isPart part cs

/-- Whether one of some names is part of a path. The empty name does not count. -/
def mentions (names : List String) (path : String) : Bool :=
  names.any fun name => name ≠ "" && isPart name.toList path.toList

end FunctionLength.Path
