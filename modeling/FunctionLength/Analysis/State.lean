import FunctionLength.Analysis.Finding
import FunctionLength.FileSystem.Walk
import FunctionLength.Log
import FunctionLength.Settings
import FunctionLength.Syntax.Parser

/-!
An analysis in progress: which functions have been seen, what was found, and what was written and logged.
Every function is judged once.
-/

namespace FunctionLength

open FunctionLength.Analysis FunctionLength.Syntax

structure Analysis.Identity where
  file : String
  name : String
  first : Int64
  last : Int64
  deriving DecidableEq, Repr

structure Analysis where
  visited : List Analysis.Identity := []
  findings : List Finding := []
  tooLong : Bool := false
  output : List String := []
  log : List Log.Record := []

structure Checker where
  settings : Settings
  parser : Parser

namespace Analysis

def write (a : Analysis) (text : String) : Analysis := { a with output := a.output ++ [text] }

def record (a : Analysis) (level : Log.Level) (message : String) (fields : List (String × Log.Field)) :
    Analysis :=
  { a with log := a.log ++ [{ level, message, fields }] }

def report (s : Settings) (f : Finding) (a : Analysis) : Analysis :=
  let a := { a with
    findings := a.findings ++ [f]
    tooLong := a.tooLong || f.severity = .error }
  if s.output then a.write (f.text ++ "\n") else a

/-- Judges a function of a file, unless that was done before. With the name of a class the function is a
method of it. -/
def visit (s : Settings) (file owner name : String) (first last : Int64) (a : Analysis) : Analysis :=
  let identity : Identity := { file, name, first, last }
  if identity ∈ a.visited then a
  else
    let a := { a with visited := identity :: a.visited }
    let lines := lineCount first last
    let severity := Severity.ofLines s.warningLimit s.errorLimit lines
    if severity = .none then a
    else if owner = "" then a.report s { file, name, kind := .function, severity, lines, first, last }
    else a.report s { file, name := owner ++ "." ++ name, kind := .method, severity, lines, first, last }

def visitMember (s : Settings) (file owner : String) (a : Analysis) : Declaration → Analysis
  | .function name first last _ => a.visit s file owner name first last
  | _ => a

def visitDeclaration (s : Settings) (file : String) (a : Analysis) : Declaration → Analysis
  | .function name first last _ => a.visit s file "" name first last
  | .type owner members => members.foldl (visitMember s file owner) a
  | .other _ _ => a

/-- Judges all functions of a file. A class comes before its members, so these are seen as methods first. -/
def visitFile (s : Settings) (f : SourceFile) (a : Analysis) : Analysis :=
  f.walk.foldl (visitDeclaration s f.path) a

end Analysis

namespace Checker

def isTestFile (c : Checker) (path : String) : Bool :=
  let base := Path.base path
  "test_".toList.isPrefixOf base.toList || c.settings.ignoredFiles.contains base

def ignoresDirectory (c : Checker) (path : String) : Bool :=
  Path.mentions c.settings.ignoredDirectories path

def ignoresPath (c : Checker) (path : String) : Bool := c.ignoresDirectory (Path.directory path)

/-- Analyzes a file. A file that cannot be read or parsed has no findings. -/
def addFile (c : Checker) (fs : FileSystem) (ignoreTests : Bool) (path : String) (a : Analysis) : Analysis :=
  if ignoreTests && c.isTestFile path then a.record .debug "skipping test file" [("file", .text path)]
  else
    match fs.readFile path with
    | .error e => a.record .warn "cannot read file" [("error", .text e.text), ("file", .text path)]
    | .ok content =>
      match c.parser.parse path content with
      | .ok file => a.visitFile c.settings file
      | .error e =>
        match e.syntaxError? with
        | some s => a.write ("The file '" ++ path ++ "' has errors " ++ s.text ++ ".\n")
        | none => a.record .warn "cannot parse file" [("error", .text e.text), ("file", .text path)]

def addVisit (c : Checker) (fs : FileSystem) (ignoreTests : Bool) (a : Analysis) :
    FileSystem.Visit → Analysis
  | .found path =>
    if c.parser.supports (Path.extension path) then c.addFile fs ignoreTests path a else a
  | .pruned path => a.record .debug "skipping ignored directory" [("dir", .text path)]
  | .unreadable path e =>
    a.record .debug "skipping unreadable entry" [("error", .text e.text), ("path", .text path)]

def addDirectory (c : Checker) (fs : FileSystem) (ignoreTests : Bool) (path : String) (a : Analysis) :
    Analysis :=
  (fs.walk c.ignoresDirectory path).foldl (c.addVisit fs ignoreTests) a

def waits (c : Checker) (fs : FileSystem) (ignoreTests : Bool) (path : String) : Bool :=
  !(ignoreTests && c.isTestFile path) && fs.waits path

/-- Deals with what is met on a walk, as far as that gets. An analysis that waits without end is an error. -/
def tryVisit (c : Checker) (fs : FileSystem) (ignoreTests : Bool) (a : Analysis) (v : FileSystem.Visit) :
    Except Analysis Analysis :=
  match v with
  | .found path =>
    if c.parser.supports (Path.extension path) && c.waits fs ignoreTests path then .error a
    else .ok (c.addVisit fs ignoreTests a v)
  | _ => .ok (c.addVisit fs ignoreTests a v)

def tryDirectory (c : Checker) (fs : FileSystem) (ignoreTests : Bool) (path : String) (a : Analysis) :
    Except Analysis Analysis :=
  (fs.walk c.ignoresDirectory path).foldlM (c.tryVisit fs ignoreTests) a

end Checker
end FunctionLength
