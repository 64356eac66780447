import FunctionLength.Parsing.View
import FunctionLength.Path
import FunctionLength.Python.Outline
import FunctionLength.Syntax.Parser

namespace FunctionLength.Python
open FunctionLength.Text FunctionLength.Syntax

def formerKeyword? (kind : String) : Option String :=
  if kind = "print_statement" then some "print"
  else if kind = "exec_statement" then some "exec"
  else none

def isInvalid (i : Node.Info) : Bool := i.fault.isSome || (formerKeyword? i.kind).isSome

def complaint (i : Node.Info) : String :=
  match formerKeyword? i.kind with
  | some keyword =>
    "Missing parentheses in call to '" ++ keyword ++ "'. Did you mean " ++ keyword ++ "(...)?"
  | none => "invalid syntax"

def ofTree (path : String) (src : Source) (root : Node) : Except Failure SourceFile :=
  match root.find? isInvalid with
  | some bad =>
    .error (.invalid
      { file := Path.base path, line := .ofNat (bad.startRow + 1), message := complaint bad.info })
  | none => .ok { path, body := outlineAll src root.children }

/-- What a Python file declares, if texts have the given trees. An empty file declares nothing. -/
def readBy (tree? : Source → Option Node) (path : String) (content : ByteArray) : Except Failure SourceFile :=
  if content.isEmpty then .ok { path, body := [] }
  else
    let src := Source.ofBytes content
    match tree? src with
    | some root => ofTree path src root
    | none => .error (.unreadable ("parse " ++ path ++ ": no tree produced"))

def read : String → ByteArray → Except Failure SourceFile := readBy Parsing.concrete?

def parser : Parser where
  supports := (· == ".py")
  parse := read

end FunctionLength.Python
