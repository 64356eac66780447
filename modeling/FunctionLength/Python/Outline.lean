import FunctionLength.Syntax.Node
import FunctionLength.Syntax.Declaration

namespace FunctionLength.Python
open FunctionLength.Text FunctionLength.Syntax

def compoundKinds : List String :=
  ["module", "block", "function_definition", "class_definition", "decorated_definition", "if_statement",
   "elif_clause", "else_clause", "for_statement", "while_statement", "try_statement", "except_clause",
   "except_group_clause", "finally_clause", "with_statement", "match_statement", "case_clause"]

def isCompound (kind : String) : Bool := compoundKinds.contains kind

/-- The line on which a node ends. One that ends at the very beginning of a line ends on the line before. -/
def endLine (i : Node.Info) : Nat :=
  if i.finish.column = 0 && i.start.rows < i.finish.rows then i.finish.rows else i.finish.rows + 1

/-- Whether the last statement of a compound statement may be looked for in a child. -/
def isStatement (i : Node.Info) : Bool := i.named && i.kind != "comment"

mutual

def lastStatementLine : Node → Nat
  | .mk info children =>
    if isCompound info.kind then (lastStatementLineIn? children).getD (endLine info) else endLine info

def lastStatementLineIn? : List Node → Option Nat
  | [] => none
  | .mk info children :: rest =>
    match lastStatementLineIn? rest with
    | some line => some line
    | none => if isStatement info then some (lastStatementLine (.mk info children)) else none

end

def nameOf (src : Source) (n : Node) : String := (n.child? "name").elim "" (·.text src)

mutual

/-- The declarations that a node makes. A decorated definition counts as the definition, a block as what
it holds, and any other statement only if it holds a declaration. -/
def outline (src : Source) : Node → List Declaration
  | .mk info children =>
    let node := Node.mk info children
    if info.kind = "function_definition" then
      [.function (nameOf src node) (.ofNat (info.start.rows + 1)) (.ofNat (lastStatementLine node))
        (outlineBody src children)]
    else if info.kind = "class_definition" then [.type (nameOf src node) (outlineBody src children)]
    else if info.kind = "decorated_definition" then outlineDefinition src children
    else if info.kind = "block" then outlineAll src children
    else
      match outlineAll src children with
      | [] => []
      | d :: ds => [.other info.kind (d :: ds)]

def outlineAll (src : Source) : List Node → List Declaration
  | [] => []
  | .mk info children :: rest =>
    if info.named then outline src (.mk info children) ++ outlineAll src rest else outlineAll src rest

def outlineBody (src : Source) : List Node → List Declaration
  | [] => []
  | .mk info children :: rest =>
    if info.field = some "body" then outlineAll src children else outlineBody src rest

def outlineDefinition (src : Source) : List Node → List Declaration
  | [] => []
  | .mk info children :: rest =>
    if info.field = some "definition" then outline src (.mk info children) else outlineDefinition src rest

end

end FunctionLength.Python
