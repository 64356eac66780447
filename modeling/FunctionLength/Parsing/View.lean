import FunctionLength.Parsing.Parser
import FunctionLength.Syntax.Node

namespace FunctionLength.Parsing
open FunctionLength.Text FunctionLength.Grammar FunctionLength.Python FunctionLength.Syntax

namespace Tag

def kind : Tag → String
  | error | errorRun => "ERROR"
  | symbol n =>
    match Vocabulary.terminals[n]? with
    | some t => t.kind
    | none => table.names.getD (n - table.terminalCount) ""

def isNamed : Tag → Bool
  | symbol n => Vocabulary.terminals[n]?.all (·.isNamed)
  | _ => true

end Tag

namespace Tree

def nodeInfo (i : Info) (place : Extent) (rename : Option Rename) (field : Option String) : Node.Info where
  kind := rename.elim i.tag.kind (·.kind)
  named := rename.elim i.tag.isNamed (·.named)
  fault := if i.tag == .error then some .error else if i.missing then some .missing else none
  field
  start := place + i.padding
  finish := place + i.padding + i.size

mutual

/-- The nodes of a tree that begins at a place, before the nodes `rest`. What appears of a hidden tree has
the role of the tree, unless it has one of its own. -/
def nodesBefore (place : Extent) (rename : Option Rename) (field : Option String) (rest : List Node) :
    Tree → List Node
  | mk i children =>
    let labels := labelsOf i.reduction
    if i.tag ≠ .errorRun && (i.visible || rename.isSome) then
      .mk (nodeInfo i place rename field) (childrenBefore place none [] labels children) :: rest
    else childrenBefore place field rest labels children

def childrenBefore (place : Extent) (field : Option String) (rest : List Node) (labels : List Label) :
    List Tree → List Node
  | [] => rest
  | t :: ts =>
    let label := if t.isExtra then ⟨none, none⟩ else labels.headD ⟨none, none⟩
    let labels := if t.isExtra then labels else labels.tail
    nodesBefore place label.rename (label.field <|> field)
      (childrenBefore (place + t.total) field rest labels ts) t

end

def view? (t : Tree) : Option Node := (nodesBefore .zero none none [] t).head?

end Tree

def concrete? (src : Source) : Option Node := (parse src).bind Tree.view?

end FunctionLength.Parsing
