import FunctionLength.Text.Glyph

namespace FunctionLength.Syntax
open FunctionLength.Text

inductive Fault where
  | error
  | missing
  deriving DecidableEq, Repr

structure Node.Info where
  kind : String
  /-- Whether the part has a name of its own, unlike punctuation and keywords. -/
  named : Bool
  fault : Option Fault := none
  /-- The role that the part has in its parent. -/
  field : Option String := none
  start : Extent
  finish : Extent
  deriving DecidableEq, Repr

inductive Node where
  | mk (info : Node.Info) (children : List Node)
  deriving Repr

namespace Node

def info : Node → Info
  | mk info _ => info

def children : Node → List Node
  | mk _ children => children

def kind (n : Node) : String := n.info.kind
def isNamed (n : Node) : Bool := n.info.named
def startRow (n : Node) : Nat := n.info.start.rows

def child? (n : Node) (field : String) : Option Node :=
  n.children.find? fun c => c.info.field == some field

def text (n : Node) (src : Source) : String := src.slice n.info.start.glyphs n.info.finish.glyphs

@[simp] theorem sizeOf_lt_of_mem {n c : Node} (h : c ∈ n.children) : sizeOf c < sizeOf n := by
  cases n with
  | mk info children =>
    have := List.sizeOf_lt_of_mem h
    simp only [Node.children, Node.mk.sizeOf_spec] at this ⊢
    omega

mutual

/-- The first part with a property, a part being looked at before what it consists of. -/
def find? (p : Info → Bool) : Node → Option Node
  | mk info children => if p info then some (mk info children) else findIn? p children

def findIn? (p : Info → Bool) : List Node → Option Node
  | [] => none
  | n :: rest => (find? p n).or (findIn? p rest)

end

end Node
end FunctionLength.Syntax
