import FunctionLength.Python.Lexer

namespace FunctionLength.Parsing
open FunctionLength.Text FunctionLength.Grammar FunctionLength.Python

/-- What a tree stands for: a symbol of the grammar, text that was given up, or a run of such text that
may still grow. -/
inductive Tag where
  | symbol (n : Nat)
  | error
  | errorRun
  deriving DecidableEq, Repr, Inhabited

namespace Tag

def rank : Tag → Nat
  | symbol n => n
  | errorRun => 65534
  | error => 65535

def isVisible : Tag → Bool
  | error => true
  | errorRun => false
  | symbol n =>
    match Vocabulary.terminals[n]? with
    | some t => t.isVisible
    | none =>
      !table.isHiddenHelper n && !grammar.groups.contains (table.names.getD (n - table.terminalCount) "")

end Tag

structure Prices where
  recovery : Nat := 500
  missing : Nat := 110
  skippedTree : Nat := 100
  skippedByte : Nat := 1
  skippedRow : Nat := 30

def prices : Prices := {}

structure Info where
  tag : Tag
  padding : Extent
  size : Extent
  reduction : Option Nat := none
  extra : Bool := false
  missing : Bool := false
  visible : Bool
  cost : Nat := 0
  weight : Int := 0
  visibleChildren : Nat := 0
  visibleDescendants : Nat := 0
  layout : Option Layout := none
  layoutChanged : Bool := false
  keyword : Bool := false
  deriving Inhabited

inductive Tree where
  | mk (info : Info) (children : List Tree)
  deriving Inhabited

namespace Tree

def info : Tree → Info
  | mk info _ => info

def children : Tree → List Tree
  | mk _ children => children

def tag (t : Tree) : Tag := t.info.tag
def isLeaf (t : Tree) : Bool := t.children.isEmpty
def isExtra (t : Tree) : Bool := t.info.extra
def isError (t : Tree) : Bool := t.tag == .error
def cost (t : Tree) : Nat := t.info.cost
def weight (t : Tree) : Int := t.info.weight
def layout (t : Tree) : Option Layout := t.info.layout

def total (t : Tree) : Extent := t.info.padding + t.info.size

def modifyInfo (f : Info → Info) : Tree → Tree
  | mk info children => mk (f info) children

def asExtra (extra : Bool) (t : Tree) : Tree := t.modifyInfo fun i => { i with extra }

def ofToken (place : Extent) (t : Token) : Tree :=
  let tag := t.terminal.elim Tag.error Tag.symbol
  mk { tag, padding := t.start - place, size := t.finish - t.start
       extra := t.terminal == some Lexer.finishNumber, visible := tag.isVisible
       layout := t.layout, layoutChanged := t.layoutChanged, keyword := t.keyword } []

def missing (terminal : Nat) : Tree :=
  mk { tag := .symbol terminal, padding := .zero, size := .zero, missing := true
       visible := (Tag.symbol terminal).isVisible, cost := prices.missing + prices.recovery } []

def asPlainWord (t : Tree) : Tree :=
  t.modifyInfo fun i => { i with tag := .symbol Vocabulary.lexicon.plainWord, visible := true }

/-- The number of nodes that a tree adds to what was read. A run of skipped text counts as one. -/
def nodeCount (t : Tree) : Nat :=
  t.info.visibleDescendants + (if t.info.visible then 1 else 0) + (if t.tag == .errorRun then 1 else 0)

def account (faulty shown : Bool) (parent : Info) (child : Tree) : Info :=
  let c := child.info
  let inherited := if c.tag == .errorRun then 0 else c.cost
  let skipped :=
    if !faulty || c.extra || (child.isError && child.isLeaf) then 0
    else if c.visible then prices.skippedTree
    else prices.skippedTree * c.visibleChildren
  let appears := shown || c.visible
  { parent with
    cost := parent.cost + inherited + skipped
    weight := parent.weight + c.weight
    visibleDescendants := parent.visibleDescendants + c.visibleDescendants + (if appears then 1 else 0)
    visibleChildren := parent.visibleChildren + (if appears then 1 else c.visibleChildren)
    layout := c.layout <|> parent.layout }

/-- Children with the labels of their places; what may stand anywhere takes no place. -/
def withLabels : List Label → List Tree → List (Label × Tree)
  | _, [] => []
  | [], t :: ts => (⟨none, none⟩, t) :: withLabels [] ts
  | l :: ls, t :: ts =>
    if t.isExtra then (⟨none, none⟩, t) :: withLabels (l :: ls) ts else (l, t) :: withLabels ls ts

def labelsOf (reduction : Option Nat) : List Label :=
  reduction.elim [] fun r => (table.reductions.getD r default).labels

def node (tag : Tag) (reduction : Option Nat) (children : List Tree) : Tree :=
  let faulty := tag == .error || tag == .errorRun
  let padding := children.head?.elim Extent.zero (·.info.padding)
  let size :=
    match children with
    | [] => Extent.zero
    | first :: rest => rest.foldl (fun size t => size + t.total) first.info.size
  let blank : Info := { tag, reduction, padding, size, visible := tag.isVisible }
  let info := (withLabels (labelsOf reduction) children).foldl
    (fun info (label, t) => account faulty label.rename.isSome info t) blank
  let damage :=
    if faulty then
      prices.recovery + prices.skippedByte * size.bytes + prices.skippedRow * size.rows
    else 0
  mk { info with cost := info.cost + damage } children

mutual

def compare : Tree → Tree → Ordering
  | mk a as, mk b bs =>
    (Ord.compare a.tag.rank b.tag.rank).then
      ((Ord.compare as.length bs.length).then (compareAll as bs))

def compareAll : List Tree → List Tree → Ordering
  | a :: as, b :: bs => (compare a b).then (compareAll as bs)
  | _, _ => .eq

end

def isBetter (a b : Tree) : Bool :=
  if a.cost ≠ b.cost then b.cost < a.cost
  else if a.weight ≠ b.weight then a.weight < b.weight
  else 0 < a.cost || compare a b == .gt

def similar (a b : Tree) : Bool :=
  a.tag == b.tag &&
    (0 < a.cost && 0 < b.cost ||
      a.info.padding.bytes == b.info.padding.bytes && a.info.size.bytes == b.info.size.bytes &&
        a.children.length == b.children.length && a.isExtra == b.isExtra &&
        leafLayout a == leafLayout b)
where
  leafLayout (t : Tree) : Option Layout := if t.isLeaf then t.layout else none

def splitTrailingExtras (trees : List Tree) : List Tree × List Tree :=
  let extras := trees.reverse.takeWhile isExtra
  (trees.take (trees.length - extras.length), extras.reverse)

end Tree
end FunctionLength.Parsing
