import FunctionLength.Parsing.Tree

/-!
Several readings of one text at once. Their stacks share what they have in common: a vertex stands for a
state of the parser after some text, and each of its links for one way to have come there.
-/

namespace FunctionLength.Parsing
open FunctionLength.Text FunctionLength.Grammar FunctionLength.Python

structure Limits where
  links : Nat := 8
  probes : Nat := 64
  readings : Nat := 6
  /-- Readings that may come up in addition while a token is taken. -/
  overflow : Nat := 4
  depth : Nat := 16
  /-- The difference from which on a reading is given up. -/
  gap : Nat := 1800

def limits : Limits := {}

/-- A way into a vertex: the vertex before, and the tree between the two. A link without a tree opens a
repair. -/
structure Link where
  source : Nat
  tree : Option Tree
  deriving Inhabited

namespace Link

def cost (l : Link) : Nat := l.tree.elim 0 Tree.cost
def weight (l : Link) : Int := l.tree.elim 0 Tree.weight
def nodes (l : Link) : Nat := l.tree.elim 0 Tree.nodeCount

def similar (a b : Link) : Bool :=
  match a.tree, b.tree with
  | some t, some u => t.similar u
  | none, none => true
  | _, _ => false

end Link

structure Vertex where
  state : Nat
  place : Extent
  links : List Link
  cost : Nat
  nodes : Nat
  weight : Int
  deriving Inhabited

inductive Status where
  | active
  | paused (token : Tree)
  | halted
  deriving Inhabited

namespace Status

def isActive : Status → Bool
  | active => true
  | _ => false

def isPaused : Status → Bool
  | paused _ => true
  | _ => false

def isHalted : Status → Bool
  | halted => true
  | _ => false

end Status

structure Landmark where
  place : Extent
  depth : Nat
  state : Nat

structure Reading where
  vertex : Nat
  nodesAtRepair : Nat
  layout : Option Layout
  status : Status := .active
  landmarks : List Landmark := []
  deriving Inhabited

structure Stack where
  vertices : Array Vertex
  readings : Array Reading
  deriving Inhabited

namespace Stack

def initial : Stack where
  vertices := #[{ state := 1, place := .zero, links := [], cost := 0, nodes := 0, weight := 0 }]
  readings := #[{ vertex := 0, nodesAtRepair := 0, layout := none }]

def vertex (s : Stack) (n : Nat) : Vertex := s.vertices.getD n default
def reading (s : Stack) (r : Nat) : Reading := s.readings.getD r default
def top (s : Stack) (r : Nat) : Vertex := s.vertex (s.reading r).vertex
def state (s : Stack) (r : Nat) : Nat := (s.top r).state
def place (s : Stack) (r : Nat) : Extent := (s.top r).place
def count (s : Stack) : Nat := s.readings.size

def modifyReading (s : Stack) (r : Nat) (f : Reading → Reading) : Stack :=
  { s with readings := s.readings.modify r f }

def modifyVertex (s : Stack) (n : Nat) (f : Vertex → Vertex) : Stack :=
  { s with vertices := s.vertices.modify n f }

def halt (s : Stack) (r : Nat) : Stack := s.modifyReading r fun x => { x with status := .halted }

def pause (s : Stack) (r : Nat) (token : Tree) : Stack :=
  let nodes := (s.top r).nodes
  s.modifyReading r fun x => { x with status := .paused token, nodesAtRepair := nodes }

def resume (s : Stack) (r : Nat) : Stack := s.modifyReading r fun x => { x with status := .active }

def setLayout (s : Stack) (r : Nat) (t : Tree) : Stack :=
  match t.layout with
  | none => s
  | some layout => s.modifyReading r fun x => { x with layout := some layout }

def remove (s : Stack) (r : Nat) : Stack :=
  { s with readings := s.readings.eraseIdxIfInBounds r }

def swap (s : Stack) (a b : Nat) : Stack :=
  { s with readings := s.readings.swapIfInBounds a b }

def fork (s : Stack) (r n : Nat) : Stack :=
  let past := s.reading r
  let new := { vertex := n, nodesAtRepair := past.nodesAtRepair, layout := past.layout }
  { s with readings := s.readings.push new }

def replace (s : Stack) (a b : Nat) : Stack :=
  let landmarks := (s.reading b).landmarks
  let source := s.reading a
  let landmarks := if source.landmarks.isEmpty then landmarks else source.landmarks
  if a = b then s
  else (s.modifyReading b fun _ => { source with landmarks }).remove a

def pushLink (s : Stack) (r : Nat) (tree : Option Tree) (state : Nat) : Stack :=
  let source := (s.reading r).vertex
  let below := s.vertex source
  let link : Link := { source, tree }
  let vertex : Vertex :=
    { state, links := [link]
      place := tree.elim below.place (below.place + ·.total)
      cost := below.cost + link.cost
      nodes := below.nodes + link.nodes
      weight := below.weight + link.weight }
  let n := s.vertices.size
  let s := { s with vertices := s.vertices.push vertex }
  s.modifyReading r fun x =>
    { x with vertex := n, nodesAtRepair := if tree.isNone then vertex.nodes else x.nodesAtRepair }

def push (s : Stack) (r : Nat) (tree : Tree) (state : Nat) : Stack := s.pushLink r (some tree) state

def pushAll (s : Stack) (r : Nat) (trees : List Tree) (state : Nat) : Stack :=
  trees.foldl (fun s t => s.push r t state) s

/-- Adds a way into a vertex. Where a similar way is known the two are joined: the heavier tree stays, and
the ways into their sources become ways into one. The first argument bounds how far down that goes. -/
def addLink : Nat → Stack → Nat → Link → Stack
  | 0, s, _, _ => s
  | fuel + 1, s, n, link =>
    if link.source = n then s
    else
      let self := s.vertex n
      let source := s.vertex link.source
      let joins (old : Link) : Bool :=
        old.similar link &&
          (old.source == link.source ||
            let v := s.vertex old.source
            v.state == source.state && v.place.bytes == source.place.bytes && v.cost == source.cost)
      let weight := source.weight + link.weight
      match self.links.findIdx? joins with
      | some i =>
        let old := self.links.getD i default
        if old.source = link.source then
          if old.weight < link.weight then
            s.modifyVertex n fun v => { v with links := v.links.set i link, weight }
          else s
        else
          let s := source.links.foldl (fun s l => addLink fuel s old.source l) s
          s.modifyVertex n fun v => { v with weight := max v.weight weight }
      | none =>
        if self.links.length = limits.links then s
        else
          s.modifyVertex n fun v =>
            { v with
              links := v.links ++ [link]
              nodes := max v.nodes (source.nodes + link.nodes)
              weight := max v.weight weight }

def canMerge (s : Stack) (a b : Nat) : Bool :=
  let x := s.reading a
  let y := s.reading b
  let v := s.vertex x.vertex
  let w := s.vertex y.vertex
  x.status.isActive && y.status.isActive && v.state == w.state && v.place.bytes == w.place.bytes &&
    v.cost == w.cost && x.layout == y.layout

def merge (s : Stack) (a b : Nat) : Stack :=
  let n := (s.reading a).vertex
  let links := (s.top b).links
  let s := links.foldl (fun s l => addLink (s.vertices.size + 1) s n l) s
  let v := s.vertex n
  let s := if v.state = 0 then s.modifyReading a fun x => { x with nodesAtRepair := v.nodes } else s
  s.remove b

def twin? (s : Stack) (rs : List Nat) (r : Nat) : Option Nat := rs.find? (s.canMerge · r)

/-- A way back from the top of a reading: where it has come to, the trees passed, and their number. -/
structure Probe where
  vertex : Nat
  trees : List Tree
  count : Nat

namespace Probe

def along (p : Probe) (l : Link) : Probe where
  vertex := l.source
  trees := l.tree.elim p.trees (· :: p.trees)
  count := p.count + if l.tree.any Tree.isExtra then 0 else 1

end Probe

abbrev Slices := List (Nat × List (List Tree))

/-- One step back along every probe. A probe that `visit` stops is dropped; at a fork the first way is
taken in place, and the others are put behind all probes. -/
def stepBack (s : Stack) {σ : Type} (visit : Probe → σ → Bool × σ) :
    List Probe → (kept forked : List Probe) → (alive : Nat) → σ → List Probe × σ
  | [], kept, forked, _, out => (kept.reverse ++ forked.reverse, out)
  | p :: rest, kept, forked, alive, out =>
    let (stop, out) := visit p out
    match stop, (s.vertex p.vertex).links with
    | false, first :: others =>
      let new := (others.take (limits.probes - alive)).map p.along
      stepBack s visit rest (p.along first :: kept) (new.reverse ++ forked) (alive + new.length) out
    | _, _ => stepBack s visit rest kept forked (alive - 1) out

def walkBack (s : Stack) {σ : Type} (visit : Probe → σ → Bool × σ) : Nat → List Probe → σ → σ
  | 0, _, out => out
  | _, [], out => out
  | fuel + 1, probes, out =>
    let (probes, out) := s.stepBack visit probes [] [] probes.length out
    walkBack s visit fuel probes out

def walkBackFrom (s : Stack) (r : Nat) {σ : Type} (visit : Probe → σ → Bool × σ) (out : σ) : σ :=
  s.walkBack visit (s.vertices.size + 1) [⟨(s.reading r).vertex, [], 0⟩] out

def Slices.add (slices : Slices) (p : Probe) : Slices :=
  if slices.any (·.1 == p.vertex) then
    slices.map fun (n, rows) => if n = p.vertex then (n, rows ++ [p.trees]) else (n, rows)
  else slices ++ [(p.vertex, [p.trees])]

def slices (s : Stack) (r count : Nat) : Slices :=
  s.walkBackFrom r (fun p out => if p.count = count then (true, Slices.add out p) else (false, out)) []

def rows (s : Stack) (r : Nat) : List (List Tree) :=
  s.walkBackFrom r (fun p out =>
    (false, if (s.vertex p.vertex).links.isEmpty then out ++ [p.trees] else out)) []

def moveTo (s : Stack) (r n : Nat) : Stack :=
  s.modifyReading r fun x => { x with vertex := n, status := .active }

def topError? (s : Stack) (r : Nat) : Option (Tree × Nat) :=
  (s.top r).links.findSome? fun l => (l.tree.filter Tree.isError).map (·, l.source)

def isMarked (marks : List Landmark) (depth state : Nat) : Bool :=
  (marks.takeWhile fun m => depth ≤ m.depth).any fun m => m.depth == depth && m.state == state

def noteLandmarks (s : Stack) (r : Nat) : Stack :=
  let marks := s.walkBackFrom r (fun p marks =>
    let v := s.vertex p.vertex
    if limits.depth < p.count then (true, marks)
    else if isMarked marks p.count v.state then (false, marks)
    else (false, { place := v.place, depth := p.count, state := v.state } :: marks)) []
  s.modifyReading r fun x => { x with landmarks := marks.reverse }

/-- Whether the text below a vertex has grown since a repair at which `nodes` had been read. -/
def hasAdvanced (s : Stack) (nodes : Nat) : Nat → Nat → Bool
  | 0, _ => false
  | fuel + 1, n =>
    let v := s.vertex n
    match v.links with
    | { source, tree := some t } :: _ =>
      0 < t.total.bytes || (nodes < v.nodes && t.cost = 0 && hasAdvanced s nodes fuel source)
    | _ => false

def advancedSinceRepair (s : Stack) (r : Nat) : Bool :=
  let x := s.reading r
  (s.vertex x.vertex).cost = 0 || s.hasAdvanced x.nodesAtRepair (s.vertices.size + 1) x.vertex

/-- What the defects of a reading cost so far. A repair that has not taken any text yet is counted. -/
def cost (s : Stack) (r : Nat) : Nat :=
  let v := s.top r
  let opening := v.state == 0 && (v.links.head?.any fun l => l.tree.isNone)
  v.cost + if (s.reading r).status.isPaused || opening then prices.recovery else 0

/-- Nodes taken off the stack no longer count as read at the last repair. -/
def settle (s : Stack) (r : Nat) : Stack :=
  let nodes := (s.top r).nodes
  s.modifyReading r fun x => { x with nodesAtRepair := min x.nodesAtRepair nodes }

def nodesSinceRepair (s : Stack) (r : Nat) : Nat := (s.top r).nodes - (s.reading r).nodesAtRepair

structure Standing where
  cost : Nat
  nodes : Nat
  weight : Int
  inRepair : Bool

def standing (s : Stack) (r : Nat) : Standing where
  cost := s.cost r + if (s.reading r).status.isPaused then prices.skippedTree else 0
  nodes := s.nodesSinceRepair r
  weight := (s.top r).weight
  inRepair := (s.reading r).status.isPaused || s.state r == 0

inductive Preference where
  | takeFirst
  | preferFirst
  | neither
  | preferSecond
  | takeSecond
  deriving DecidableEq

def Standing.compare (a b : Standing) : Preference :=
  match a.inRepair, b.inRepair with
  | false, true => if a.cost < b.cost then .takeFirst else .preferFirst
  | true, false => if b.cost < a.cost then .takeSecond else .preferSecond
  | _, _ =>
    if a.cost < b.cost then
      if limits.gap < (b.cost - a.cost) * (1 + a.nodes) then .takeFirst else .preferFirst
    else if b.cost < a.cost then
      if limits.gap < (a.cost - b.cost) * (1 + b.nodes) then .takeSecond else .preferSecond
    else if b.weight < a.weight then .preferFirst
    else if a.weight < b.weight then .preferSecond
    else .neither

end Stack
end FunctionLength.Parsing
