import FunctionLength.Parsing.Reduction

/-!
Repair of a text that the grammar does not allow. A reading may take a missing token as given, return to an
earlier state and count what came since as an error, or skip the token before it. Of all that the cheapest
way on is looked for.
-/

namespace FunctionLength.Parsing
open FunctionLength.Text FunctionLength.Grammar FunctionLength.Python

structure Progress where
  stack : Stack
  best : Option Tree := none
  finished : Nat := 0
  deriving Inhabited

namespace Progress

def initial : Progress := { stack := .initial }

def mapStack (p : Progress) (f : Stack → Stack) : Progress := { p with stack := f p.stack }

/-- The whole tree of a finished row: what surrounds the last tree goes into it. -/
def root? (row : List Tree) : Option Tree :=
  let extras := row.reverse.takeWhile Tree.isExtra
  match row.reverse.dropWhile Tree.isExtra with
  | [] => none
  | t :: before => some (.node t.tag t.info.reduction (before.reverse ++ t.children ++ extras.reverse))

def better (best : Option Tree) (t : Tree) : Option Tree :=
  match best with
  | none => some t
  | some b => if b.isBetter t then some t else some b

def accept (p : Progress) (r : Nat) (token : Tree) : Progress :=
  let stack := p.stack.push r token 1
  let roots := (stack.rows r).filterMap root?
  { stack := stack.halt r
    best := roots.foldl better p.best
    finished := p.finished + roots.length }

def isBeaten (r : Nat) (mine : Stack.Standing) (place : Nat) : List Nat → Stack → Bool × Stack
  | [], s => (false, s)
  | i :: rest, s =>
    if i = r || !(s.reading i).status.isActive || (s.place i).bytes < place then isBeaten r mine place rest s
    else
      let s := s.settle i
      match mine.compare (s.standing i) with
      | .takeSecond => (true, s)
      | .preferSecond => if s.canMerge i r then (true, s) else isBeaten r mine place rest s
      | _ => isBeaten r mine place rest s

def isHopeless (p : Progress) (r cost : Nat) : Bool × Progress :=
  if p.best.any fun t => t.cost ≤ cost then (true, p)
  else
    let ⟨s, best, finished⟩ := p
    let s := s.settle r
    let mine : Stack.Standing :=
      { cost, nodes := s.nodesSinceRepair r, weight := (s.top r).weight, inRepair := false }
    let (beaten, s) := isBeaten r mine (s.place r).bytes (List.range s.count) s
    (beaten, ⟨s, best, finished⟩)

end Progress

namespace Stack

/-- Returns to a state `depth` trees ago, along every way back that leads to it. What came since is an
error, together with an error right before. -/
def returnTo (s : Stack) (r depth state : Nat) : Stack :=
  (s.slices r depth).foldl (fun s (n, rows) =>
    if (s.vertex n).state ≠ state then s
    else
      let new := s.count
      let s := s.fork r n
      let (earlier, s) := match s.topError? new with
        | some (t, below) => (t.children, s.moveTo new below)
        | none => ([], s)
      let (trees, extras) := Tree.splitTrailingExtras (earlier ++ rows.headD [])
      let s :=
        if trees.isEmpty then s
        else s.push new ((Tree.node .error none trees).asExtra true) state
      s.pushAll new extras state) s

/-- Takes one of the terminals `ms` as given, so that the token can follow after some reductions. -/
def supply (r token : Nat) : List Nat → Stack → Bool × Stack
  | [], s => (false, s)
  | m :: ms, s =>
    let new := s.count
    let next := table.nextState (s.state r) m
    let s := (s.fork r (s.reading r).vertex).push new (.missing m) next
    match s.explore new (some token) with
    | (s, true) => (true, s)
    | (s, false) => supply r token ms s

def suppliable (state token : Nat) : List Nat :=
  ((List.range table.terminalCount).drop 1).filter fun m =>
    let next := table.nextState state m
    next ≠ 0 && next ≠ state &&
      match table.actionsOf next token with
      | .reduce _ :: _ => true
      | _ => false

end Stack

namespace Progress

def returnToLandmark (r symbol before nodes cost : Nat) (place : Extent) :
    List Landmark → Progress → Bool × Progress
  | [], p => (false, p)
  | l :: rest, p =>
    let redundant := (List.range before).any fun i =>
      p.stack.state i == l.state && (p.stack.place i).bytes == place.bytes
    if l.state = 0 || l.place.bytes = place.bytes || redundant then
      returnToLandmark r symbol before nodes cost place rest p
    else
      let price := cost + prices.skippedTree * l.depth +
        prices.skippedByte * (place.bytes - l.place.bytes) + prices.skippedRow * (place.rows - l.place.rows)
      match p.isHopeless r price with
      | (true, p) => (false, p)
      | (false, p) =>
        if (table.actionsOf l.state symbol).isEmpty then
          returnToLandmark r symbol before nodes cost place rest p
        else
          let ⟨s, best, finished⟩ := p
          let count := s.count
          let s := s.returnTo r (l.depth + if 0 < nodes then 1 else 0) l.state
          let p := ⟨s, best, finished⟩
          if count < p.stack.count then (true, p)
          else returnToLandmark r symbol before nodes cost place rest p

def skip (s : Stack) (r nodes : Nat) (token : Tree) : Stack :=
  let token := match token.tag with
    | .symbol n => if (table.actionsOf 1 n).getLast? = some .pass then token.asExtra true else token
    | _ => token
  let run := Tree.node .errorRun none [token]
  let (run, s) :=
    match decide (0 < nodes), s.slices r 1 with
    | true, (n, row :: _) :: _ => (Tree.node .errorRun none (row ++ [run]), s.moveTo r n)
    | _, _ => (run, s)
  (s.push r run 0).setLayout r token

def recover (p : Progress) (r : Nat) (token : Tree) : Progress :=
  let p := p.mapStack (·.settle r)
  let count := p.stack.count
  let place := p.stack.place r
  let nodes := p.stack.nodesSinceRepair r
  let cost := p.stack.cost r
  let landmarks := (p.stack.reading r).landmarks
  let (returned, p) := match token.tag with
    | .symbol n => returnToLandmark r n count nodes cost place landmarks p
    | _ => (false, p)
  if token.tag == .symbol Lexer.finishNumber then
    (p.mapStack fun s => s.push r (.node .error none []) 1).accept r token
  else if returned && (limits.readings < p.stack.count || token.info.layoutChanged) then
    p.mapStack (·.halt r)
  else
    let price := cost + prices.skippedTree + prices.skippedByte * token.total.bytes +
      prices.skippedRow * token.total.rows
    match p.isHopeless r price with
    | (true, p) => p.mapStack (·.halt r)
    | (false, p) => p.mapStack fun s => skip s r nodes token

/-- Begins the repair of a reading before a token: it is reduced as far as it goes, a missing token is
supplied where that helps, and all that is left enters the state of repair. -/
def repair (p : Progress) (r : Nat) (token : Tree) : Progress :=
  let ⟨s, best, finished⟩ := p
  let before := s.count
  let (s, _) := s.explore r none
  let new := s.count - before
  let (_, s) := (r :: List.range' before new).foldl (fun (supplied, s) i =>
    let (supplied, s) := match supplied, token.tag with
      | false, .symbol n => Stack.supply i n (Stack.suppliable (s.state i) n) s
      | _, _ => (supplied, s)
    (supplied, s.pushLink i none 0)) (false, s)
  let s := (List.range new).foldl (fun s _ => if s.canMerge r before then s.merge r before else s) s
  recover ⟨s.noteLandmarks r, best, finished⟩ r token

end Progress
end FunctionLength.Parsing
