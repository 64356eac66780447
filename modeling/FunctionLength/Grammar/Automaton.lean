import FunctionLength.Grammar.Item

/-!
The automaton that reads a grammar from left to right with one token of lookahead. A state is a set of
items, each with the terminals that may follow it. Where a state could go on in more than one way,
precedence and associativity decide; what they leave open stays open.
-/

namespace FunctionLength.Grammar

inductive Action where
  | shift (state : Nat)
  /-- Go on with a repetition whose parts so far could also be joined first. Never taken. -/
  | shiftAgain (state : Nat)
  | reduce (reduction : Nat)
  | accept
  | pass
  | recover
  deriving DecidableEq, Repr, Inhabited

/-- A table of actions by state and terminal, and of states by state and symbol. State 0 is that of
repair, state 1 the first. -/
structure Table where
  terminalCount : Nat
  reductions : Array Reduction
  /-- Whether a symbol belongs to a repetition, by its place among the symbols that are no terminals. -/
  loops : Array Bool
  names : Array String
  actions : Array (Array (List Action))
  /-- State 0 where there is no way to go. -/
  gotos : Array (Array Nat)

namespace Table

def actionsOf (t : Table) (state symbol : Nat) : List Action :=
  (t.actions.getD state #[]).getD symbol []

def goto (t : Table) (state symbol : Nat) : Nat :=
  (t.gotos.getD state #[]).getD (symbol - t.terminalCount) 0

/-- The state after a symbol: for a terminal that of the last action, if it is a shift. -/
def nextState (t : Table) (state symbol : Nat) : Nat :=
  if symbol < t.terminalCount then
    match (t.actionsOf state symbol).getLast? with
    | some (.shift next) | some (.shiftAgain next) => next
    | some .pass => state
    | _ => 0
  else t.goto state symbol

def expected (t : Table) (state : Nat) : TokenSet :=
  (t.actions.getD state #[]).zipIdx.foldl
    (fun set (actions, n) => if actions.isEmpty then set else set ||| TokenSet.singleton n) 0

end Table

namespace Automaton

/-- The items from which a state is built, in order, each with what may follow it. -/
abbrev Kernel := List (Nat × TokenSet)

def Kernel.insert (item : Nat) (follow : TokenSet) : Kernel → Kernel
  | [] => [(item, follow)]
  | (i, set) :: rest =>
    if item < i then (item, follow) :: (i, set) :: rest
    else if item = i then (i, set ||| follow) :: rest
    else (i, set) :: Kernel.insert item follow rest

structure Prepared where
  items : Items
  first : Array TokenSet
  additions : Array (Array Items.Addition)
  loops : Array Bool
  reductions : Array Reduction
  reductionOf : Array Nat

def prepare (p : Productions) : Prepared := Id.run do
  let items := p.items
  let first := items.firstSets
  let mut numbers : Std.HashMap Reduction Nat := {}
  let mut reductions : Array Reduction := #[]
  let mut reductionOf : Array Nat := #[]
  for item in items.items do
    let reduction := item.key.reduction
    if item.next.isSome then
      reductionOf := reductionOf.push 0
    else match numbers[reduction]? with
      | some n => reductionOf := reductionOf.push n
      | none =>
        reductionOf := reductionOf.push reductions.size
        numbers := numbers.insert reduction reductions.size
        reductions := reductions.push reduction
  return { items, first, additions := items.additions first, loops := p.loops, reductions, reductionOf }

namespace Prepared

/-- All items of the state with the given kernel: entry `i` is the set of terminals that may follow item
`i`, and is empty for an item that is not in the state. -/
def closure (g : Prepared) (kernel : Kernel) : Array TokenSet := Id.run do
  let mut follow : Array TokenSet := Array.replicate g.items.items.size 0
  for (i, set) in kernel do
    follow := follow.set! i (follow[i]! ||| set)
  for (i, set) in kernel do
    let item := g.items.items[i]!
    if let some next := item.next then
      let after := item.follow.elim set (g.first[·]!)
      for a in g.additions[next]! do
        follow := follow.modify a.item (· ||| a.fixed ||| (if a.inherits then after else 0))
  return follow

def isLoop (g : Prepared) (symbol : Nat) : Bool :=
  g.items.terminalCount ≤ symbol && g.loops.getD (symbol - g.items.terminalCount) false

def precedenceOf (g : Prepared) (i : Nat) : Int := (g.items.items[i]!.key.precedence).getD 0

end Prepared

structure Completion where
  precedence : Int
  reductions : List Nat
  associativities : List (Option Associativity)

/-- A further finished item: of several precedences only the highest counts. -/
def Completion.add (precedence : Int) (reduction : Nat) (associativity : Option Associativity) :
    Option Completion → Option Completion
  | none => some ⟨precedence, [reduction], [associativity]⟩
  | some c =>
    if c.precedence < precedence then some ⟨precedence, [reduction], [associativity]⟩
    else if precedence < c.precedence then some c
    else some { c with
      reductions := c.reductions ++ [reduction], associativities := c.associativities ++ [associativity] }

/-- The actions at a terminal at which items are finished while others go on to state `next`. `going` are
the items that go on there without just having begun, `done` those that are finished. -/
def resolve (g : Prepared) (c : Completion) (next : Nat) (going done : List Nat) : List Action :=
  let reduces := c.reductions.map Action.reduce
  let heads := (going ++ done).map fun i => g.items.items[i]!.key.reduction.head
  if heads.all fun h => g.isLoop h && heads.head? == some h then
    reduces ++ [.shiftAgain next]
  else
    let levels := going.map g.precedenceOf
    let above := levels.any (c.precedence < ·)
    let below := levels.any (· < c.precedence)
    if above && !below then [.shift next]
    else if below && !above then reduces
    else if above then reduces ++ [.shift next]
    else if c.associativities.all (· == some .left) then reduces
    else if c.associativities.all (· == some .right) then [.shift next]
    else reduces ++ [.shift next]

structure Search where
  numbers : Std.HashMap Kernel Nat
  kernels : Array Kernel

def Search.number (s : Search) (kernel : Kernel) : Nat × Search :=
  match s.numbers[kernel]? with
  | some n => (n, s)
  | none =>
    (s.kernels.size,
      { numbers := s.numbers.insert kernel s.kernels.size, kernels := s.kernels.push kernel })

def row (g : Prepared) (kernel : Kernel) (search : Search) :
    Array (List Action) × Array Nat × Search := Id.run do
  let items := g.items.items
  let terminalCount := g.items.terminalCount
  let follow := g.closure kernel
  let mut completions : Array (Option Completion) := Array.replicate terminalCount none
  let mut accepts := false
  let mut successors : Array Kernel := Array.replicate g.items.symbolCount []
  let mut present : Array Nat := #[]
  for i in [0:items.size] do
    let set := follow[i]!
    if set != 0 then
      present := present.push i
      let item := items[i]!
      match item.next with
      | some next => successors := successors.modify next (Kernel.insert item.successor set)
      | none =>
        if item.key.reduction.head + 1 = g.items.symbolCount then
          accepts := true
        else
          for t in TokenSet.members set terminalCount do
            completions := completions.modify t
              (Completion.add (g.precedenceOf i) g.reductionOf[i]! item.key.associativity)
  let mut search := search
  let mut actions : Array (List Action) := #[]
  for t in [0:terminalCount] do
    let completion := completions[t]!
    let successor := successors[t]!
    if successor.isEmpty then
      let reduces := completion.elim [] fun c => c.reductions.map Action.reduce
      actions := actions.push (if accepts && t = 0 then reduces ++ [.accept] else reduces)
    else
      let (next, search') := search.number successor
      search := search'
      match completion with
      | none => actions := actions.push [.shift next]
      | some c =>
        let going := present.toList.filter fun i =>
          0 < items[i]!.key.dot && items[i]!.next.any fun s => (g.first[s]!).contains t
        let done := present.toList.filter fun i => items[i]!.next.isNone && (follow[i]!).contains t
        actions := actions.push (resolve g c next going done)
  let mut gotos : Array Nat := #[]
  for s in [terminalCount:g.items.symbolCount] do
    let successor := successors[s]!
    if successor.isEmpty then
      gotos := gotos.push 0
    else
      let (next, search') := search.number successor
      search := search'
      gotos := gotos.push next
  return (actions, gotos, search)

def rows (g : Prepared) : Nat → Nat → Search → Array (Array (List Action)) → Array (Array Nat) →
    Array (Array (List Action)) × Array (Array Nat) × Search
  | 0, _, search, actions, gotos => (actions, gotos, search)
  | fuel + 1, n, search, actions, gotos =>
    match search.kernels[n]? with
    | none => (actions, gotos, search)
    | some kernel =>
      let (a, b, search) := row g kernel search
      rows g fuel (n + 1) search (actions.push a) (gotos.push b)

end Automaton

structure Automaton where
  table : Table
  cores : Array (List Nat)

def Automaton.fuel : Nat := 100000

/-- The automaton of a grammar. In the state of repair every token calls for repair except those that
may stand anywhere (`extras`) and those that are never looked for there (`unsought`). -/
def Productions.automaton (p : Productions) (extras unsought : List Nat) : Automaton :=
  let g := Automaton.prepare p
  let repair : Automaton.Kernel := []
  let start : Automaton.Kernel := [(g.items.goal, TokenSet.singleton 0)]
  let search : Automaton.Search := { numbers := {}, kernels := #[repair, start] }
  let search := { search with numbers := (search.numbers.insert repair 0).insert start 1 }
  let (actions, gotos, search) := Automaton.rows g Automaton.fuel 0 search #[] #[]
  let extra (t : Nat) : Bool := extras.contains t
  let actions := actions.zipIdx.map fun (row, state) => row.zipIdx.map fun (actions, t) =>
    if extra t then (if actions.isEmpty then [.pass] else actions)
    else if state = 0 && !unsought.contains t then [.recover]
    else actions
  { table := { terminalCount := p.terminalCount, reductions := g.reductions, loops := p.loops,
               names := p.names, actions, gotos }
    cores := search.kernels.map (·.map (·.1)) }

end FunctionLength.Grammar
