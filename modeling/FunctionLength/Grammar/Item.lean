import FunctionLength.Grammar.Production

/-!
Items: productions of which a part has been read. Two items that will act alike from here on, and whose
completion leaves the same node, are one item.
-/

namespace FunctionLength.Grammar

/-- How the children of a node appear: under another name, with a label, or both. -/
structure Label where
  rename : Option Rename
  field : Option String
  deriving DecidableEq, Hashable, Repr, Inhabited

structure Reduction where
  head : Nat
  count : Nat
  weight : Int
  labels : List Label
  deriving DecidableEq, Hashable, Repr, Inhabited

structure ItemKey where
  reduction : Reduction
  dot : Nat
  precedence : Option Int
  associativity : Option Associativity
  rest : List (Step Nat)
  deriving DecidableEq, Hashable, Inhabited

namespace ItemKey

def ofProduction (p : Production) (dot : Nat) : ItemKey :=
  let steps := p.steps.toList
  let last := if dot = 0 then none else steps[dot - 1]?
  { reduction := ⟨p.head, steps.length, p.weight,
      (steps.take dot).map fun s => ⟨s.rename, s.field⟩⟩
    dot := dot
    precedence := last.bind (·.precedence)
    associativity := last.bind (·.associativity)
    rest := steps.drop dot }

end ItemKey

structure Item where
  key : ItemKey
  next : Option Nat
  follow : Option Nat
  successor : Nat
  deriving Inhabited

structure Items where
  symbolCount : Nat
  terminalCount : Nat
  items : Array Item
  starts : Array (List Nat)
  goal : Nat

/-- Sets of terminals are kept as numbers: terminal `t` is in the set if bit `t` is one. -/
abbrev TokenSet := Nat

namespace TokenSet

def singleton (t : Nat) : TokenSet := 1 <<< t

def contains (s : TokenSet) (t : Nat) : Bool := s.testBit t

def wordMembers (word : UInt64) (base : Nat) : List Nat :=
  if word = 0 then []
  else (List.range 64).filterMap fun n =>
    if (word >>> n.toUInt64) &&& 1 = 1 then some (base + n) else none

def members (s : TokenSet) (bound : Nat) : List Nat :=
  (List.range ((bound + 63) / 64)).flatMap fun n => wordMembers (s >>> (64 * n)).toUInt64 (64 * n)

end TokenSet

namespace Productions

/-- The productions with one more, whose only part is the whole text, for the symbol after all others. -/
def withGoal (p : Productions) : List Production :=
  ⟨p.terminalCount + p.names.size, #[{ symbol := p.terminalCount }], 0⟩ :: p.productions.toList

def items (p : Productions) : Items := Id.run do
  let all := p.withGoal.toArray
  let symbolCount := p.terminalCount + p.names.size + 1
  let mut byHead : Array (Array Production) := Array.replicate symbolCount #[]
  for production in all do
    byHead := byHead.modify production.head (·.push production)
  let mut numbers : Std.HashMap ItemKey Nat := {}
  let mut keys : Array ItemKey := #[]
  let mut starts : Array (List Nat) := Array.replicate symbolCount []
  let goalHead := symbolCount - 1
  for head in goalHead :: (List.range goalHead).drop p.terminalCount do
    let group := byHead[head]!
    let longest := group.foldl (fun n q => max n q.steps.size) 0
    for dot in [0:longest + 1] do
      for production in group do
        if dot ≤ production.steps.size then
          let key := ItemKey.ofProduction production dot
          unless numbers.contains key do
            numbers := numbers.insert key keys.size
            if dot = 0 then
              starts := starts.modify head (· ++ [keys.size])
            keys := keys.push key
  let successor (key : ItemKey) : Nat :=
    match key.rest with
    | [] => 0
    | s :: rest =>
      numbers.getD { key with
        reduction := { key.reduction with labels := key.reduction.labels ++ [⟨s.rename, s.field⟩] },
        dot := key.dot + 1,
        precedence := s.precedence,
        associativity := s.associativity,
        rest := rest } 0
  let items := keys.map fun key =>
    { key := key, next := key.rest.head?.map (·.symbol), follow := key.rest[1]?.map (·.symbol)
      successor := successor key : Item }
  return { symbolCount, terminalCount := p.terminalCount, items, starts
           goal := (starts[goalHead]!).headD 0 }

end Productions

namespace Items

/-- The terminals that can begin each symbol. No symbol but the whole text can be empty, so the first
part of a production decides. -/
def firstSets (g : Items) : Array TokenSet := Id.run do
  let mut first : Array TokenSet :=
    (Array.range g.symbolCount).map fun s => if s < g.terminalCount then TokenSet.singleton s else 0
  for _ in [0:g.symbolCount] do
    for s in [g.terminalCount:g.symbolCount] do
      let set := (g.starts[s]!).foldl (fun set i =>
        match g.items[i]!.next with
        | some next => set ||| first[next]!
        | none => set) first[s]!
      first := first.set! s set
  return first

/-- What one symbol that is expected next adds to a state: an item, the terminals that can follow it
whatever follows the symbol, and whether all that can follow the symbol can follow it too. -/
structure Addition where
  item : Nat
  fixed : TokenSet
  inherits : Bool
  deriving Inhabited

def additions (g : Items) (first : Array TokenSet) : Array (Array Addition) :=
  (Array.range g.symbolCount).map fun symbol => Id.run do
    if symbol < g.terminalCount then return #[]
    let mut reached : Array (Option (TokenSet × Bool)) := Array.replicate g.symbolCount none
    reached := reached.set! symbol (some (0, true))
    let mut pending := [symbol]
    for _ in [0:g.symbolCount * g.symbolCount] do
      match pending with
      | [] => break
      | s :: others =>
        pending := others
        let (fixed, inherits) := (reached[s]!).getD (0, false)
        for i in g.starts[s]! do
          let item := g.items[i]!
          if let some next := item.next then
            if g.terminalCount ≤ next then
              let (fixed', inherits') :=
                match item.follow with
                | some f => (first[f]!, false)
                | none => (fixed, inherits)
              let before := reached[next]!
              let (oldFixed, oldInherits) := before.getD (0, false)
              let after := (oldFixed ||| fixed', oldInherits || inherits')
              unless before == some after do
                reached := reached.set! next (some after)
                pending := next :: pending
    let mut result := #[]
    for s in [g.terminalCount:g.symbolCount] do
      if let some (fixed, inherits) := reached[s]! then
        for i in g.starts[s]! do
          result := result.push ⟨i, fixed, inherits⟩
    return result

end Items
end FunctionLength.Grammar
