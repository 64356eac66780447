import FunctionLength.Grammar.Rule
import Std.Data.HashMap

/-!
From rules to productions: every choice is taken apart, every repetition gets a symbol of its own, and
the symbols are numbered, terminals first.
-/

namespace FunctionLength.Grammar

/-- One part of a production. `precedence` and `associativity` speak for the production once this part
has been read. -/
structure Step (σ : Type) where
  symbol : σ
  precedence : Option Int := none
  associativity : Option Associativity := none
  rename : Option Rename := none
  field : Option String := none
  deriving DecidableEq, Hashable, Repr, Inhabited

inductive Part (τ : Type) where
  | token (t : τ)
  | call (name : String)
  | loop (item : Rule τ)
  deriving DecidableEq, Hashable, Repr

structure Alternative (σ : Type) where
  steps : List (Step σ)
  weight : Int := 0
  deriving DecidableEq, Repr

namespace Alternative
variable {σ : Type}

def heavier (v w : Int) : Int := if v.natAbs < w.natAbs then w else v

def append (a b : Alternative σ) : Alternative σ :=
  ⟨a.steps ++ b.steps, heavier a.weight b.weight⟩

def modifyLast (f : Step σ → Step σ) : List (Step σ) → List (Step σ)
  | [] => []
  | [s] => [f s]
  | s :: rest => s :: modifyLast f rest

end Alternative

namespace Rule
variable {τ : Type}

/-- The ways to read a rule. `context` holds what the rules around it say about its parts; a precedence
reaches beyond the end of its rule only if that is also the end of everything, as `atEnd` says. -/
def alternatives (context : Step Unit) (atEnd : Bool) : Rule τ → List (Alternative (Part τ))
  | blank => [⟨[], 0⟩]
  | token t => [⟨[{ context with symbol := .token t }], 0⟩]
  | call name => [⟨[{ context with symbol := .call name }], 0⟩]
  | many a => [⟨[{ context with symbol := .loop a }], 0⟩]
  | seq a b =>
    (a.alternatives context false).flatMap fun x =>
      (b.alternatives context atEnd).map fun y => x.append y
  | alt a b => a.alternatives context atEnd ++ b.alternatives context atEnd
  | prec level associativity a =>
    let inner : Step Unit :=
      { context with precedence := some level, associativity := associativity <|> context.associativity }
    let close (s : Step (Part τ)) : Step (Part τ) :=
      { s with
        precedence := context.precedence,
        associativity := if associativity.isSome then context.associativity else s.associativity }
    (a.alternatives inner atEnd).map fun x =>
      if atEnd then x else { x with steps := Alternative.modifyLast close x.steps }
  | weight w a =>
    (a.alternatives context atEnd).map fun x => { x with weight := Alternative.heavier w x.weight }
  | shownAs rename a => a.alternatives { context with rename := some rename } atEnd
  | field label a => a.alternatives { context with field := some label } atEnd

end Rule

def Alternative.fill {τ : Type} (s : Step (Part τ)) (a : Alternative (Part τ)) : Alternative (Part τ) :=
  let label (t : Step (Part τ)) : Step (Part τ) :=
    { t with rename := s.rename <|> t.rename, field := s.field <|> t.field }
  let close (t : Step (Part τ)) : Step (Part τ) :=
    { t with
      precedence := t.precedence <|> s.precedence,
      associativity := t.associativity <|> s.associativity }
  { a with steps := Alternative.modifyLast close (a.steps.map label) }

def Alternative.copyIn {τ : Type} (bodies : String → Option (List (Alternative (Part τ)))) :
    List (Step (Part τ)) → List (Alternative (Part τ))
  | [] => [⟨[], 0⟩]
  | s :: rest =>
    let heads : List (Alternative (Part τ)) :=
      match s.symbol with
      | .call name => (bodies name).elim [⟨[s], 0⟩] (·.map (Alternative.fill s))
      | _ => [⟨[s], 0⟩]
    heads.flatMap fun x => (copyIn bodies rest).map fun y => x.append y

structure Production where
  head : Nat
  steps : Array (Step Nat)
  weight : Int
  deriving Inhabited

/-- The productions of a grammar. Symbols below `terminalCount` are terminals; the one at
`terminalCount` is the whole text. `loops` tells the symbols of repetitions. -/
structure Productions where
  terminalCount : Nat
  names : Array String
  loops : Array Bool
  productions : Array Production

variable {τ : Type} [DecidableEq τ] [Hashable τ]

def compounds (g : Grammar τ) : List (Part τ × String × List (Alternative (Part τ))) :=
  let plain := { symbol := () : Step Unit }
  let bodies (name : String) : Option (List (Alternative (Part τ))) :=
    if g.copied.contains name then (g.rules.lookup name).map (·.alternatives plain true) else none
  let readings (alternatives : List (Alternative (Part τ))) : List (Alternative (Part τ)) :=
    (alternatives.flatMap fun a => (Alternative.copyIn bodies a.steps).map fun b =>
      { b with weight := Alternative.heavier a.weight b.weight }).eraseDups
  let rules := (g.rules.filter fun (name, _) => !g.copied.contains name).map fun (name, rule) =>
    (Part.call name, name, readings (rule.alternatives plain true))
  let items := (g.rules.flatMap fun (_, rule) => rule.repeated).eraseDups
  let loops := items.map fun item =>
    let self := { symbol := Part.loop item : Step (Part τ) }
    (Part.loop item, "", ⟨[self, self], 0⟩ :: readings (item.alternatives plain true))
  rules ++ loops

def toProductions (g : Grammar τ) : Productions :=
  let compounds := g.compounds
  let count := g.terminals.size
  let numbers : Std.HashMap (Part τ) Nat :=
    (g.terminals.toList.map Part.token ++ compounds.map (·.1)).zipIdx.foldl
      (fun m (part, n) => m.insert part n) {}
  let number (s : Step (Part τ)) : Step Nat := { s with symbol := numbers.getD s.symbol 0 }
  { terminalCount := count
    names := (compounds.map fun (_, name, _) => name).toArray
    loops := (compounds.map fun (part, _, _) => part matches .loop _).toArray
    productions := (compounds.zipIdx.flatMap fun ((_, _, readings), n) =>
      readings.map fun a => ⟨count + n, (a.steps.map number).toArray, a.weight⟩).toArray }

end FunctionLength.Grammar
