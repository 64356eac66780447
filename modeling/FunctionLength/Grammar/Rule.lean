namespace FunctionLength.Grammar

inductive Associativity where
  | left
  | right
  deriving DecidableEq, Hashable, Repr

structure Rename where
  kind : String
  named : Bool := true
  deriving DecidableEq, Hashable, Repr

inductive Rule (τ : Type) where
  | blank
  | token (t : τ)
  | call (name : String)
  | seq (a b : Rule τ)
  | alt (a b : Rule τ)
  /-- One or more. -/
  | many (a : Rule τ)
  | prec (level : Int) (associativity : Option Associativity) (a : Rule τ)
  /-- Among several readings of one text, a higher weight is preferred. -/
  | weight (w : Int) (a : Rule τ)
  | shownAs (rename : Rename) (a : Rule τ)
  | field (label : String) (a : Rule τ)
  deriving DecidableEq, Hashable, Repr

namespace Rule
variable {τ : Type}

def sequence : List (Rule τ) → Rule τ
  | [] => blank
  | [a] => a
  | a :: rest => seq a (sequence rest)

def choice : List (Rule τ) → Rule τ
  | [] => blank
  | [a] => a
  | a :: rest => alt a (choice rest)

def optional (a : Rule τ) : Rule τ := alt a blank

def anyNumber (a : Rule τ) : Rule τ := optional (many a)

def separated (separator a : Rule τ) : Rule τ :=
  seq a (anyNumber (seq separator a))

def left (level : Int) (a : Rule τ) : Rule τ := prec level (some .left) a

def right (level : Int) (a : Rule τ) : Rule τ := prec level (some .right) a

def level (level : Int) (a : Rule τ) : Rule τ := prec level none a

def kind (name : String) (a : Rule τ) : Rule τ := shownAs ⟨name, true⟩ a

def repeated : Rule τ → List (Rule τ)
  | blank | token _ | call _ => []
  | seq a b | alt a b => a.repeated ++ b.repeated
  | many a => a.repeated ++ [a]
  | prec _ _ a | weight _ a | shownAs _ a | field _ a => a.repeated

end Rule

end FunctionLength.Grammar

namespace FunctionLength
open Grammar (Rule)

/-- A grammar: its rules in order, the first being the whole text; which symbols leave no node of
their own; which rules are copied into the places that call them; and its terminals in order. -/
structure Grammar (τ : Type) where
  rules : List (String × Rule τ)
  /-- Symbols that only group others and leave no node. -/
  groups : List String
  copied : List String
  terminals : Array τ

end FunctionLength
