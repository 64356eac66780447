import FunctionLength.Text.Glyph

namespace FunctionLength.Text

inductive Pattern where
  | never
  | empty
  | one (accepts : Glyph → Bool)
  | seq (p q : Pattern)
  | alt (p q : Pattern)
  | star (p : Pattern)

namespace Pattern

def nullable : Pattern → Bool
  | never => false
  | empty => true
  | one _ => false
  | seq p q => p.nullable && q.nullable
  | alt p q => p.nullable || q.nullable
  | star _ => true

def isNever : Pattern → Bool
  | never => true
  | _ => false

def andThen : Pattern → Pattern → Pattern
  | never, _ => never
  | empty, q => q
  | p, q => if q.isNever then never else seq p q

def orElse : Pattern → Pattern → Pattern
  | never, q => q
  | p, q => if q.isNever then p else alt p q

def derivative (g : Glyph) : Pattern → Pattern
  | never => never
  | empty => never
  | one accepts => if accepts g then empty else never
  | seq p q =>
    let first := (p.derivative g).andThen q
    if p.nullable then first.orElse (q.derivative g) else first
  | alt p q => (p.derivative g).orElse (q.derivative g)
  | star p => (p.derivative g).andThen (star p)

def char (c : Char) : Pattern := one (Glyph.is c)

def oneOf (s : String) : Pattern := one (Glyph.satisfies s.toList.contains)

def text (s : String) : Pattern := s.toList.foldr (fun c p => (char c).andThen p) empty

def optional (p : Pattern) : Pattern := alt p empty

def plus (p : Pattern) : Pattern := seq p (star p)

def sequence (ps : List Pattern) : Pattern := ps.foldr andThen empty

def choice (ps : List Pattern) : Pattern := ps.foldr orElse never

def times (n : Nat) (p : Pattern) : Pattern := sequence (List.replicate n p)

/-- The longest match from index `i` on, given that the match so far ends at `best`. -/
def longestFrom (src : Source) (p : Pattern) (i : Nat) (best : Option Nat) : Option Nat :=
  let best := if p.nullable then some i else best
  if h : i < src.size then
    let rest := p.derivative src[i]
    if rest.isNever then best else longestFrom src rest (i + 1) best
  else best
termination_by src.size - i

def longest (src : Source) (p : Pattern) (i : Nat) : Option Nat :=
  (longestFrom src p i none).map (· - i)

end Pattern
end FunctionLength.Text
