import FunctionLength.Python.Tables
import FunctionLength.Python.Layout

/-!
Tokens of Python source. What is looked for depends on the state of the parser: first the layout tokens
that it allows, then the tokens of its lexical mode. Where neither is found, any token will do, and what
belongs to no token at all becomes an error token.
-/

namespace FunctionLength.Python
open FunctionLength.Text FunctionLength.Grammar

/-- A token: its terminal by number, or none for text that is no token. `layout` is the layout after a
layout token. -/
structure Token where
  terminal : Option Nat
  start : Extent
  finish : Extent
  layout : Option Layout := none
  layoutChanged : Bool := false
  keyword : Bool := false

namespace Lexer

def allowed : Array Layout.Allowed :=
  (Array.range table.actions.size).map fun state =>
    if state = 0 then .everything
    else .ofTerminals fun t => !(table.actionsOf state (Vocabulary.numberOf t)).isEmpty

def patterns : Array (List (Nat × Terminal × Pattern)) :=
  modes.sets.map fun set => (TokenSet.members set terminals.size).filterMap fun n =>
    (terminals[n]?).map fun t => (n, t, t.pattern)
where
  terminals := Vocabulary.terminals

def finishNumber : Nat := Vocabulary.numberOf .finish

def keywordNumbers : List (String × Nat) :=
  Vocabulary.terminals.toList.zipIdx.filterMap fun (t, n) =>
    if t.isKeyword then t.spelling?.map fun s => (s, n) else none

def isBlank (g : Glyph) : Bool :=
  g.satisfies fun c => c == ' ' || ('\t' ≤ c && c ≤ '\r') || c == '\ufeff' || c == '\u2060' || c == '\u200b'

def better (best : Option (Nat × Nat × Nat)) (length rank n : Nat) : Option (Nat × Nat × Nat) :=
  match best with
  | none => some (length, rank, n)
  | some (l, r, _) => if l < length || (l = length && r < rank) then some (length, rank, n) else best

def bestMatch (src : Source) (mode : List (Nat × Terminal × Pattern)) (flush : Bool) (p : Extent) :
    Option (Nat × Nat) :=
  let best := mode.foldl (fun best (n, t, pattern) =>
    if t.isImmediate && !flush then best
    else match pattern.longest src p.glyphs with
      | some length => better best length t.rank n
      | none => best) none
  best.map fun (length, _, n) => (length, n)

def inMode (src : Source) (mode : Nat) (p : Extent) : Token ⊕ Extent :=
  let entries := patterns.getD mode []
  let token (start : Extent) (length n : Nat) : Token :=
    { terminal := some n, start, finish := src.skip start length }
  let format := (entries.find? fun (_, t, _) => t == .formatText).bind fun (n, _, pattern) =>
    (pattern.longest src p.glyphs).map fun length => token p length n
  match format with
  | some t => .inl t
  | none =>
    let q := src.skipWhile isBlank p
    if src.atEnd q then
      if entries.any fun (_, t, _) => t == .finish then
        .inl { terminal := some finishNumber, start := q, finish := q }
      else .inr q
    else
      match bestMatch src entries (p == q) q with
      | some (length, n) => .inl (token q length n)
      | none => .inr q

def enter (src : Source) (p : Extent) : Extent :=
  if p.bytes = 0 && (src.peek? p).any (·.is '\ufeff') then src.next p else p

/-- A word is a keyword where the state can take it as one, and else an identifier. -/
def asKeyword (src : Source) (state : Nat) (t : Token) : Token :=
  if t.terminal == some Vocabulary.lexicon.plainWord then
    match keywordNumbers.lookup (src.slice t.start.glyphs t.finish.glyphs) with
    | some n =>
      if (table.actionsOf state n).isEmpty then { t with keyword := true }
      else { t with terminal := some n, keyword := true }
    | none => t
  else t

/-- The search for a token. `skipped` is the text passed over as no token, once there is some. -/
def search (src : Source) (state : Nat) (layout : Option Layout) (advanced : Bool) (start : Extent) :
    Nat → Bool → Option (Extent × Extent) → Extent → Token
  | 0, _, skipped, p =>
    let (first, last) := skipped.getD (start, p)
    { terminal := none, start := first, finish := last }
  | fuel + 1, repairing, skipped, p =>
    let source := if repairing then 0 else state
    let place := enter src p
    let found := (Layout.scan src (allowed.getD source .everything) (layout.getD {}) place).filter fun f =>
      let empty := f.finish.bytes ≤ p.bytes && layout == some f.layout
      let extra := table.nextState state (Vocabulary.numberOf f.terminal) == state
      !(empty && (repairing || !advanced || extra))
    let error (first last : Extent) : Token := { terminal := none, start := first, finish := last }
    match found with
    | some f =>
      match skipped with
      | some (first, last) => error first last
      | none =>
        { terminal := some (Vocabulary.numberOf f.terminal), start := f.start, finish := f.finish
          layout := some f.layout, layoutChanged := layout != some f.layout }
    | none =>
      match inMode src (modes.modeOf.getD source 0) place with
      | .inl t =>
        match skipped with
        | some (first, last) => error first last
        | none => asKeyword src state t
      | .inr stuck =>
        if !repairing then search src state layout advanced start fuel true skipped start
        else
          let (first, last) := skipped.getD (stuck, stuck)
          if stuck == last then
            if src.atEnd stuck then error first last
            else search src state layout advanced start fuel true (some (first, src.next stuck)) (src.next stuck)
          else search src state layout advanced start fuel true (some (first, stuck)) stuck

end Lexer

/-- The token at a place, as the parser in the given state sees it. `advanced` says whether it has taken
any text since the last repair: only then are layout tokens without text of use. -/
def lex (src : Source) (state : Nat) (layout : Option Layout) (advanced : Bool) (p : Extent) : Token :=
  Lexer.search src state layout advanced p (2 * src.size + 4) (state == 0) none p

end FunctionLength.Python
