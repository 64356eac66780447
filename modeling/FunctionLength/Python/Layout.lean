import FunctionLength.Python.Terminal

/-!
Layout: the tokens that depend on what was read before. Line ends and indentation become tokens only
where the grammar has a use for them; strings are read in pieces, so that expressions may stand inside.
-/

namespace FunctionLength.Python
open FunctionLength.Text

structure Delimiter where
  quote : Char
  format : Bool := false
  raw : Bool := false
  bytes : Bool := false
  triple : Bool := false
  deriving DecidableEq, Repr, Inhabited

/-- The open strings and the indentation of the open blocks, innermost first. -/
structure Layout where
  insideFormat : Bool := false
  delimiters : List Delimiter := []
  indents : List Nat := []
  deriving DecidableEq, Repr, Inhabited

namespace Layout

structure Allowed where
  newline : Bool
  indent : Bool
  dedent : Bool
  stringStart : Bool
  stringContent : Bool
  escapedBrace : Bool
  closer : Bool
  except : Bool
  deriving Inhabited

namespace Allowed

def ofTerminals (has : Terminal → Bool) : Allowed where
  newline := has .newline
  indent := has .indent
  dedent := has .dedent
  stringStart := has .stringStart
  stringContent := has .stringContent
  escapedBrace := has .escapedBrace
  closer := has (.word ")") || has (.word "]") || has (.word "\x7d")
  except := has (.word "except")

def everything : Allowed := ofTerminals fun _ => true

/-- Both a string and a block could go on only when anything is accepted, in order to repair. -/
def repairing (a : Allowed) : Bool := a.stringContent && a.indent

end Allowed

structure Found where
  terminal : Terminal
  start : Extent
  finish : Extent
  layout : Layout

def currentIndent (l : Layout) : Nat := l.indents.headD 0

def looking (src : Source) (p : Extent) (c : Char) : Bool := (src.peek? p).any (·.is c)

def halted (src : Source) (p : Extent) : Bool := (src.peek? p).all (·.isNul)

def closeString (l : Layout) : Layout :=
  { l with insideFormat := false, delimiters := l.delimiters.tail }

/-- A backslash in a raw string takes the quote, backslash or line end after it along. -/
def rawBackslash (src : Source) (d : Delimiter) (p : Extent) : Extent :=
  let p := src.next p
  let p := if looking src p d.quote || looking src p '\\' then src.next p else p
  if looking src p '\r' then
    let p := src.next p
    if looking src p '\n' then src.next p else p
  else if looking src p '\n' then src.next p
  else p

inductive Content where
  | token (terminal : Terminal) (finish : Extent) (layout : Layout)
  | nothing
  | brokenOff (place : Extent)

def content (src : Source) (l : Layout) (d : Delimiter) : Nat → Bool → Extent → Content
  | 0, _, p => .brokenOff p
  | fuel + 1, nonempty, p =>
    let upTo (finish : Extent) : Content :=
      if nonempty then .token .stringContent finish l else .nothing
    if halted src p then .brokenOff p
    else if d.format && (looking src p '\x7b' || looking src p '\x7d') then upTo p
    else if looking src p '\\' then
      if d.raw then content src l d fuel nonempty (rawBackslash src d p)
      else if d.bytes then
        let q := src.next p
        if looking src q 'N' || looking src q 'u' || looking src q 'U' then
          content src l d fuel true (src.next (src.next q))
        else upTo p
      else upTo p
    else if looking src p d.quote then
      if d.triple then
        let second := src.next p
        if looking src second d.quote then
          let third := src.next second
          if looking src third d.quote then
            if nonempty then .token .stringContent p l
            else .token .stringEnd (src.next third) l.closeString
          else .token .stringContent third l
        else .token .stringContent second l
      else if nonempty then .token .stringContent p l
      else .token .stringEnd (src.next p) l.closeString
    else if looking src p '\n' && nonempty && !d.triple then .nothing
    else content src l d fuel true (src.next p)

/-- What lies between two tokens: whether a line ended, the indentation reached, and the indentation of
the first comment line. -/
structure Gap where
  place : Extent
  skipped : Bool
  lineEnded : Bool
  indent : Nat
  firstComment : Option Nat

/-- Blanks, line ends, joined lines and comment lines from `g` on. There is no gap before a comment on
the line of a token, nor before a backslash that joins no lines. -/
def gap (src : Source) (comments : Bool) : Nat → Gap → Option Gap
  | 0, g => some g
  | fuel + 1, g =>
    let past : Gap := { g with place := src.next g.place, skipped := true }
    match src.peek? g.place with
    | none => some { g with indent := 0, lineEnded := true }
    | some glyph =>
      if glyph.is '\n' then gap src comments fuel { past with lineEnded := true, indent := 0 }
      else if glyph.is ' ' then gap src comments fuel { past with indent := g.indent + 1 }
      else if glyph.is '\r' || glyph.is '\x0c' then gap src comments fuel { past with indent := 0 }
      else if glyph.is '\t' then gap src comments fuel { past with indent := g.indent + 8 }
      else if glyph.is '#' && comments then
        if g.lineEnded then
          let rest := src.skipWhile (fun x => !x.isNul && !x.is '\n') g.place
          gap src comments fuel { past with
            place := src.next rest, indent := 0, firstComment := g.firstComment <|> some g.indent }
        else none
      else if glyph.is '\\' then
        let p := past.place
        let p := if looking src p '\r' then src.next p else p
        if looking src p '\n' || src.atEnd p then gap src comments fuel { past with place := src.next p }
        else none
      else some g

def stringFlags (src : Source) : Nat → Delimiter → Extent → Delimiter × Extent
  | 0, d, p => (d, p)
  | fuel + 1, d, p =>
    match src.peek? p with
    | some (.char c) =>
      let next := src.next p
      if c == 'f' || c == 'F' then stringFlags src fuel { d with format := true } next
      else if c == 'r' || c == 'R' then stringFlags src fuel { d with raw := true } next
      else if c == 'b' || c == 'B' then stringFlags src fuel { d with bytes := true } next
      else if c == 'u' || c == 'U' then stringFlags src fuel d next
      else (d, p)
    | _ => (d, p)

def stringStart (src : Source) (l : Layout) (p : Extent) : Option (Extent × Layout) := do
  let (d, q) := stringFlags src src.size { quote := '\'' } p
  let quote ← ['`', '\'', '"'].find? (looking src q)
  let one := src.next q
  let two := src.next one
  let triple := quote != '`' && looking src one quote && looking src two quote
  let d := { d with quote, triple }
  some (if triple then src.next two else one,
    { l with insideFormat := d.format, delimiters := d :: l.delimiters })

/-- The token that a gap gives rise to. Indentation is kept by its last eight bits. -/
def tokenOfGap (src : Source) (allowed : Allowed) (l : Layout) (g : Gap) : Option (Terminal × Layout) :=
  if !g.lineEnded then none
  else
    let beforeString := looking src g.place '"' || looking src g.place '\'' || looking src g.place '`'
    let wanted := allowed.dedent ||
      (!allowed.newline && !(allowed.stringStart && beforeString) && !allowed.closer)
    let commentOutside := g.firstComment.all (· < l.currentIndent)
    if allowed.indent && l.currentIndent < g.indent then
      some (.indent, { l with indents := g.indent % 256 :: l.indents })
    else if wanted && g.indent < l.currentIndent && !l.insideFormat && commentOutside then
      some (.dedent, { l with indents := l.indents.tail })
    else if allowed.newline && !allowed.repairing then some (.newline, l)
    else none

def between (src : Source) (allowed : Allowed) (l : Layout) (start p : Extent) : Option Found := do
  let comments := allowed.indent || allowed.dedent || allowed.newline || allowed.except
  let g ← gap src comments (src.size + 1)
    { place := p, skipped := false, lineEnded := false, indent := 0, firstComment := none }
  match tokenOfGap src allowed l g with
  | some (terminal, layout) => some ⟨terminal, if g.skipped then p else start, p, layout⟩
  | none =>
    if g.firstComment.isSome || !allowed.stringStart then none
    else
      let (finish, layout) ← stringStart src l g.place
      some ⟨.stringStart, if g.skipped then g.place else start, finish, layout⟩

def scan (src : Source) (allowed : Allowed) (l : Layout) (p : Extent) : Option Found :=
  match l.delimiters with
  | [] => between src allowed l p p
  | d :: _ =>
    let brace := looking src p '\x7b' || looking src p '\x7d'
    if allowed.escapedBrace && d.format && brace && !allowed.repairing then
      let q := src.next p
      if looking src p '\x7b' && looking src q '\x7b' || looking src p '\x7d' && looking src q '\x7d' then
        some ⟨.escapedBrace, p, src.next q, l⟩
      else none
    else if allowed.stringContent && !allowed.repairing then
      match content src l d (src.size + 1) false p with
      | .token terminal finish layout => some ⟨terminal, p, finish, layout⟩
      | .nothing => none
      | .brokenOff q => between src allowed l p q
    else between src allowed l p p

end Layout
end FunctionLength.Python
