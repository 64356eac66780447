import FunctionLength.Text.Identifier
import FunctionLength.Text.Pattern

namespace FunctionLength.Python
open FunctionLength.Text

inductive Terminal where
  | finish
  | identifier
  | word (spelling : String)
  | constant (spelling : String)
  | ellipsis
  | escapeSequence
  /-- A backslash in a string that starts no escape sequence. -/
  | backslash
  | formatText
  | typeConversion
  | integer
  | float
  | comment
  /-- A backslash that joins two lines. -/
  | lineJoin
  | newline
  | indent
  | dedent
  | stringStart
  | stringContent
  | escapedBrace
  | stringEnd
  deriving DecidableEq, Hashable, Repr, Inhabited

namespace Terminal

def kind : Terminal → String
  | finish => "end"
  | identifier => "identifier"
  | word s => s
  | constant s => s.toLower
  | ellipsis => "ellipsis"
  | escapeSequence => "escape_sequence"
  | backslash => "_not_escape_sequence"
  | formatText => "format_text"
  | typeConversion => "type_conversion"
  | integer => "integer"
  | float => "float"
  | comment => "comment"
  | lineJoin => "line_continuation"
  | newline => "_newline"
  | indent => "_indent"
  | dedent => "_dedent"
  | stringStart => "string_start"
  | stringContent => "_string_content"
  | escapedBrace => "escape_interpolation"
  | stringEnd => "string_end"

def isNamed : Terminal → Bool
  | word _ => false
  | _ => true

def isVisible : Terminal → Bool
  | finish | backslash | formatText | newline | indent | dedent | stringContent => false
  | _ => true

def isExtra : Terminal → Bool
  | comment | lineJoin => true
  | _ => false

/-- Tokens that no pattern describes: they depend on what was read before. -/
def isLayout : Terminal → Bool
  | newline | indent | dedent | stringStart | stringContent | escapedBrace | stringEnd => true
  | _ => false

/-- Where these are allowed has a say in how layout is read. -/
def guidesLayout (t : Terminal) : Bool :=
  t.isLayout || t == comment || t == word "]" || t == word ")" || t == word "\x7d" || t == word "except"

def isKeyword : Terminal → Bool
  | word s => s.toList.all fun c => c.isAlphanum || c == '_'
  | constant _ => true
  | _ => false

def spelling? : Terminal → Option String
  | word s | constant s => some s
  | ellipsis => some "..."
  | backslash => some "\\"
  | _ => none

def digits : Pattern :=
  let digit := Pattern.one (Glyph.satisfies Char.isDigit)
  .sequence [digit, .star (.choice [digit, .seq (.char '_') digit]), .optional (.char '_')]

def basedDigits (marker digitSet : String) : Pattern :=
  .sequence [.char '0', .oneOf marker, .plus (.seq (.optional (.char '_')) (.oneOf digitSet)),
    .optional (.oneOf "Ll")]

def hexDigits : String := "0123456789abcdefABCDEF"

def exponent : Pattern :=
  .sequence [.oneOf "eE", .optional (.oneOf "+-"), digits]

def lineEnd : Pattern := .seq (.optional (.char '\r')) (.char '\n')

def anyBut (cs : List Char) : Pattern :=
  .one fun g => !g.isNul && !cs.any (fun c => g.is c)

def pattern : Terminal → Pattern
  | word s | constant s => .text s
  | ellipsis => .text "..."
  | backslash => .char '\\'
  | identifier =>
    .seq (.one (Glyph.satisfies Identifier.isStart)) (.star (.one (Glyph.satisfies Identifier.isContinue)))
  | integer => .choice [
      basedDigits "xX" hexDigits, basedDigits "oO" "01234567", basedDigits "bB" "01",
      .seq digits (.optional (.oneOf "LljJ"))]
  | float => .seq
      (.choice [
        .sequence [digits, .char '.', .optional digits, .optional exponent],
        .sequence [.char '.', digits, .optional exponent],
        .seq digits exponent])
      (.optional (.oneOf "jJ"))
  | escapeSequence =>
    let hex := Pattern.oneOf hexDigits
    let digit := Pattern.oneOf "0123456789"
    .seq (.char '\\') (.choice [
      .seq (.char 'u') (.times 4 hex), .seq (.char 'U') (.times 8 hex), .seq (.char 'x') (.times 2 hex),
      .sequence [digit, .optional (.seq digit (.optional digit))],
      lineEnd, .oneOf "'\"abfrntv\\",
      .sequence [.text "N\x7b", .plus (anyBut ['\x7d']), .char '\x7d']])
  | formatText => .plus (anyBut ['\x7b', '\x7d', '\n'])
  | typeConversion => .seq (.char '!') (.oneOf "abcdefghijklmnopqrstuvwxyz")
  | comment => .seq (.char '#') (.star (anyBut ['\n']))
  | lineJoin => .seq (.char '\\') lineEnd
  | finish | newline | indent | dedent | stringStart | stringContent | escapedBrace | stringEnd => .never

def isImmediate : Terminal → Bool
  | escapeSequence | backslash => true
  | _ => false

/-- Of two tokens of the same text the one of higher rank is read. -/
def rank : Terminal → Nat
  | escapeSequence | formatText => 4
  | backslash => 3
  | word _ | constant _ | ellipsis => 2
  | _ => 0

/-- Whether some text that is read as `t` begins with, or is, a text that could be read as `u`. -/
def overruns (t u : Terminal) : Bool :=
  t != u &&
  match t, u with
  | formatText, u => !u.isLayout && u != finish
  | escapeSequence, formatText => true
  | identifier, u => u.isKeyword
  | word s, identifier => s == "except*"
  | float, integer => true
  | float, word s => s == "."
  | escapeSequence, backslash | escapeSequence, lineJoin | lineJoin, backslash => true
  | t, u =>
    match t.spelling?, u.spelling? with
    | some s, some r => r.toList.isPrefixOf s.toList
    | _, _ => false

end Terminal
end FunctionLength.Python
