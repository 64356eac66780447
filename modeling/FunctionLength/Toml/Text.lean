import FunctionLength.Toml.Expression

/-!
Texts and keys of a settings document. Texts in double quotes have escapes and those in single quotes have
none; in three quotes a text may go over several lines.
-/

namespace FunctionLength.Toml.Read
open FunctionLength.Text

def character? (digits : List Char) : Option Char :=
  let n := digits.foldl (fun n c => 16 * n + (Integer.digit? c).getD 0) 0
  if n.isValidChar then some (Char.ofNat n) else none

def numbered (count : Nat) : Reader Char := fun cs =>
  let digits := cs.take count
  if digits.length = count && digits.all isHexDigit then
    (character? digits).map (·, cs.drop count)
  else none

def escaped : Reader Char
  | 'b' :: cs => some ('\x08', cs)
  | 't' :: cs => some ('\t', cs)
  | 'n' :: cs => some ('\n', cs)
  | 'f' :: cs => some ('\x0c', cs)
  | 'r' :: cs => some ('\r', cs)
  | '"' :: cs => some ('"', cs)
  | '\\' :: cs => some ('\\', cs)
  | 'u' :: cs => numbered 4 cs
  | 'U' :: cs => numbered 8 cs
  | _ => none

def quoted : Nat → Reader (List Char)
  | 0, _ => none
  | _, [] => none
  | fuel + 1, c :: cs =>
    if c = '"' then some ([], cs)
    else if isLineEnd c then none
    else do
      let (c, cs) ← if c = '\\' then escaped cs else some (c, cs)
      let (text, rest) ← quoted fuel cs
      return (c :: text, rest)

def literal : Reader (List Char)
  | [] => none
  | c :: cs =>
    if c = '\'' then some ([], cs)
    else if isLineEnd c then none
    else do
      let (text, rest) ← literal cs
      return (c :: text, rest)

/-- The raw content of a text in three quotes, of which up to two may stand right before the end. `passed`
is what has been passed, from its end. -/
def rawBlock (quote : Char) (escapes : Bool) : List Char → Reader (List Char)
  | _, [] => none
  | passed, c :: cs =>
    if c = quote && cs.take 2 = [quote, quote] then
      if (cs.drop 2).head? ≠ some quote then some (passed.reverse, cs.drop 2)
      else if passed.take 2 = [quote, quote] && !(escapes && (passed.drop 2).head? = some '\\') then none
      else rawBlock quote escapes (c :: passed) cs
    else if escapes && c = '\\' then
      match cs with
      | [] => none
      | d :: ds => rawBlock quote escapes (d :: c :: passed) ds
    else rawBlock quote escapes (c :: passed) cs

/-- A line end right behind the opening quotes does not belong to the text. -/
def dropFirstLineEnd : List Char → List Char
  | '\n' :: cs => cs
  | '\r' :: '\n' :: cs => cs
  | cs => cs

/-- Resolves the escapes of a text in three quotes. A backslash at the end of a line takes away all blank
space up to the next character. -/
def resolveBlock : Nat → List Char → Option (List Char)
  | _, [] => some []
  | 0, _ => none
  | fuel + 1, c :: cs =>
    if c = '\\' then
      let blank := cs.takeWhile fun c => isBlank c || isLineEnd c
      if blank.contains '\n' then resolveBlock fuel (cs.drop blank.length)
      else do
        let (c, cs) ← escaped cs
        return c :: (← resolveBlock fuel cs)
    else do return c :: (← resolveBlock fuel cs)

def text : Reader String
  | '"' :: '"' :: '"' :: cs => do
    let (raw, rest) ← rawBlock '"' true [] cs
    let content ← resolveBlock raw.length (dropFirstLineEnd raw)
    return (String.ofList content, rest)
  | '\'' :: '\'' :: '\'' :: cs => do
    let (raw, rest) ← rawBlock '\'' false [] cs
    return (String.ofList (dropFirstLineEnd raw), rest)
  | '"' :: cs => (quoted (cs.length + 1) cs).map fun (content, rest) => (String.ofList content, rest)
  | '\'' :: cs => (literal cs).map fun (content, rest) => (String.ofList content, rest)
  | _ => none

def keyPart : Reader String
  | '"' :: cs => (quoted (cs.length + 1) cs).map fun (content, rest) => (String.ofList content, rest)
  | '\'' :: cs => (literal cs).map fun (content, rest) => (String.ofList content, rest)
  | cs =>
    let name := cs.takeWhile isBare
    if name.isEmpty then none else some (String.ofList name, cs.drop name.length)

def keyParts : Nat → Reader Key
  | 0, _ => none
  | fuel + 1, cs => do
    let (part, rest) ← keyPart (skipBlanks cs)
    match skipBlanks rest with
    | '.' :: rest =>
      let (parts, rest) ← keyParts fuel rest
      return (part :: parts, rest)
    | rest => return ([part], rest)

def key : Reader Key := fun cs => keyParts (cs.length + 1) cs

end FunctionLength.Toml.Read
