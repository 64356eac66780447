import FunctionLength.Toml.Number
import FunctionLength.Toml.Text

namespace FunctionLength.Toml.Read

def isWordPart (c : Char) : Bool := ('a' ≤ c && c ≤ 'z') || ('A' ≤ c && c ≤ 'Z')

def word : Reader Expression
  | 'i' :: 'n' :: 'f' :: cs | 'n' :: 'a' :: 'n' :: cs => some (.real, cs)
  | cs =>
    let letters := cs.takeWhile isWordPart
    let rest := cs.drop letters.length
    if letters = "true".toList then some (.boolean true, rest)
    else if letters = "false".toList then some (.boolean false, rest)
    else none

def skipLines : (inComment : Bool) → List Char → List Char
  | _, [] => []
  | inComment, c :: cs =>
    if inComment then skipLines (c ≠ '\n') cs
    else if isBlank c || isLineEnd c then skipLines false cs
    else if c = '#' then skipLines true cs
    else c :: cs

mutual

/-- A value. The first argument bounds its length. -/
def value : Nat → Reader Expression
  | 0, _ => none
  | fuel + 1, cs =>
    match skipBlanks cs with
    | [] => none
    | '[' :: cs => (items fuel cs).map fun (es, rest) => (.list es, rest)
    | '\x7b' :: cs =>
      match skipBlanks cs with
      | '\x7d' :: rest => some (.table [], rest)
      | cs => (entries fuel cs).map fun (es, rest) => (.table es, rest)
    | '-' :: cs => signed '-' cs
    | '+' :: cs => signed '+' cs
    | c :: cs =>
      if c = '"' || c = '\'' then (text (c :: cs)).map fun (s, rest) => (.text s, rest)
      else if isDigit c then number (c :: cs)
      else word (c :: cs)

def items : Nat → Reader (List Expression)
  | 0, _ => none
  | fuel + 1, cs =>
    match skipLines false cs with
    | ']' :: rest => some ([], rest)
    | cs => do
      let (e, rest) ← value fuel cs
      match skipLines false rest with
      | ',' :: rest =>
        let (es, rest) ← items fuel rest
        return (e :: es, rest)
      | ']' :: rest => return ([e], rest)
      | _ => none

def entries : Nat → Reader (List (Key × Expression))
  | 0, _ => none
  | fuel + 1, cs => do
    let (k, rest) ← key cs
    let rest ← expect '=' rest
    let (e, rest) ← value fuel rest
    match skipBlanks rest with
    | ',' :: rest =>
      let (es, rest) ← entries fuel rest
      return ((k, e) :: es, rest)
    | '\x7d' :: rest => return ([(k, e)], rest)
    | _ => none

end

def statement : Reader Statement
  | '[' :: '[' :: cs => do
    let (k, rest) ← key cs
    let rest ← expect ']' (← expect ']' rest)
    return (.rowHeader k, rest)
  | '[' :: cs => do
    let (k, rest) ← key cs
    return (.header k, ← expect ']' rest)
  | cs => do
    let (k, rest) ← key cs
    let rest ← expect '=' rest
    let (e, rest) ← value (rest.length + 1) rest
    return (.entry k e, rest)

/-- Behind a statement its line has to end. -/
def lineEnds (cs : List Char) : Bool :=
  match skipBlanks cs with
  | [] => true
  | c :: _ => c = '#' || isLineEnd c

def statements : Nat → List Char → Option (List Statement)
  | 0, _ => none
  | fuel + 1, cs =>
    match skipLines false cs with
    | [] => some []
    | cs => do
      let (s, rest) ← statement cs
      if lineEnds rest then return s :: (← statements fuel rest) else none

def document (content : ByteArray) : Option (List Statement) := do
  let s ← String.fromUTF8? content
  let cs := match s.toList with
    | '\ufeff' :: cs => cs
    | cs => cs
  if isClean cs then statements (cs.length + 1) cs else none

end FunctionLength.Toml.Read
