import FunctionLength.Toml.Moment

namespace FunctionLength.Toml.Read
open FunctionLength.Text

def lowLinesFit : (afterDigit : Bool) → List Char → Bool
  | afterDigit, [] => afterDigit
  | afterDigit, c :: cs => (c ≠ '_' || afterDigit) && lowLinesFit (isHexDigit c) cs

def hasLeadingZero : List Char → Bool
  | '0' :: c :: _ => c ≠ 'b' && c ≠ 'o' && c ≠ 'x'
  | '-' :: '0' :: _ :: _ | '+' :: '0' :: _ :: _ => true
  | _ => false

def integerOf (lexeme : List Char) : Option Expression :=
  if lowLinesFit false lexeme && !hasLeadingZero lexeme then
    (Integer.read (String.ofList lexeme)).toOption.map .integer
  else none

def floatParts (cs : List Char) : List (List Char) :=
  (cs.splitBy fun a b => !isMark a && !isMark b).filter fun part => !part.any isMark
where
  isMark (c : Char) : Bool := c = '.' || c = 'e' || c = 'E'

def pointsFit : List Char → Bool
  | [] => true
  | c :: cs => (c ≠ '.' || cs.head?.any isDigit) && pointsFit cs

def decimal? (cs : List Char) : Option (List Char × Int) :=
  let cs := match cs with
    | '-' :: rest | '+' :: rest => rest
    | _ => cs
  let whole := cs.takeWhile isDigit
  let (fraction, rest) := match cs.drop whole.length with
    | '.' :: rest => (rest.takeWhile isDigit, rest.dropWhile isDigit)
    | rest => ([], rest)
  let digits := whole ++ fraction
  let exponent : Option Int := match rest with
    | [] => some 0
    | e :: rest =>
      if e = 'e' || e = 'E' then
        let (negative, rest) := match rest with
          | '-' :: rest => (true, rest)
          | '+' :: rest => (false, rest)
          | _ => (false, rest)
        if rest.isEmpty || !rest.all isDigit then none
        else
          let n : Int := rest.foldl (fun n c => 10 * n + Int.ofNat (c.toNat - 48)) 0
          some (if negative then -n else n)
      else none
  if digits.isEmpty then none else exponent.map fun e => (digits, e - fraction.length)

/-- Whether a decimal number is too large for a double: from the middle between the largest one and the
next power of two on. -/
def isHuge (digits : List Char) (exponent : Int) : Bool :=
  let digits := digits.dropWhile (· = '0')
  let size := digits.length + exponent
  if digits.isEmpty || size < 308 then false
  else if 310 < size then true
  else
    let n := digits.foldl (fun n c => 10 * n + (c.toNat - 48)) 0
    let bound := Nat.pow 2 1024 - Nat.pow 2 970
    if 0 ≤ exponent then bound ≤ n * Nat.pow 10 exponent.toNat else bound * Nat.pow 10 (-exponent).toNat ≤ n

def realOf (lexeme : List Char) : Option Expression :=
  let parts := floatParts lexeme
  if parts.all (lowLinesFit false) && !(parts.head?.any hasLeadingZero) && pointsFit lexeme then do
    let (digits, exponent) ← decimal? (lexeme.filter (· ≠ '_'))
    if isHuge digits exponent then none else return .real
  else none

def lexeme (before : List Char) (inside : Char → Bool) (finish : List Char → Option Expression) :
    Reader Expression := fun cs =>
  let more := cs.takeWhile inside
  (finish (before ++ more)).map (·, cs.drop more.length)

def decimal (sign : List Char) : Reader Expression := fun cs =>
  let whole := cs.takeWhile fun c => isDigit c || c = '_'
  let rest := cs.drop whole.length
  if rest.head?.any fun c => c = '.' || c = 'e' || c = 'E' then
    lexeme (sign ++ whole)
      (fun c => isDigit c || c = '_' || c = '.' || c = '-' || c = '+' || c = 'e' || c = 'E') realOf rest
  else (integerOf (sign ++ whole)).map (·, rest)

def inBase (mark : Char) (isDigit : Char → Bool) : Reader Expression := fun cs =>
  if cs.head?.any isDigit then lexeme ['0', mark] (fun c => isDigit c || c = '_') integerOf cs else none

def number : Reader Expression
  | '0' :: 'b' :: cs => inBase 'b' (fun c => c = '0' || c = '1') cs
  | '0' :: 'o' :: cs => inBase 'o' (fun c => '0' ≤ c && c ≤ '7') cs
  | '0' :: 'x' :: cs => inBase 'x' isHexDigit cs
  | cs =>
    let whole := cs.takeWhile isDigit
    let rest := cs.drop whole.length
    if rest.head?.any fun c => c = '-' || c = ':' then
      lexeme whole (fun c => isDigit c || ['-', ':', 'T', 't', ' ', '.', 'Z', 'z', '+'].contains c) momentOf rest
    else decimal [] cs

def signed (sign : Char) : Reader Expression
  | 'i' :: 'n' :: 'f' :: cs | 'n' :: 'a' :: 'n' :: cs => some (.real, cs)
  | '0' :: mark :: cs =>
    if mark = 'b' || mark = 'o' || mark = 'x' then none else decimal [sign] ('0' :: mark :: cs)
  | cs => if cs.head?.any isDigit then decimal [sign] cs else none

end FunctionLength.Toml.Read
