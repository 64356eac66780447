/-!
Written integers: a sign, a mark of the base, digits, and low lines between digits. `0x`, `0o` and `0b` mark
the bases 16, 8 and 2; a leading zero alone marks base 8.
-/

namespace FunctionLength.Text.Integer

inductive Error where
  | malformed
  | outOfRange
  deriving DecidableEq, Repr

def digit? (c : Char) : Option Nat :=
  if '0' ≤ c && c ≤ '9' then some (c.toNat - 48)
  else if 'a' ≤ c && c ≤ 'z' then some (c.toNat - 87)
  else if 'A' ≤ c && c ≤ 'Z' then some (c.toNat - 55)
  else none

/-- The base of a number without sign, whether it was marked by a letter, and the digits. -/
def base : List Char → Nat × Bool × List Char
  | '0' :: mark :: c :: cs =>
    match mark.toLower with
    | 'b' => (2, true, c :: cs)
    | 'o' => (8, true, c :: cs)
    | 'x' => (16, true, c :: cs)
    | _ => (8, false, '0' :: mark :: c :: cs)
  | '0' :: cs => (8, false, '0' :: cs)
  | cs => (10, false, cs)

/-- The value of digits from left to right, after digits of value `n`. The first fault counts: a character
that is no digit of the base, or a value that takes more than 64 bits. -/
def magnitude (base : Nat) : Nat → List Char → Except Error Nat
  | n, [] => .ok n
  | n, c :: cs =>
    if c = '_' then magnitude base n cs
    else
      match digit? c with
      | none => .error .malformed
      | some d =>
        if base ≤ d then .error .malformed
        else if 0x10000000000000000 ≤ n * base + d then .error .outOfRange
        else magnitude base (n * base + d) cs

/-- Whether every low line stands between digits. A mark of the base counts as a digit. -/
def areSeparated : (afterDigit : Bool) → List Char → Bool
  | afterDigit, [] => afterDigit
  | afterDigit, c :: cs => if c = '_' then afterDigit && areSeparated false cs else areSeparated true cs

def unsigned (cs : List Char) : Except Error Nat :=
  match cs with
  | [] => .error .malformed
  | _ => do
    let (base, marked, digits) := base cs
    let n ← magnitude base 0 digits
    if digits.contains '_' && !areSeparated marked digits then throw .malformed
    return n

def ofMagnitude (negative : Bool) (n : Nat) : Except Error Int64 :=
  if negative then if 0x8000000000000000 < n then .error .outOfRange else .ok (.ofInt (-n))
  else if 0x8000000000000000 ≤ n then .error .outOfRange
  else .ok (.ofNat n)

def signed (unsigned : List Char → Except Error Nat) (s : String) : Except Error Int64 :=
  match s.toList with
  | '-' :: cs => unsigned cs >>= ofMagnitude true
  | '+' :: cs => unsigned cs >>= ofMagnitude false
  | cs => unsigned cs >>= ofMagnitude false

def read (s : String) : Except Error Int64 := signed unsigned s

def unsignedDecimal (cs : List Char) : Except Error Nat :=
  if cs.isEmpty || cs.contains '_' then .error .malformed else magnitude 10 0 cs

def readDecimal (s : String) : Except Error Int64 := signed unsignedDecimal s

end FunctionLength.Text.Integer
