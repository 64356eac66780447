import FunctionLength.Toml.Expression

namespace FunctionLength.Toml.Read

def daysIn (year month : Nat) : Nat :=
  if month = 2 then
    if year % 4 = 0 && (year % 100 ≠ 0 || year % 400 = 0) then 29 else 28
  else if month = 4 || month = 6 || month = 9 || month = 11 then 30
  else 31

def digits (count : Nat) : Reader Nat := fun cs =>
  let ds := cs.take count
  if ds.length = count && ds.all isDigit then
    some (ds.foldl (fun n c => 10 * n + (c.toNat - 48)) 0, cs.drop count)
  else none

def date (cs : List Char) : Option (List Char) := do
  let (year, cs) ← digits 4 cs
  let (month, cs) ← digits 2 (← expect '-' cs)
  let (day, cs) ← digits 2 (← expect '-' cs)
  if 1 ≤ month && month ≤ 12 && 1 ≤ day && day ≤ daysIn year month then some cs else none

def clock (cs : List Char) : Option (List Char) := do
  let (hour, cs) ← digits 2 cs
  let (minute, cs) ← digits 2 (← expect ':' cs)
  let (second, cs) ← digits 2 (← expect ':' cs)
  if hour < 24 && minute < 60 && second < 60 then
    match cs with
    | '.' :: c :: rest => if isDigit c then some (rest.dropWhile isDigit) else some cs
    | _ => some cs
  else none

def zone (cs : List Char) : Option (List Char) :=
  match cs with
  | 'Z' :: cs => some cs
  | c :: cs =>
    if c = '+' || c = '-' then do
      let (hour, cs) ← digits 2 cs
      let (minute, cs) ← digits 2 (← expect ':' cs)
      if hour ≤ 24 && minute ≤ 60 then some cs else none
    else none
  | [] => none

def isMoment (cs : List Char) : Bool :=
  match date cs with
  | some [] => true
  | some ('T' :: rest) =>
    match clock rest with
    | some [] => true
    | some rest => zone rest == some []
    | none => false
  | some _ => false
  | none => clock cs == some []

/-- A date, a time of day or both. A blank or a small letter may stand between them. -/
def momentOf (lexeme : List Char) : Option Expression :=
  let trimmed := (lexeme.reverse.dropWhile isBlank).reverse
  let upper := trimmed.map fun c =>
    if c = 't' || c = ' ' then 'T' else if c = 'z' then 'Z' else c
  if isMoment upper then some .moment else none

end FunctionLength.Toml.Read
