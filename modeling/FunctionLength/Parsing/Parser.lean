import FunctionLength.Parsing.Repair

namespace FunctionLength.Parsing
open FunctionLength.Text FunctionLength.Grammar FunctionLength.Python

namespace Progress

/-- What has come of the actions for a token: it is dealt with, or reductions were made, or there is no
action for it. -/
inductive Outcome where
  | done
  | reduced (first : Option Nat)
  | stuck

def shift (s : Stack) (r : Nat) (token : Tree) (extra : Bool) (state : Nat) : Stack :=
  (s.push r (token.asExtra extra) state).setLayout r token

def perform (r : Nat) (token : Tree) : List Action → Outcome → Progress → Outcome × Progress
  | [], outcome, p => (outcome, p)
  | action :: rest, outcome, p =>
    match action with
    | .shift next => (.done, p.mapStack fun s => shift s r token false next)
    | .pass => (.done, p.mapStack fun s => shift s r token true (s.state r))
    | .shiftAgain _ => perform r token rest outcome p
    | .reduce n =>
      let ⟨s, best, finished⟩ := p
      let (s, new) := s.reduce r n
      let earlier := match outcome with
        | .reduced first => first
        | _ => none
      perform r token rest (.reduced (new <|> earlier)) ⟨s, best, finished⟩
    | .accept => (.done, p.accept r token)
    | .recover => (.done, p.recover r token)

def actionsFor (state : Nat) (t : Tree) : List Action :=
  match t.tag with
  | .symbol n => table.actionsOf state n
  | _ => []

/-- Deals with a token. After reductions, and when a keyword is read as a plain word, the token is looked
at anew; the first argument bounds how often. -/
def take (r : Nat) : Nat → Tree → Progress → Progress
  | 0, _, p => p
  | fuel + 1, token, p =>
    let state := p.stack.state r
    match perform r token (actionsFor state token) .stuck p with
    | (.done, p) => p
    | (.reduced (some new), p) => take r fuel token (p.mapStack (·.replace new r))
    | (.reduced none, p) => p.mapStack (·.halt r)
    | (.stuck, p) =>
      let word := Vocabulary.lexicon.plainWord
      if token.info.keyword && token.tag ≠ .symbol word && !(table.actionsOf state word).isEmpty then
        take r fuel token.asPlainWord p
      else if state = 0 then p.recover r token
      else p.mapStack (·.pause r token)

def advance (src : Source) (r fuel : Nat) (p : Progress) : Progress :=
  let place := p.stack.place r
  let token := lex src (p.stack.state r) (p.stack.reading r).layout (p.stack.advancedSinceRepair r) place
  take r fuel (.ofToken place token) p

end Progress

namespace Stack

/-- Compares the reading `i`, of standing `mine`, with the readings before it from `j` on, so that better
ones come first and hopeless ones go. The result says which reading is next. -/
def sortIn (mine : Standing) (i j : Nat) (s : Stack) : Nat × Stack :=
  if j < i then
    let s := s.settle j
    match (s.standing j).compare mine with
    | .takeFirst => (i, s.remove i)
    | .takeSecond => sortIn mine (i - 1) j (s.remove j)
    | .preferSecond =>
      if s.canMerge j i then (i, s.merge j i) else sortIn mine i (j + 1) (s.swap i j)
    | _ => if s.canMerge j i then (i, s.merge j i) else sortIn mine i (j + 1) s
  else (i + 1, s)
termination_by i - j

/-- Sorts the readings from `i` on. `least` is the least cost of a reading that is not in repair. -/
def sortFrom : Nat → Nat → Option Nat → Stack → Option Nat × Stack
  | 0, _, least, s => (least, s)
  | fuel + 1, i, least, s =>
    if s.count ≤ i then (least, s)
    else if (s.reading i).status.isHalted then sortFrom fuel i least (s.remove i)
    else
      let s := s.settle i
      let mine := s.standing i
      let least := if mine.inRepair then least else some (least.elim mine.cost (min mine.cost))
      let (next, s) := sortIn mine i 0 s
      sortFrom fuel next least s

def truncate (s : Stack) : Stack := { s with readings := s.readings.extract 0 limits.readings }

end Stack

namespace Progress

/-- Begins the repair of the first waiting reading, if no reading before it goes on, and drops the other
waiting ones. The first argument is the number of readings still to look at, from `i` on. -/
def resume : Nat → (i : Nat) → (going : Bool) → Option Nat → Progress → Option Nat × Progress
  | 0, _, _, least, p => (least, p)
  | left + 1, i, going, least, p =>
    match (p.stack.reading i).status with
    | .paused token =>
      if !going && p.finished < limits.readings then
        let cost := p.stack.cost i
        resume left (i + 1) true (some cost) ((p.mapStack (·.resume i)).repair i token)
      else resume left i going least (p.mapStack (·.remove i))
    | _ => resume left (i + 1) true least p

def condense (p : Progress) : Option Nat × Progress :=
  let ⟨s, best, finished⟩ := p
  let (least, s) := Stack.sortFrom (s.count + 1) 0 none s
  let s := s.truncate
  resume s.count 0 false least ⟨s, best, finished⟩

def isSettled (p : Progress) (least : Option Nat) : Bool :=
  p.best.any fun t => least.all (t.cost < ·)

/-- Lets the readings from `r` on take a token each, and begins again. `last` is the place that the
foremost has reached. -/
def run (src : Source) (steps : Nat) : Nat → (r last : Nat) → Progress → Progress
  | 0, _, _, p => p
  | fuel + 1, r, last, p =>
    let count := p.stack.count
    if count ≤ r then
      let (least, p) := p.condense
      if p.isSettled least || count = 0 then p else run src steps fuel 0 last p
    else if (p.stack.reading r).status.isActive then
      let p := p.advance src r steps
      let place := (p.stack.place r).bytes
      if last < place || (0 < r && place = last) then run src steps fuel (r + 1) place p
      else run src steps fuel r last p
    else run src steps fuel (r + 1) last p

end Progress

def fuelFor (src : Source) : Nat := 10000 * (src.size + 100)

def parse (src : Source) : Option Tree :=
  (Progress.run src (fuelFor src) (fuelFor src) 0 0 .initial).best

end FunctionLength.Parsing
