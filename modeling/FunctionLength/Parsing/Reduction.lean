import FunctionLength.Parsing.Stack

/-!
Reductions on the shared stack: trees on top of a reading are put together to a larger one. There may be
several ways to do so, and each that leads somewhere else becomes a reading of its own.
-/

namespace FunctionLength.Parsing.Stack
open FunctionLength.Text FunctionLength.Grammar FunctionLength.Python

def reduceRow (reduction : Nat) (head : Nat) (row : List Tree) : Tree × List Tree :=
  let (children, extras) := Tree.splitTrailingExtras row
  (Tree.node (.symbol head) (some reduction) children, extras)

def bestRow (reduction : Nat) (head : Nat) : List (List Tree) → Option (Tree × List Tree)
  | [] => none
  | row :: rows =>
    some (rows.foldl (fun best row =>
      let new := reduceRow reduction head row
      if best.1.isBetter new.1 then new else best) (reduceRow reduction head row))

/-- Performs one reduction on the reading `r`, along all ways back. The results are new readings behind
the old ones, unless they agree with one that is there; the first new one is returned. -/
def reduce (s : Stack) (r reduction : Nat) : Stack × Option Nat :=
  let rule := table.reductions.getD reduction default
  let before := s.count
  let halted := (s.readings.filter (·.status.isHalted)).size
  let s := (s.slices r rule.count).foldl (fun s (n, rows) =>
    if limits.readings + limits.overflow + halted < s.count then s
    else match bestRow reduction rule.head rows with
      | none => s
      | some (tree, extras) =>
        let new := s.count
        let next := table.nextState (s.vertex n).state rule.head
        let tree := tree.modifyInfo fun i => { i with weight := i.weight + rule.weight }
        let s := ((s.fork r n).push new tree next).pushAll new extras next
        match s.twin? ((List.range new).filter (· ≠ r)) new with
        | some old => s.merge old new
        | none => s) s
  (s, if before < s.count then some before else none)

/-- What a state can do before a token, or before any token at all: whether it can take it, and its
reductions of at least one tree, one for each symbol and length. -/
def prospects (state : Nat) (token : Option Nat) : Bool × List Nat :=
  let tokens := token.elim ((List.range table.terminalCount).drop 1) fun n => [n]
  let shape (n : Nat) := let rule := table.reductions.getD n default; (rule.head, rule.count)
  let (takes, reductions) := (tokens.flatMap (table.actionsOf state)).foldl (fun (takes, reductions) action =>
    match action with
    | .shift _ | .recover => (true, reductions)
    | .reduce n =>
      if (shape n).2 = 0 || reductions.any fun m => shape m == shape n then (takes, reductions)
      else (takes, n :: reductions)
    | _ => (takes, reductions)) (false, [])
  (takes, reductions.reverse)

def rounds : Nat := 4096

/-- Performs reductions from the reading `start` on, and on the readings from `first` on that they
give, as long as they lead somewhere. With a token, readings that cannot take it in the end are removed.
The result also says whether some reading can. -/
def exploreFrom (token : Option Nat) (start first : Nat) :
    Nat → (round r : Nat) → Stack → Bool → Stack × Bool
  | 0, _, _, s, found => (s, found)
  | fuel + 1, round, r, s, found =>
    if s.count ≤ r then (s, found)
    else match s.twin? (List.range' first (r - first)) r with
      | some old => exploreFrom token start first fuel (round + 1) r (s.merge old r) found
      | none =>
        let next := if r = start then s.count else r + 1
        let (takes, reductions) := prospects (s.state r) token
        let (s, last) := reductions.foldl (fun (s, _) n => s.reduce r n) (s, none)
        if takes then exploreFrom token start first fuel (round + 1) next s true
        else match last, decide (round < limits.readings) with
          | some new, true => exploreFrom token start first fuel (round + 1) r (s.replace new r) found
          | _, _ =>
            let s := if token.isSome then s.remove r else s
            exploreFrom token start first fuel (round + 1) next s found

def explore (s : Stack) (r : Nat) (token : Option Nat) : Stack × Bool :=
  exploreFrom token r s.count rounds 0 r s false

end FunctionLength.Parsing.Stack
