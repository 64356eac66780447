import FunctionLength.Grammar.Automaton

/-!
Fewer states. States that are built from the same items and agree wherever both can act become one,
unless a token that one of them gains could then be read in place of another. After that, a state in
which a part can only be renamed into a symbol without a node is passed over.
-/

namespace FunctionLength.Grammar

structure Lexicon where
  /-- Terminals whose being expected changes how the text is read: no state may gain one. -/
  guarded : TokenSet
  /-- For each terminal those that it could be read in place of. -/
  overruns : Array TokenSet
  /-- The terminal of plain words, and the words that are spelled like them. These two never clash. -/
  plainWord : Nat
  keywords : TokenSet

namespace Lexicon

def clashes (l : Lexicon) (t : Nat) : TokenSet :=
  let set := l.overruns.getD t 0
  if t = l.plainWord then set &&& ((1 <<< l.overruns.size) - 1 - (set &&& l.keywords))
  else if l.keywords.contains t && set.contains l.plainWord then set - TokenSet.singleton l.plainWord
  else set

end Lexicon

namespace Merge

structure Groups where
  groupOf : Array Nat
  members : Array (List Nat)

def agreeing (clash : Nat → Nat → Bool) (x : Nat) (ids : List Nat) : List Nat :=
  ids.filter fun y => !clash x y

theorem length_agreeing (clash : Nat → Nat → Bool) (x : Nat) (ids : List Nat) :
    (agreeing clash x ids).length ≤ ids.length :=
  List.length_filter_le _ _

def sift (clash : Nat → Nat → Bool) (ids : List Nat) : List Nat × List Nat :=
  match ids with
  | [] => ([], [])
  | x :: rest =>
    let (kept, split) := sift clash (agreeing clash x rest)
    (x :: kept, rest.filter (clash x) ++ split)
termination_by ids.length
decreasing_by exact Nat.lt_succ_of_le (length_agreeing clash x rest)

/-- One round of splitting: from group `n` on, each group gives up the states that cannot stay, which
form a new group at the end. -/
def splitFrom (clash : Array Nat → Nat → Nat → Bool) : Nat → Nat → Groups → Bool → Groups × Bool
  | 0, _, groups, changed => (groups, changed)
  | fuel + 1, n, groups, changed =>
    match groups.members[n]? with
    | none => (groups, changed)
    | some ids =>
      match sift (clash groups.groupOf) ids with
      | (_, []) => splitFrom clash fuel (n + 1) groups changed
      | (kept, split) =>
        let fresh := groups.members.size
        let groupOf := split.foldl (fun g x => g.set! x fresh) groups.groupOf
        splitFrom clash fuel (n + 1)
          { groupOf, members := (groups.members.set! n kept).push split } true

def splitUntilStable (clash : Array Nat → Nat → Nat → Bool) (rounds fuel : Nat) (groups : Groups) : Groups :=
  match rounds with
  | 0 => groups
  | rounds + 1 =>
    match splitFrom clash fuel 0 groups false with
    | (groups, true) => splitUntilStable clash rounds fuel groups
    | (groups, false) => groups

def sameActions (groupOf : Array Nat) : List Action → List Action → Bool
  | [], [] => true
  | .shift a :: xs, .shift b :: ys | .shiftAgain a :: xs, .shiftAgain b :: ys =>
    groupOf.getD a 0 == groupOf.getD b 0 && sameActions groupOf xs ys
  | x :: xs, y :: ys => x == y && sameActions groupOf xs ys
  | _, _ => false

/-- What a state does: the terminals that it can take, its actions for them, and where its shifts and
symbols lead, both by increasing symbol. -/
structure Row where
  expected : TokenSet
  actions : List (Nat × List Action)
  targets : List (Nat × Nat)
  deriving Inhabited

def shiftTarget (actions : List Action) : Option Nat :=
  match actions.getLast? with
  | some (.shift n) | some (.shiftAgain n) => some n
  | _ => none

def Row.ofTable (t : Table) (state : Nat) : Row :=
  let actions := ((t.actions[state]!).toList.zipIdx.filter fun (entry, _) => !entry.isEmpty).map
    fun (entry, n) => (n, entry)
  let shifts := actions.filterMap fun (n, entry) => (shiftTarget entry).map fun target => (n, target)
  let gotos := ((t.gotos[state]!).toList.zipIdx.filter fun (target, _) => target != 0).map
    fun (target, n) => (t.terminalCount + n, target)
  { expected := t.expected state, actions, targets := shifts ++ gotos }

def agreeOnCommon {α : Type} (same : α → α → Bool) : List (Nat × α) → List (Nat × α) → Bool
  | [], _ => true
  | _, [] => true
  | (k, x) :: xs, (l, y) :: ys =>
    if k < l then agreeOnCommon same xs ((l, y) :: ys)
    else if l < k then agreeOnCommon same ((k, x) :: xs) ys
    else same x y && agreeOnCommon same xs ys
termination_by xs ys => xs.length + ys.length

def mustNotGain (guarded : TokenSet) (clashes : Array TokenSet) (existing gained : TokenSet) : Bool :=
  gained &&& guarded != 0 ||
    (gained != 0 &&
      (TokenSet.members gained clashes.size).any fun t => clashes.getD t 0 &&& existing != 0)

def statesClash (guarded : TokenSet) (clashes : Array TokenSet) (rows : Array Row) (groupOf : Array Nat)
    (l r : Nat) : Bool :=
  let a := rows[l]!
  let b := rows[r]!
  let common := a.expected &&& b.expected
  mustNotGain guarded clashes b.expected (a.expected - common) ||
  mustNotGain guarded clashes a.expected (b.expected - common) ||
  !agreeOnCommon (sameActions groupOf) a.actions b.actions

def successorsDiffer (rows : Array Row) (groupOf : Array Nat) (l r : Nat) : Bool :=
  !agreeOnCommon (fun x y => groupOf.getD x 0 == groupOf.getD y 0) rows[l]!.targets rows[r]!.targets

def rename (f : Nat → Nat) : Action → Action
  | .shift n => .shift (f n)
  | .shiftAgain n => .shiftAgain (f n)
  | a => a

def byCore (cores : Array (List Nat)) : Groups := Id.run do
  let mut numbers : Std.HashMap (List Nat) Nat := {}
  let mut groupOf : Array Nat := #[]
  let mut members : Array (List Nat) := #[]
  for (core, state) in cores.zipIdx do
    match numbers[core]? with
    | some n =>
      groupOf := groupOf.push n
      members := members.modify n (state :: ·)
    | none =>
      numbers := numbers.insert core members.size
      groupOf := groupOf.push members.size
      members := members.push [state]
  return { groupOf, members := members.map List.reverse }

end Merge

open Merge in
def Automaton.merge (a : Automaton) (lexicon : Lexicon) : Table := Id.run do
  let t := a.table
  let clashes := (Array.range t.terminalCount).map lexicon.clashes
  let rows := (Array.range t.actions.size).map (Row.ofTable t)
  let fuel := 2 * t.actions.size
  let groups := (splitFrom (statesClash lexicon.guarded clashes rows) fuel 0 (byCore a.cores) false).1
  let groups := splitUntilStable (successorsDiffer rows) fuel fuel groups
  let firsts := [groups.groupOf[0]!, groups.groupOf[1]!]
  let order := firsts ++ (List.range groups.members.size).filter fun n => !firsts.contains n
  let mut place : Array Nat := Array.replicate groups.members.size 0
  for (group, n) in order.zipIdx do
    place := place.set! group n
  let renumber (state : Nat) : Nat := place[groups.groupOf[state]!]!
  let mut actions : Array (Array (List Action)) := #[]
  let mut gotos : Array (Array Nat) := #[]
  for group in order do
    let states := groups.members[group]!
    let mut actionRow : Array (List Action) := Array.replicate t.terminalCount []
    let mut gotoRow : Array Nat := #[]
    for s in states do
      for (entry, n) in (t.actions[s]!).zipIdx do
        unless entry.isEmpty do
          actionRow := actionRow.set! n (entry.map (rename renumber))
      if gotoRow.isEmpty then
        gotoRow := (t.gotos[s]!).map fun n => if n = 0 then 0 else renumber n
      else
        gotoRow := (gotoRow.zip t.gotos[s]!).map fun (old, n) => if n = 0 then old else renumber n
    actions := actions.push actionRow
    gotos := gotos.push gotoRow
  return { t with actions, gotos }

namespace Table

def isHiddenHelper (t : Table) (symbol : Nat) : Bool :=
  let n := symbol - t.terminalCount
  t.loops.getD n false || (t.names.getD n "").startsWith "_"

/-- The symbol into which the last part is turned in a state that can do nothing else, if it leaves no
node and no trace: the part alone, unlabelled, and nowhere shown as something else. -/
def soleRenaming (t : Table) (renamed : List Nat) (state : Nat) : Option Nat := Id.run do
  let mut found : Option Nat := none
  for entry in t.actions.getD state #[] do
    for action in entry do
      match action with
      | .pass => continue
      | .reduce r =>
        let reduction := t.reductions.getD r default
        let plain := reduction.count == 1 && reduction.weight == 0 &&
          reduction.labels.all fun l => l.rename.isNone && l.field.isNone
        let head := reduction.head
        if plain && t.isHiddenHelper head && !renamed.contains head && (found.all (· == head)) then
          found := some head
        else
          return none
      | _ => return none
  return found

/-- Where a way into `next` from a state with the given row ends once renaming states are passed over. -/
def passOver (t : Table) (sole : Array (Option Nat)) (row : Array Nat) : Nat → Nat → Nat
  | 0, next => next
  | fuel + 1, next =>
    match sole.getD next none with
    | some symbol =>
      let target := row.getD (symbol - t.terminalCount) 0
      if target = 0 then next else t.passOver sole row fuel target
    | none => next

def skipRenamings (t : Table) (renamed : List Nat) : Table :=
  let sole := (Array.range t.actions.size).map (t.soleRenaming renamed)
  let follow (row : Array Nat) (n : Nat) : Nat := t.passOver sole row 16 n
  { t with
    actions := (t.actions.zip t.gotos).map fun (actions, row) =>
      actions.map (·.map (Merge.rename (follow row)))
    gotos := t.gotos.map fun row => row.map fun n => if n = 0 then 0 else follow row n }

def reachable (t : Table) : Array Bool := Id.run do
  let mut seen : Array Bool := (Array.replicate t.actions.size false).set! 0 true |>.set! 1 true
  let mut pending := [1]
  for _ in [0:t.actions.size] do
    match pending with
    | [] => break
    | state :: others =>
      pending := others
      let targets := (t.actions[state]!).toList.flatMap (·.filterMap fun
        | .shift n | .shiftAgain n => some n
        | _ => none) ++ (t.gotos[state]!).toList
      for n in targets do
        unless seen[n]! do
          seen := seen.set! n true
          pending := n :: pending
  return seen

/-- A lexical mode: a set of terminals that are looked for together. The states of a mode share the set,
so a token may be found that the state at hand cannot take. `modes` gives each state its mode. -/
structure Modes where
  sets : Array TokenSet
  modeOf : Array Nat

/-- The terminals that the text is searched for in a state: its own, keywords being read as plain words,
without those that are not read by pattern. -/
def sought (t : Table) (lexicon : Lexicon) (patterned : TokenSet) (state : Nat) : TokenSet :=
  let set := t.expected state
  let keywords := set &&& lexicon.keywords
  let plain := (set - keywords) &&& patterned
  if keywords = 0 then plain else plain ||| TokenSet.singleton lexicon.plainWord

/-- Whether two sets of terminals can be looked for together: none that only one of them has could be
read in place of one that the other has. Two terminals that no state expects together must not overlap
either way. -/
def compatible (overruns apart : Array TokenSet) (a b : TokenSet) : Bool :=
  let common := a &&& b
  let free (only other : TokenSet) : Bool :=
    (TokenSet.members only overruns.size).all fun t =>
      (overruns.getD t 0 ||| apart.getD t 0) &&& other &&& (((1 <<< overruns.size) - 1) - TokenSet.singleton t) == 0
  free (a - common) b && free (b - common) a

/-- Modes, given state by state to the first mode that is compatible; states that can do much come
first. The end of the text is looked for in a mode if one of its states expects it. -/
def modes (t : Table) (lexicon : Lexicon) (patterned : TokenSet) : Modes := Id.run do
  let seen := t.reachable
  let states := (List.range t.actions.size).filter fun s => seen[s]!
  let mut together : Array TokenSet := Array.replicate t.terminalCount 0
  for s in states do
    let set := t.expected s
    for n in TokenSet.members set t.terminalCount do
      together := together.modify n (· ||| set)
  let mut apart : Array TokenSet := Array.replicate t.terminalCount 0
  for n in [0:t.terminalCount] do
    for m in [0:t.terminalCount] do
      if (lexicon.overruns.getD n 0).contains m || (lexicon.overruns.getD m 0).contains n then
        unless (together[n]!).contains m do
          apart := apart.modify n (· ||| TokenSet.singleton m)
  let size (s : Nat) : Nat :=
    (TokenSet.members (t.expected s) t.terminalCount).length + ((t.gotos[s]!).filter (· != 0)).size
  let (first, others) := states.partition (· < 2)
  let sized := others.map fun s => (size s, s)
  let ordered := (sized.mergeSort fun a b => b.1 ≤ a.1).map (·.2)
  let mut sets : Array TokenSet := #[]
  let mut modeOf : Array Nat := Array.replicate t.actions.size 0
  for s in first ++ ordered do
    let set := t.sought lexicon patterned s
    let finish := t.expected s &&& 1
    match sets.findIdx? fun other => compatible lexicon.overruns apart (other - (other &&& 1)) set with
    | some n =>
      sets := sets.modify n (· ||| set ||| finish)
      modeOf := modeOf.set! s n
    | none =>
      modeOf := modeOf.set! s sets.size
      sets := sets.push (set ||| finish)
  return { sets, modeOf }

end Table
end FunctionLength.Grammar
