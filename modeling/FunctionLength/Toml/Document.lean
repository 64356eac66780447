import FunctionLength.Toml.Statement

/-!
The table that the statements of a document define. A name may be defined once. A table that was only
implied by a longer key may still be written out, and a name that holds a list may be defined again.
-/

namespace FunctionLength.Toml

structure Draft where
  root : Table := []
  /-- The tables that were only implied so far. -/
  implied : List Key := []
  /-- The names that were last given a list. -/
  lists : List Key := []

namespace Table

/-- The table at a key. In a row of tables that is the last one. -/
def at? : Key → Table → Option Table
  | [], t => some t
  | name :: rest, t =>
    match t.get? name with
    | some (.table u) | some (.tables u _) => at? rest u
    | _ => none

def modifyAt (f : Table → Option Table) : Key → Table → Option Table
  | [], t => f t
  | name :: rest, t =>
    match t.get? name with
    | some (.table u) => (modifyAt f rest u).map fun u => t.set name (.table u)
    | some (.tables u earlier) => (modifyAt f rest u).map fun u => t.set name (.tables u earlier)
    | _ => none

/-- Makes sure that there is a table at a key, below the key `above`. The result also has the keys of the
tables that were missing. -/
def establish : (above : Key) → Key → Table → Option (Table × List Key)
  | _, [], t => some (t, [])
  | above, name :: rest, t => do
    let here := above ++ [name]
    match t.get? name with
    | none =>
      let (u, new) ← establish here rest []
      return (t.set name (.table u), here :: new)
    | some (.table u) =>
      let (u, new) ← establish here rest u
      return (t.set name (.table u), new)
    | some (.tables u earlier) =>
      let (u, new) ← establish here rest u
      return (t.set name (.tables u earlier), new)
    | some _ => none

def extendRow (name : String) (t : Table) : Option Table :=
  match t.get? name with
  | none => some (t.set name (.tables [] []))
  | some (.tables u earlier) => some (t.set name (.tables [] (u :: earlier)))
  | some _ => none

def insertAt : Key → Value → Table → Option Table
  | [], _, t => some t
  | [name], v, t => some (t.set name v)
  | name :: rest, v, t =>
    match t.get? name with
    | none => (insertAt rest v []).map fun u => t.set name (.table u)
    | some (.table u) => (insertAt rest v u).map fun u => t.set name (.table u)
    | some _ => none

end Table

namespace Draft

def imply (d : Draft) (key : Key) : Draft := { d with implied := key :: d.implied }

def note (d : Draft) (context : Key) (name : String) (isList : Bool) : Draft :=
  let key := if name = "" then context else context ++ [name]
  let key := if key.isEmpty then [""] else key
  let others := d.lists.filter (· ≠ key)
  { d with lists := if isList then key :: others else others }

def define (d : Draft) (context : Key) (name : String) (v : Value) : Option Draft := do
  let key := context ++ [name]
  let table ← Table.at? context d.root
  let root ← Table.modifyAt (fun t => some (Table.set t name v)) context d.root
  if (table.get? name).isNone then return { d with root }
  else if d.lists.contains key then return { d with root, implied := d.implied.filter (· ≠ key) }
  else if d.implied.contains key then return { d with implied := d.implied.filter (· ≠ key) }
  else none

def openAt (d : Draft) (key : Key) (inRow : Bool) : Option Draft := do
  let name ← key.getLast?
  let context := key.dropLast
  let (root, new) ← Table.establish [] context d.root
  let d := { d with root, implied := new ++ d.implied }
  if inRow then
    let root ← Table.modifyAt (Table.extendRow name) context d.root
    return { d with root }
  else d.define context name (.table [])

def openAll (d : Draft) : (context : Key) → Key → Option Draft
  | _, [] => some d
  | context, name :: rest => do
    let here := context ++ [name]
    let d ← (d.imply here).openAt here false
    openAll d here rest

end Draft

def Expression.isList : Expression → Bool
  | list _ => true
  | _ => false

mutual

/-- The value of an expression that is to stand under a name. A table written on one line is built up in the
document as well, since its names have to be new there. -/
def evaluate (context : Key) (name : String) (inRow : Bool) : Expression → Draft → Option (Value × Draft)
  | .integer n, d => some (.integer n, d)
  | .real, d => some (.real, d)
  | .boolean b, d => some (.boolean b, d)
  | .text s, d => some (.text s, d)
  | .moment, d => some (.moment, d)
  | .list items, d => do
    let (vs, d) ← evaluateItems context name items (d.note context name true)
    return (.list vs, d)
  | .table entries, d => do
    let here := context ++ [name]
    let d ← (d.imply here).openAt here inRow
    let (t, d) ← evaluateEntries here entries [] d
    return (.table t, d)

def evaluateItems (context : Key) (name : String) : List Expression → Draft → Option (List Value × Draft)
  | [], d => some ([], d)
  | e :: es, d => do
    let (v, d) ← evaluate context name true e d
    let (vs, d) ← evaluateItems context name es d
    return (v :: vs, d)

def evaluateEntries (context : Key) : List (Key × Expression) → Table → Draft → Option (Table × Draft)
  | [], t, d => some (t, d)
  | (key, e) :: rest, t, d => do
    let name ← key.getLast?
    let inner := context ++ key.dropLast
    let d ← d.openAll context key.dropLast
    let (v, d) ← evaluate inner name false e d
    let d ← d.define inner name v
    let t ← Table.insertAt key v t
    evaluateEntries context rest t (d.note inner name e.isList)

end

def Draft.add (context : Key) (d : Draft) : Statement → Option (Key × Draft)
  | .header key => do
    let d ← d.openAt key false
    return (key, d.note key "" false)
  | .rowHeader key => do
    let d ← d.openAt key true
    return (key, d.note key "" false)
  | .entry key e => do
    let (_, d) ← evaluateEntries context [(key, e)] [] d
    return (context, d)

def Draft.addAll : (context : Key) → Draft → List Statement → Option Draft
  | _, d, [] => some d
  | context, d, s :: rest => do
    let (context, d) ← d.add context s
    addAll context d rest

def read? (content : ByteArray) : Option Table := do
  let statements ← Read.document content
  let d ← Draft.addAll [] {} statements
  return d.root

end FunctionLength.Toml
