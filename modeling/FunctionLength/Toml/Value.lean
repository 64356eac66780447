namespace FunctionLength.Toml

inductive Value where
  | integer (n : Int64)
  | real
  | boolean (b : Bool)
  | text (s : String)
  | moment
  | list (items : List Value)
  | table (entries : List (String × Value))
  /-- A row of tables, the last one first. -/
  | tables (last : List (String × Value)) (earlier : List (List (String × Value)))

abbrev Table := List (String × Value)

abbrev Key := List String

namespace Table

def get? (t : Table) (name : String) : Option Value := t.lookup name

def set : Table → String → Value → Table
  | [], name, v => [(name, v)]
  | (n, w) :: rest, name, v => if n = name then (n, v) :: rest else (n, w) :: set rest name v

end Table
end FunctionLength.Toml
