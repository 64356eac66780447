namespace FunctionLength.Log

inductive Level where
  | debug
  | info
  | warn
  deriving DecidableEq, Repr

inductive Field where
  | text (s : String)
  | number (n : Nat)
  | flag (b : Bool)
  deriving DecidableEq, Repr

structure Record where
  level : Level
  message : String
  fields : List (String × Field)
  deriving DecidableEq, Repr

end FunctionLength.Log
