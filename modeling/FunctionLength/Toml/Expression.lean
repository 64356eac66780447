import FunctionLength.Text.Integer
import FunctionLength.Toml.Value

namespace FunctionLength.Toml

inductive Expression where
  | integer (n : Int64)
  | real
  | boolean (b : Bool)
  | text (s : String)
  | moment
  | list (items : List Expression)
  | table (entries : List (Key × Expression))

inductive Statement where
  | header (key : Key)
  | rowHeader (key : Key)
  | entry (key : Key) (value : Expression)

abbrev Reader (α : Type) := List Char → Option (α × List Char)

namespace Read

def isBlank (c : Char) : Bool := c = ' ' || c = '\t'
def isLineEnd (c : Char) : Bool := c = '\n' || c = '\r'
def isDigit (c : Char) : Bool := '0' ≤ c && c ≤ '9'
def isHexDigit (c : Char) : Bool := isDigit c || ('a' ≤ c && c ≤ 'f') || ('A' ≤ c && c ≤ 'F')

def isBare (c : Char) : Bool :=
  isDigit c || ('a' ≤ c && c ≤ 'z') || ('A' ≤ c && c ≤ 'Z') || c = '_' || c = '-'

def skipBlanks (cs : List Char) : List Char := cs.dropWhile isBlank

/-- Control characters are nowhere allowed, but for the tab and for line ends. A carriage return is part
of a line end. -/
def isClean : List Char → Bool
  | [] => true
  | '\r' :: '\n' :: cs => isClean cs
  | c :: cs => (c = '\t' || c = '\n' || (' ' ≤ c && c ≠ '\x7f')) && isClean cs

def expect (c : Char) : List Char → Option (List Char)
  | d :: cs => if d = c then some cs else none
  | [] => none

end Read
end FunctionLength.Toml
