/-!
Texts without regard to case. Only the letters of ASCII matter here, and the two characters beyond it that
are forms of such letters: the long s and the sign for kelvin.
-/

namespace FunctionLength.Text

def folded (c : Char) : Char :=
  if 'A' ≤ c && c ≤ 'Z' then c.toLower
  else if c = '\u017f' then 's'
  else if c = '\u212a' then 'k'
  else c

def equalFolded (s t : String) : Bool := s.toList.map folded == t.toList.map folded

end FunctionLength.Text
