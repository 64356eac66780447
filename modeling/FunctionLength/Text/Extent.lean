namespace FunctionLength.Text

/-- How far one place lies beyond another: characters, bytes and line ends passed, and the column
reached, which counts bytes from the start of the last line. -/
structure Extent where
  glyphs : Nat := 0
  bytes : Nat := 0
  rows : Nat := 0
  column : Nat := 0
  deriving DecidableEq, Repr, Inhabited

namespace Extent

def zero : Extent := {}

def add (a b : Extent) : Extent where
  glyphs := a.glyphs + b.glyphs
  bytes := a.bytes + b.bytes
  rows := a.rows + b.rows
  column := if b.rows = 0 then a.column + b.column else b.column

def sub (a b : Extent) : Extent where
  glyphs := a.glyphs - b.glyphs
  bytes := a.bytes - b.bytes
  rows := a.rows - b.rows
  column := if a.rows = b.rows then a.column - b.column else a.column

instance : Add Extent := ⟨add⟩
instance : Sub Extent := ⟨sub⟩

end Extent
end FunctionLength.Text
