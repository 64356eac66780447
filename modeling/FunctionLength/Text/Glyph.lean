import FunctionLength.Text.Extent

namespace FunctionLength.Text

inductive Glyph where
  | char (c : Char)
  | stray (byte : UInt8)
  deriving DecidableEq, Repr, Inhabited

namespace Glyph

def is (c : Char) : Glyph → Bool
  | .char d => c == d
  | .stray _ => false

def satisfies (p : Char → Bool) : Glyph → Bool
  | .char c => p c
  | .stray _ => false

/-- A NUL stands for nothing: no token and no blank contains one. -/
def isNul : Glyph → Bool := is '\x00'

def width : Glyph → Nat
  | .char c => c.utf8Size
  | .stray _ => 1

def toChar : Glyph → Char
  | .char c => c
  | .stray _ => '\ufffd'

def continuation (b : UInt8) : Option Nat :=
  if 0x80 ≤ b && b ≤ 0xBF then some (b.toNat - 0x80) else none

/-- The character whose first byte is `b`, when `rest` follows, and how many bytes of `rest` it takes.
Overlong forms, surrogates and values beyond the last plane are no characters. -/
def character? (b : UInt8) (rest : List UInt8) : Option (Char × Nat) :=
  if b < 0x80 then some (Char.ofNat b.toNat, 0)
  else if 0xC2 ≤ b && b ≤ 0xDF then
    match rest with
    | b₁ :: _ => do
      let x₁ ← continuation b₁
      some (Char.ofNat ((b.toNat - 0xC0) * 64 + x₁), 1)
    | _ => none
  else if 0xE0 ≤ b && b ≤ 0xEF then
    match rest with
    | b₁ :: b₂ :: _ => do
      let x₁ ← continuation b₁
      let x₂ ← continuation b₂
      let n := (b.toNat - 0xE0) * 4096 + x₁ * 64 + x₂
      if n < 0x800 || (0xD800 ≤ n && n ≤ 0xDFFF) then none else some (Char.ofNat n, 2)
    | _ => none
  else if 0xF0 ≤ b && b ≤ 0xF4 then
    match rest with
    | b₁ :: b₂ :: b₃ :: _ => do
      let x₁ ← continuation b₁
      let x₂ ← continuation b₂
      let x₃ ← continuation b₃
      let n := (b.toNat - 0xF0) * 262144 + x₁ * 4096 + x₂ * 64 + x₃
      if n < 0x10000 || 0x10FFFF < n then none else some (Char.ofNat n, 3)
    | _ => none
  else none

/-- The glyphs of a byte string. A byte that starts no character is a stray one. -/
def decode : List UInt8 → List Glyph
  | [] => []
  | b :: rest =>
    match character? b rest with
    | some (c, n) => .char c :: decode (rest.drop n)
    | none => .stray b :: decode rest
termination_by bytes => bytes.length
decreasing_by
  · simp only [List.length_drop, List.length_cons]; omega
  · simp

end Glyph

namespace Extent

def step (p : Extent) (g : Glyph) : Extent :=
  if g.is '\n' then ⟨p.glyphs + 1, p.bytes + 1, p.rows + 1, 0⟩
  else ⟨p.glyphs + 1, p.bytes + g.width, p.rows, p.column + g.width⟩

@[simp] theorem glyphs_step (p : Extent) (g : Glyph) : (p.step g).glyphs = p.glyphs + 1 := by
  unfold step; split <;> rfl

end Extent

abbrev Source := Array Glyph

namespace Source

def ofBytes (bytes : ByteArray) : Source :=
  (Glyph.decode bytes.toList).toArray

def peek? (src : Source) (p : Extent) : Option Glyph :=
  src[p.glyphs]?

def atEnd (src : Source) (p : Extent) : Bool :=
  src.size ≤ p.glyphs

def next (src : Source) (p : Extent) : Extent :=
  match src.peek? p with
  | some g => p.step g
  | none => p

def skip (src : Source) (p : Extent) : Nat → Extent
  | 0 => p
  | n + 1 => src.skip (src.next p) n

def skipWhile (src : Source) (pred : Glyph → Bool) (p : Extent) : Extent :=
  if h : p.glyphs < src.size then
    if pred src[p.glyphs] then src.skipWhile pred (p.step src[p.glyphs]) else p
  else p
termination_by src.size - p.glyphs
decreasing_by simp; omega

def slice (src : Source) (first last : Nat) : String :=
  String.ofList ((src.extract first last).toList.map Glyph.toChar)

end Source
end FunctionLength.Text
