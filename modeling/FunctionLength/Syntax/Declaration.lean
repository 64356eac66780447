namespace FunctionLength.Syntax

/-- A function, with the lines on which it starts and ends, a class, or some other statement. -/
inductive Declaration where
  | function (name : String) (first last : Int64) (body : List Declaration)
  | type (name : String) (body : List Declaration)
  | other (kind : String) (body : List Declaration)
  deriving Repr

def lineCount (first last : Int64) : Int64 := last - first + 1

namespace Declaration

def body : Declaration → List Declaration
  | function _ _ _ body | type _ body | other _ body => body

theorem sizeOf_body_lt (d : Declaration) : sizeOf d.body < sizeOf d := by
  cases d <;> simp only [body, function.sizeOf_spec, type.sizeOf_spec, other.sizeOf_spec] <;> omega

mutual

def count : Declaration → Nat
  | function _ _ _ body | type _ body | other _ body => countAll body + 1

def countAll : List Declaration → Nat
  | [] => 0
  | d :: rest => count d + countAll rest

end

theorem count_eq (d : Declaration) : d.count = countAll d.body + 1 := by
  cases d <;> simp [count, body]

theorem countAll_append (xs ys : List Declaration) :
    countAll (xs ++ ys) = countAll xs + countAll ys := by
  induction xs with
  | nil => simp [countAll]
  | cons x xs ih => simp [countAll, ih]; omega

/-- All declarations below a row of them, the row included: those that wait are visited in turn, and what
a declaration holds waits behind all others. -/
def levelOrder : List Declaration → List Declaration
  | [] => []
  | d :: waiting => d :: levelOrder (waiting ++ d.body)
termination_by queue => countAll queue
decreasing_by simp [countAll, countAll_append, count_eq]; omega

end Declaration

structure SourceFile where
  path : String
  body : List Declaration
  deriving Repr

def SourceFile.walk (f : SourceFile) : List Declaration := Declaration.levelOrder f.body

end FunctionLength.Syntax
