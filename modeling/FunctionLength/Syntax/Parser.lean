import FunctionLength.Syntax.Declaration

namespace FunctionLength.Syntax

structure SyntaxError where
  file : String
  line : Int64
  message : String
  deriving DecidableEq, Repr

def SyntaxError.text (e : SyntaxError) : String :=
  e.message ++ " (" ++ e.file ++ ", line " ++ toString e.line ++ ")"

inductive Failure where
  | invalid (error : SyntaxError)
  | unreadable (reason : String)
  | during (activity : String) (cause : Failure)
  deriving DecidableEq, Repr

namespace Failure

def text : Failure → String
  | invalid e => e.text
  | unreadable reason => reason
  | during activity cause => activity ++ ": " ++ cause.text

def syntaxError? : Failure → Option SyntaxError
  | invalid e => some e
  | unreadable _ => none
  | during _ cause => cause.syntaxError?

end Failure

structure Parser where
  supports : String → Bool
  parse : String → ByteArray → Except Failure SourceFile

end FunctionLength.Syntax
