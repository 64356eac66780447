import FunctionLength.Grammar.Merge
import FunctionLength.Python.Grammar

namespace FunctionLength.Python
open FunctionLength.Grammar

namespace Vocabulary

def terminals : Array Terminal := grammar.terminals

def setOf (p : Terminal → Bool) : TokenSet :=
  terminals.zipIdx.foldl (fun set (t, n) => if p t then set ||| TokenSet.singleton n else set) 0

def numberOf (t : Terminal) : Nat := terminals.idxOf t

def lexicon : Lexicon where
  guarded := setOf Terminal.guidesLayout
  overruns := terminals.map fun t => setOf t.overruns
  plainWord := numberOf .identifier
  keywords := setOf Terminal.isKeyword

def patterned : TokenSet := setOf fun t => !t.isLayout && t != .finish

def renamed (p : Productions) : List Nat :=
  p.productions.toList.flatMap fun q => (q.steps.toList.filter (·.rename.isSome)).map (·.symbol)

end Vocabulary

open Vocabulary in
def table : Table :=
  let productions := grammar.toProductions
  let extras := (TokenSet.members (setOf Terminal.isExtra) terminals.size)
  ((productions.automaton extras [numberOf .formatText]).merge lexicon).skipRenamings (renamed productions)

def modes : Table.Modes := table.modes Vocabulary.lexicon Vocabulary.patterned

end FunctionLength.Python
