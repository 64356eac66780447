import FunctionLength.Proofs.Spans
import Mathlib.Logic.Relation
import Mathlib.Order.Bounds.Basic

namespace FunctionLength.Syntax

namespace Node

mutual

def uncommented : Node → Node
  | mk info children => mk info (uncommentedIn children)

def uncommentedIn : List Node → List Node
  | [] => []
  | mk info children :: rest =>
    if info.kind = "comment" then uncommentedIn rest
    else uncommented (mk info children) :: uncommentedIn rest

end

@[simp] theorem info_uncommented (n : Node) : n.uncommented.info = n.info := by
  cases n
  rfl

@[simp] theorem children_uncommented (n : Node) : n.uncommented.children = uncommentedIn n.children := by
  cases n
  rfl

theorem Ordered.of_mem_parts {root n : Node} (h : root.Ordered) (hn : n ∈ root.parts) : n.Ordered := by
  induction root using Node.induction with
  | mk info children ih =>
    rcases List.mem_cons.mp hn with rfl | hn
    · exact h
    · obtain ⟨c, hc, hn⟩ := mem_partsIn.mp hn
      exact ih c hc (h.child hc) hn

end Node
end FunctionLength.Syntax

namespace FunctionLength.Python
open FunctionLength.Text FunctionLength.Syntax

def HasStatement (n c : Node) : Prop := isCompound n.kind = true ∧ c ∈ n.children ∧ isStatement c.info = true

/-- The lines on which those statements of a node end that consist of no others, at any depth. -/
def finalLines (n : Node) : Set Nat :=
  {line | ∃ s, Relation.ReflTransGen HasStatement n s ∧ (∀ c, ¬ HasStatement s c) ∧ line = endLine s.info}

section Final

variable {n : Node}

theorem lastStatementLine_of_final (h : ∀ c, ¬ HasStatement n c) : lastStatementLine n = endLine n.info := by
  rw [lastStatementLine_eq]
  split
  · rename_i hcompound
    rcases lastStatementLineIn?_cases n.children with ⟨hnone, -⟩ | ⟨front, c, back, hsplit, hc, -⟩
    · rw [hnone, Option.getD_none]
    · exact absurd ⟨hcompound, by simp [hsplit], hc⟩ (h c)
  · rfl

theorem finalLines_of_final (h : ∀ c, ¬ HasStatement n c) : finalLines n = {endLine n.info} := by
  ext line
  constructor
  · rintro ⟨s, hreach, -, rfl⟩
    rcases hreach.cases_head with rfl | ⟨c, hc, -⟩
    · rfl
    · exact absurd hc (h c)
  · rintro rfl
    exact ⟨n, .refl, h, rfl⟩

/-- A statement that consists of others ends where one of these ends. -/
theorem mem_finalLines_iff {d : Node} (hd : HasStatement n d) {line : Nat} :
    line ∈ finalLines n ↔ ∃ c, HasStatement n c ∧ line ∈ finalLines c := by
  constructor
  · rintro ⟨s, hreach, hfinal, rfl⟩
    rcases hreach.cases_head with rfl | ⟨c, hc, hreach⟩
    · exact absurd hd (hfinal d)
    · exact ⟨c, hc, s, hreach, hfinal, rfl⟩
  · rintro ⟨c, hc, s, hreach, hfinal, rfl⟩
    exact ⟨s, hreach.head hc, hfinal, rfl⟩

/-- The search for the last statement goes on in one of the statements. -/
theorem exists_hasStatement {d : Node} (hd : HasStatement n d) :
    ∃ c, HasStatement n c ∧ lastStatementLine n = lastStatementLine c := by
  obtain ⟨hcompound, hmem, hs⟩ := hd
  rcases lastStatementLineIn?_cases n.children with ⟨-, hnone⟩ | ⟨front, c, back, hsplit, hc, -, hsome⟩
  · rw [hnone d hmem] at hs
    contradiction
  · refine ⟨c, ⟨hcompound, by simp [hsplit], hc⟩, ?_⟩
    rw [lastStatementLine_eq, if_pos hcompound, hsome, Option.getD_some]

theorem isGreatest_finalLines (h : n.Ordered) : IsGreatest (finalLines n) (lastStatementLine n) := by
  induction n using Node.induction with
  | mk info children ih =>
    by_cases hfinal : ∀ c, ¬ HasStatement (.mk info children) c
    · rw [finalLines_of_final hfinal, lastStatementLine_of_final hfinal]
      exact isGreatest_singleton
    · obtain ⟨d, hd⟩ := not_forall_not.mp hfinal
      constructor
      · obtain ⟨c, hc, hline⟩ := exists_hasStatement hd
        rw [mem_finalLines_iff hd, hline]
        exact ⟨c, hc, (ih c hc.2.1 (h.child hc.2.1)).1⟩
      · intro line hmem
        obtain ⟨c, hc, hline⟩ := (mem_finalLines_iff hd).mp hmem
        have hle : line ≤ lastStatementLine c := (ih c hc.2.1 (h.child hc.2.1)).2 hline
        exact hle.trans (lastStatementLine_child_le h hc.1 hc.2.1 hc.2.2)

end Final

theorem lastStatementLineIn?_uncommented {children : List Node}
    (h : ∀ c ∈ children, lastStatementLine c.uncommented = lastStatementLine c) :
    lastStatementLineIn? (Node.uncommentedIn children) = lastStatementLineIn? children := by
  induction children with
  | nil => rfl
  | cons c rest ih =>
    obtain ⟨info, children⟩ := c
    have hrest := ih fun d hd => h d (List.mem_cons_of_mem _ hd)
    rw [Node.uncommentedIn, lastStatementLineIn?]
    split
    · rename_i hcomment
      have hnot : isStatement info = false := by simp [isStatement, hcomment]
      rw [hrest, hnot]
      cases lastStatementLineIn? rest <;> rfl
    · have hc := h (.mk info children) List.mem_cons_self
      rw [Node.uncommented] at hc ⊢
      rw [lastStatementLineIn?, hrest, hc]

theorem lastStatementLine_uncommented (n : Node) : lastStatementLine n.uncommented = lastStatementLine n := by
  induction n using Node.induction with
  | mk info children ih =>
    rw [Node.uncommented, lastStatementLine, lastStatementLine, lastStatementLineIn?_uncommented ih]

/-- In a tree whose ranges are in order, the search for the last statement of a node finds the greatest of the
lines on which a statement below it ends, whatever comments there are. -/
theorem lastStatementLine_isGreatest {root n : Node} (h : root.Ordered) (hn : n ∈ root.parts) :
    IsGreatest (finalLines n) (lastStatementLine n) ∧
      lastStatementLine n.uncommented = lastStatementLine n :=
  ⟨isGreatest_finalLines (h.of_mem_parts hn), lastStatementLine_uncommented n⟩

def emptyElse : Node :=
  .mk ⟨"module", true, none, none, ⟨0, 0, 0, 0⟩, ⟨39, 39, 5, 0⟩⟩
    [.mk ⟨"while_statement", true, none, none, ⟨0, 0, 0, 0⟩, ⟨32, 32, 3, 5⟩⟩
      [.mk ⟨"identifier", true, none, some "condition", ⟨6, 6, 0, 6⟩, ⟨7, 7, 0, 7⟩⟩ [],
        .mk ⟨"block", true, none, some "body", ⟨13, 13, 1, 4⟩, ⟨26, 26, 2, 9⟩⟩
          [.mk ⟨"expression_statement", true, none, none, ⟨13, 13, 1, 4⟩, ⟨16, 16, 1, 7⟩⟩ [],
            .mk ⟨"comment", true, none, none, ⟨21, 21, 2, 4⟩, ⟨26, 26, 2, 9⟩⟩ []],
        .mk ⟨"else_clause", true, none, some "alternative", ⟨27, 27, 3, 0⟩, ⟨32, 32, 3, 5⟩⟩
          [.mk ⟨"block", true, none, some "body", ⟨32, 32, 3, 5⟩, ⟨32, 32, 3, 5⟩⟩ []]],
      .mk ⟨"comment", true, none, none, ⟨33, 33, 4, 0⟩, ⟨38, 38, 4, 5⟩⟩ []]

theorem lastStatementLine_emptyElse :
    emptyElse.Ordered ∧ IsGreatest (finalLines emptyElse) 4 ∧ lastStatementLine emptyElse.uncommented = 4 := by
  have hordered : emptyElse.Ordered := by decide +kernel
  have hline : lastStatementLine emptyElse = 4 := by decide +kernel
  have hgreatest := lastStatementLine_isGreatest hordered emptyElse.self_mem_parts
  rw [hline] at hgreatest
  exact ⟨hordered, hgreatest⟩

end FunctionLength.Python
