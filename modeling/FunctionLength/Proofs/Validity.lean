import FunctionLength.Proofs.Spans
import FunctionLength.Python.Reader
import Mathlib.Data.List.Basic

namespace FunctionLength.Text

theorem Extent.le_trans {a b c : Extent} (hab : a ≤ b) (hbc : b ≤ c) : a ≤ c := by
  rcases hab with hab | ⟨hab, hcolumn⟩
  · exact .inl (Nat.lt_of_lt_of_le hab (rows_le hbc))
  · rcases hbc with hbc | ⟨hbc, hcolumn'⟩
    · exact .inl (by omega)
    · exact .inr ⟨by omega, by omega⟩

instance : @Trans Extent Extent Extent LE.le LE.le LE.le := ⟨Extent.le_trans⟩

end FunctionLength.Text

namespace FunctionLength.Syntax.Node
open FunctionLength.Text

mutual

theorem find?_eq (p : Info → Bool) (n : Node) : n.find? p = n.parts.find? fun m => p m.info := by
  cases n with
  | mk info children =>
    rw [find?, parts, List.find?_cons, findIn?_eq p children]
    cases h : p info with
    | true => rw [if_pos rfl]; simp [Node.info, h]
    | false => simp [Node.info, h]

theorem findIn?_eq (p : Info → Bool) (ns : List Node) : findIn? p ns = (partsIn ns).find? fun m => p m.info := by
  cases ns with
  | nil => rfl
  | cons n rest => rw [findIn?, partsIn, List.find?_append, find?_eq p n, findIn?_eq p rest]

end

theorem partsIn_eq_flatMap (ns : List Node) : partsIn ns = ns.flatMap parts := by
  induction ns with
  | nil => rfl
  | cons n ns ih => rw [partsIn, ih, List.flatMap_cons]

namespace Ordered

theorem inside {n m : Node} (h : n.Ordered) (hm : m ∈ n.parts) :
    n.info.start ≤ m.info.start ∧ m.info.finish ≤ n.info.finish := by
  induction n using Node.induction with
  | mk info children ih =>
    rcases List.mem_cons.mp hm with rfl | hm
    · exact ⟨.inr ⟨rfl, Nat.le_refl _⟩, .inr ⟨rfl, Nat.le_refl _⟩⟩
    · obtain ⟨c, hc, hm⟩ := mem_partsIn.mp hm
      obtain ⟨hstart, hfinish⟩ := h.inOrder.inside c hc
      obtain ⟨hstart', hfinish'⟩ := ih c hc (h.child hc) hm
      exact ⟨Extent.le_trans hstart hstart', Extent.le_trans hfinish' hfinish⟩

/-- Parts that come later begin later, or at the same place: all of a child ends before the next child begins. -/
theorem pairwise_start {n : Node} (h : n.Ordered) : n.parts.Pairwise fun a b => a.info.start ≤ b.info.start := by
  induction n using Node.induction with
  | mk info children ih =>
    rw [parts, List.pairwise_cons]
    constructor
    · exact fun m hm => (h.inside (List.mem_cons_of_mem _ hm)).1
    rw [partsIn_eq_flatMap, List.pairwise_flatMap]
    constructor
    · exact fun c hc => ih c hc (h.child hc)
    · refine h.inOrder.ordered.imp_of_mem fun {c d} hc hd hcd a ha b hb => ?_
      have hfirst := (h.child hc).inside ha
      have hself : a.info.start ≤ a.info.finish := (h.child hc a ha).start_le
      have hsecond := (h.child hd).inside hb
      calc a.info.start ≤ a.info.finish := hself
        _ ≤ c.info.finish := hfirst.2
        _ ≤ d.info.start := hcd
        _ ≤ b.info.start := hsecond.1

end Ordered
end FunctionLength.Syntax.Node

namespace FunctionLength.Python
open FunctionLength.Text FunctionLength.Syntax

/-- A node that no valid program has: an error, a part that is missing, or a statement that has become a function. -/
def Invalid (n : Node) : Prop :=
  n.info.fault = some .error ∨ n.info.fault = some .missing ∨
    n.kind = "print_statement" ∨ n.kind = "exec_statement"

theorem isInvalid_eq_true_iff (n : Node) : isInvalid n.info = true ↔ Invalid n := by
  rw [isInvalid, Bool.or_eq_true, Invalid, ← or_assoc]
  refine or_congr ?_ ?_
  · cases n.info.fault with
    | none => simp
    | some fault => cases fault <;> simp
  · rw [formerKeyword?, Node.kind]
    by_cases hprint : n.info.kind = "print_statement"
    · simp [hprint]
    · by_cases hexec : n.info.kind = "exec_statement" <;> simp [hprint, hexec]

/-- The first part of a tree that is not valid, in the order of the source. No other one begins on an earlier
line. -/
structure FirstInvalid (root bad : Node) : Prop where
  invalid : Invalid bad
  first : ∃ before after, root.parts = before ++ bad :: after ∧ ∀ n ∈ before, ¬ Invalid n
  earliest : ∀ n ∈ root.parts, Invalid n → bad.startRow ≤ n.startRow

theorem firstInvalid_of_find? {root bad : Node} (h : root.Ordered) (hbad : root.find? isInvalid = some bad) :
    FirstInvalid root bad := by
  rw [Node.find?_eq, List.find?_eq_some_iff_append] at hbad
  obtain ⟨hinvalid, before, after, hparts, hbefore⟩ := hbad
  have hfirst : ∀ n ∈ before, ¬ Invalid n := by
    intro n hn hn'
    have hfalse := hbefore n hn
    rw [(isInvalid_eq_true_iff n).mpr hn'] at hfalse
    contradiction
  refine ⟨(isInvalid_eq_true_iff bad).mp hinvalid, ⟨before, after, hparts, hfirst⟩, ?_⟩
  intro n hn hn'
  have hpairwise := h.pairwise_start
  rw [hparts] at hn hpairwise
  rcases List.mem_append.mp hn with hn | hn
  · exact absurd hn' (hfirst n hn)
  · rcases List.mem_cons.mp hn with rfl | hn
    · exact Nat.le_refl _
    · obtain ⟨-, hlater, -⟩ := List.pairwise_append.mp hpairwise
      exact Extent.rows_le ((List.pairwise_cons.mp hlater).1 n hn)

theorem find?_isInvalid_eq_none_iff (root : Node) :
    root.find? isInvalid = none ↔ ∀ n ∈ root.parts, ¬ Invalid n := by
  rw [Node.find?_eq, List.find?_eq_none]
  exact forall₂_congr fun n _ => not_congr (isInvalid_eq_true_iff n)

structure Points (path : String) (bad : Node) (e : SyntaxError) : Prop where
  file : e.file = Path.base path
  line : e.line = .ofNat (bad.startRow + 1)
  print : e.message = "Missing parentheses in call to 'print'. Did you mean print(...)?" ↔
    bad.kind = "print_statement"
  exec : e.message = "Missing parentheses in call to 'exec'. Did you mean exec(...)?" ↔
    bad.kind = "exec_statement"
  other : e.message = "invalid syntax" ↔ bad.kind ≠ "print_statement" ∧ bad.kind ≠ "exec_statement"

theorem complaint_cases (n : Node) :
    (n.kind = "print_statement" ∧
        complaint n.info = "Missing parentheses in call to 'print'. Did you mean print(...)?") ∨
      (n.kind = "exec_statement" ∧
        complaint n.info = "Missing parentheses in call to 'exec'. Did you mean exec(...)?") ∨
      n.kind ≠ "print_statement" ∧ n.kind ≠ "exec_statement" ∧ complaint n.info = "invalid syntax" := by
  by_cases hprint : n.kind = "print_statement"
  · refine .inl ⟨hprint, ?_⟩
    have hkeyword : formerKeyword? n.info.kind = some "print" := if_pos hprint
    rw [complaint, hkeyword]
    decide +kernel
  · by_cases hexec : n.kind = "exec_statement"
    · refine .inr (.inl ⟨hexec, ?_⟩)
      have hkeyword : formerKeyword? n.info.kind = some "exec" := (if_neg hprint).trans (if_pos hexec)
      rw [complaint, hkeyword]
      decide +kernel
    · refine .inr (.inr ⟨hprint, hexec, ?_⟩)
      have hkeyword : formerKeyword? n.info.kind = none := (if_neg hprint).trans (if_neg hexec)
      rw [complaint, hkeyword]

theorem points_complaint (path : String) (bad : Node) :
    Points path bad
      { file := Path.base path, line := .ofNat (bad.startRow + 1), message := complaint bad.info } := by
  rcases complaint_cases bad with ⟨hkind, htext⟩ | ⟨hkind, htext⟩ | ⟨hprint, hexec, htext⟩
  · constructor <;> simp [htext, hkind]
  · constructor <;> simp [htext, hkind]
  · constructor <;> simp [htext, hprint, hexec]

section Read

variable {tree? : Source → Option Node} {path : String} {content : ByteArray}

theorem readBy_of_isEmpty (h : content.isEmpty = true) : readBy tree? path content = .ok { path, body := [] } :=
  if_pos h

theorem readBy_of_tree {root : Node} (h : content.isEmpty = false)
    (htree : tree? (Source.ofBytes content) = some root) :
    readBy tree? path content = ofTree path (Source.ofBytes content) root := by
  rw [readBy, h]
  simp only [htree, Bool.false_eq_true, if_false]

theorem ofTree_cases (path : String) (src : Source) {root : Node} (h : root.Ordered) :
    (∃ bad e, FirstInvalid root bad ∧ Points path bad e ∧ ofTree path src root = .error (.invalid e)) ∨
      (∀ n ∈ root.parts, ¬ Invalid n) ∧ ofTree path src root = .ok { path, body := outlineAll src root.children } := by
  cases hbad : root.find? isInvalid with
  | some bad =>
    exact .inl ⟨bad, _, firstInvalid_of_find? h hbad, points_complaint path bad, by rw [ofTree, hbad]⟩
  | none => exact .inr ⟨(find?_isInvalid_eq_none_iff root).mp hbad, by rw [ofTree, hbad]⟩

/-- A file is not read just if it is not empty and its tree has a part that is not valid, at any depth. What is said
then is where the first of them begins, before which no line has another one, and which former statement it is, if it
is one. Texts have trees whose ranges are in order. -/
theorem readBy_fails_iff (tree? : Source → Option Node) (path : String) (content : ByteArray)
    (htree : content.isEmpty = false → ∃ root, tree? (Source.ofBytes content) = some root ∧ root.Ordered) :
    ((∃ failure, readBy tree? path content = .error failure) ↔
        content.isEmpty = false ∧ ∃ root, tree? (Source.ofBytes content) = some root ∧ ∃ n ∈ root.parts, Invalid n) ∧
      (∀ failure, readBy tree? path content = .error failure →
        ∃ root bad e, tree? (Source.ofBytes content) = some root ∧ FirstInvalid root bad ∧
          failure = .invalid e ∧ Points path bad e) ∧
      ∀ f, readBy tree? path content = .ok f → f.path = path := by
  cases hempty : content.isEmpty with
  | true =>
    rw [readBy_of_isEmpty hempty]
    refine ⟨by simp, by simp, fun f hf => ?_⟩
    cases hf
    rfl
  | false =>
    obtain ⟨root, hroot, hordered⟩ := htree hempty
    rw [readBy_of_tree hempty hroot, hroot]
    rcases ofTree_cases path (Source.ofBytes content) hordered with
      ⟨bad, e, hfirst, hpoints, heq⟩ | ⟨hvalid, heq⟩
    · rw [heq]
      refine ⟨?_, ?_, by simp⟩
      · obtain ⟨before, after, hparts, -⟩ := hfirst.first
        exact ⟨fun _ => ⟨rfl, root, rfl, bad, by simp [hparts], hfirst.invalid⟩, fun _ => ⟨_, rfl⟩⟩
      · rintro failure hfailure
        cases hfailure
        exact ⟨root, bad, e, rfl, hfirst, rfl, hpoints⟩
    · rw [heq]
      refine ⟨?_, by simp, fun f hf => ?_⟩
      · constructor
        · rintro ⟨failure, hfailure⟩
          cases hfailure
        · rintro ⟨-, root', hroot', n, hn, hinvalid⟩
          cases hroot'
          exact absurd hinvalid (hvalid n hn)
      · cases hf
        rfl

end Read

def formerStatements : ByteArray := "if x:\n    exec y\nwhile :\n    print 1\n".toUTF8

def formerTree : Node :=
  .mk ⟨"module", true, none, none, ⟨0, 0, 0, 0⟩, ⟨37, 37, 4, 0⟩⟩
    [.mk ⟨"if_statement", true, none, none, ⟨0, 0, 0, 0⟩, ⟨16, 16, 1, 10⟩⟩
      [.mk ⟨"if", false, none, none, ⟨0, 0, 0, 0⟩, ⟨2, 2, 0, 2⟩⟩ [],
        .mk ⟨"identifier", true, none, some "condition", ⟨3, 3, 0, 3⟩, ⟨4, 4, 0, 4⟩⟩ [],
        .mk ⟨":", false, none, none, ⟨4, 4, 0, 4⟩, ⟨5, 5, 0, 5⟩⟩ [],
        .mk ⟨"block", true, none, some "consequence", ⟨10, 10, 1, 4⟩, ⟨16, 16, 1, 10⟩⟩
          [.mk ⟨"exec_statement", true, none, none, ⟨10, 10, 1, 4⟩, ⟨16, 16, 1, 10⟩⟩
            [.mk ⟨"exec", false, none, none, ⟨10, 10, 1, 4⟩, ⟨14, 14, 1, 8⟩⟩ [],
              .mk ⟨"identifier", true, none, some "code", ⟨15, 15, 1, 9⟩, ⟨16, 16, 1, 10⟩⟩ []]]],
      .mk ⟨"while_statement", true, none, none, ⟨17, 17, 2, 0⟩, ⟨36, 36, 3, 11⟩⟩
        [.mk ⟨"while", false, none, none, ⟨17, 17, 2, 0⟩, ⟨22, 22, 2, 5⟩⟩ [],
          .mk ⟨"identifier", true, some .missing, some "condition", ⟨22, 22, 2, 5⟩, ⟨22, 22, 2, 5⟩⟩ [],
          .mk ⟨":", false, none, none, ⟨23, 23, 2, 6⟩, ⟨24, 24, 2, 7⟩⟩ [],
          .mk ⟨"block", true, none, some "body", ⟨29, 29, 3, 4⟩, ⟨36, 36, 3, 11⟩⟩
            [.mk ⟨"print_statement", true, none, none, ⟨29, 29, 3, 4⟩, ⟨36, 36, 3, 11⟩⟩
              [.mk ⟨"print", false, none, none, ⟨29, 29, 3, 4⟩, ⟨34, 34, 3, 9⟩⟩ [],
                .mk ⟨"integer", true, none, some "argument", ⟨35, 35, 3, 10⟩, ⟨36, 36, 3, 11⟩⟩ []]]]]

theorem readBy_fails_formerTree :
    formerTree.Ordered ∧ formerStatements.isEmpty = false ∧
      readBy (fun _ => some formerTree) "d/a.py" formerStatements =
        .error (.invalid ⟨"a.py", 2, "Missing parentheses in call to 'exec'. Did you mean exec(...)?"⟩) ∧
      ∃ bad, FirstInvalid formerTree bad ∧ bad.kind = "exec_statement" ∧
        Points "d/a.py" bad ⟨"a.py", 2, "Missing parentheses in call to 'exec'. Did you mean exec(...)?"⟩ := by
  have hordered : formerTree.Ordered := by decide +kernel
  have hnonempty : formerStatements.isEmpty = false := by decide +kernel
  have hfile : Path.base "d/a.py" = "a.py" := by decide +kernel
  have hread : readBy (fun _ => some formerTree) "d/a.py" formerStatements =
      .error (.invalid ⟨"a.py", 2, "Missing parentheses in call to 'exec'. Did you mean exec(...)?"⟩) := by
    rw [readBy_of_tree hnonempty rfl, ← hfile]
    rfl
  obtain ⟨-, hpoints, -⟩ := readBy_fails_iff (fun _ => some formerTree) "d/a.py" formerStatements
    fun _ => ⟨formerTree, rfl, hordered⟩
  obtain ⟨root, bad, e, hroot, hfirst, he, hbad⟩ := hpoints _ hread
  cases hroot
  cases he
  exact ⟨hordered, hnonempty, hread, bad, hfirst, hbad.exec.mp rfl, hbad⟩

end FunctionLength.Python
