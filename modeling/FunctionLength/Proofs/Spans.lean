import FunctionLength.Proofs.Places
import FunctionLength.Python.Outline

namespace FunctionLength.Text

instance : LE Extent := ⟨fun a b => a.rows < b.rows ∨ a.rows = b.rows ∧ a.column ≤ b.column⟩

instance (a b : Extent) : Decidable (a ≤ b) :=
  inferInstanceAs (Decidable (a.rows < b.rows ∨ a.rows = b.rows ∧ a.column ≤ b.column))

theorem Extent.rows_le {a b : Extent} (h : a ≤ b) : a.rows ≤ b.rows := by
  rcases h with h | ⟨h, -⟩ <;> omega

end FunctionLength.Text

namespace FunctionLength.Syntax
open FunctionLength.Text FunctionLength.Python

namespace Node

mutual

def parts : Node → List Node
  | mk info children => mk info children :: partsIn children

def partsIn : List Node → List Node
  | [] => []
  | n :: rest => n.parts ++ partsIn rest

end

theorem mem_partsIn {m : Node} {ns : List Node} : m ∈ partsIn ns ↔ ∃ n ∈ ns, m ∈ n.parts := by
  induction ns with
  | nil => simp [partsIn]
  | cons n ns ih => simp [partsIn, ih]

theorem self_mem_parts (n : Node) : n ∈ n.parts := by
  cases n
  simp [parts]

theorem induction {motive : Node → Prop}
    (mk : ∀ info children, (∀ c ∈ children, motive c) → motive (.mk info children)) (n : Node) : motive n := by
  cases n with
  | mk info children =>
    refine mk info children fun c hc => ?_
    have hlt : sizeOf c < sizeOf (Node.mk info children) := sizeOf_lt_of_mem (n := .mk info children) hc
    exact induction mk c
termination_by sizeOf n

def isDefinition (n : Node) : Bool := n.kind = "function_definition" || n.kind = "class_definition"

def HoldsDefinition (n : Node) : Prop := ∃ d ∈ n.parts, d.isDefinition = true

/-- A node that begins before it ends, with its children inside and one after the other. -/
structure InOrder (n : Node) : Prop where
  start_le : n.info.start ≤ n.info.finish
  inside : ∀ c ∈ n.children, n.info.start ≤ c.info.start ∧ c.info.finish ≤ n.info.finish
  ordered : n.children.Pairwise fun a b => a.info.finish ≤ b.info.start

instance (n : Node) : Decidable n.InOrder :=
  decidable_of_iff (n.info.start ≤ n.info.finish ∧
      (∀ c ∈ n.children, n.info.start ≤ c.info.start ∧ c.info.finish ≤ n.info.finish) ∧
      n.children.Pairwise fun a b => a.info.finish ≤ b.info.start)
    ⟨fun ⟨h₁, h₂, h₃⟩ => ⟨h₁, h₂, h₃⟩, fun h => ⟨h.start_le, h.inside, h.ordered⟩⟩

def Ordered (n : Node) : Prop := ∀ m ∈ n.parts, m.InOrder

instance (n : Node) : Decidable n.Ordered := inferInstanceAs (Decidable (∀ m ∈ n.parts, m.InOrder))

structure Regular (n : Node) : Prop extends InOrder n where
  comment : n.kind = "comment" → n.children = []
  /-- Definitions and what holds them have a name of their own: they are neither punctuation nor keywords. -/
  named : n.HoldsDefinition → n.isNamed = true
  /-- Definitions stand in compound statements only. -/
  definitions : ∀ d ∈ partsIn n.children, d.isDefinition = true → isCompound n.kind = true

instance (n : Node) : Decidable n.Regular :=
  decidable_of_iff (n.InOrder ∧ (n.kind = "comment" → n.children.isEmpty = true) ∧
      ((∃ d ∈ n.parts, d.isDefinition = true) → n.isNamed = true) ∧
      ∀ d ∈ partsIn n.children, d.isDefinition = true → isCompound n.kind = true)
    ⟨fun ⟨h₁, h₂, h₃, h₄⟩ => ⟨h₁, fun h => List.isEmpty_iff.mp (h₂ h), h₃, h₄⟩,
      fun h => ⟨h.toInOrder, fun hc => List.isEmpty_iff.mpr (h.comment hc), h.named, h.definitions⟩⟩

/-- A tree whose ranges are in order, and in which all that is above a definition is a compound statement. -/
def WellFormed (n : Node) : Prop := ∀ m ∈ n.parts, m.Regular

instance (n : Node) : Decidable n.WellFormed := inferInstanceAs (Decidable (∀ m ∈ n.parts, m.Regular))

theorem mem_parts_of_child {n c m : Node} (hc : c ∈ n.children) (hm : m ∈ c.parts) : m ∈ n.parts := by
  cases n
  exact List.mem_cons_of_mem _ (mem_partsIn.mpr ⟨c, hc, hm⟩)

namespace Ordered

variable {n c : Node}

theorem inOrder (h : n.Ordered) : n.InOrder := h n n.self_mem_parts

theorem child (h : n.Ordered) (hc : c ∈ n.children) : c.Ordered := fun m hm => h m (mem_parts_of_child hc hm)

end Ordered

theorem holdsDefinition_of_mem {n c : Node} (hc : c ∈ n.children) (h : c.HoldsDefinition) :
    ∃ d ∈ partsIn n.children, d.isDefinition = true := by
  obtain ⟨d, hd, hdef⟩ := h
  exact ⟨d, mem_partsIn.mpr ⟨c, hc, hd⟩, hdef⟩

theorem HoldsDefinition.of_mem {n c : Node} (hc : c ∈ n.children) (h : c.HoldsDefinition) :
    n.HoldsDefinition := by
  obtain ⟨d, hd, hdef⟩ := holdsDefinition_of_mem hc h
  cases n
  exact ⟨d, List.mem_cons_of_mem _ hd, hdef⟩

theorem isCompound_of_isDefinition {n : Node} (h : n.isDefinition = true) : isCompound n.kind = true := by
  rcases Bool.or_eq_true_iff.mp h with h | h
  · rw [of_decide_eq_true h]
    decide
  · rw [of_decide_eq_true h]
    decide

namespace WellFormed

variable {n c : Node}

theorem regular (h : n.WellFormed) : n.Regular := h n n.self_mem_parts

theorem child (h : n.WellFormed) (hc : c ∈ n.children) : c.WellFormed :=
  fun m hm => h m (mem_parts_of_child hc hm)

theorem ordered (h : n.WellFormed) : n.Ordered := fun m hm => (h m hm).toInOrder

theorem isCompound (h : n.WellFormed) (hd : n.HoldsDefinition) : Python.isCompound n.kind = true := by
  obtain ⟨d, hd, hdef⟩ := hd
  have hregular := h.regular
  cases n with
  | mk info children =>
    rcases List.mem_cons.mp hd with rfl | hd
    · exact isCompound_of_isDefinition hdef
    · exact hregular.definitions d hd hdef

theorem isCompound_parent (h : n.WellFormed) (hc : c ∈ n.children) (hd : c.HoldsDefinition) :
    Python.isCompound n.kind = true := by
  obtain ⟨d, hd, hdef⟩ := holdsDefinition_of_mem hc hd
  exact h.regular.definitions d hd hdef

theorem isStatement (h : n.WellFormed) (hd : n.HoldsDefinition) : Python.isStatement n.info = true := by
  have hcompound := h.isCompound hd
  have hnamed : n.info.named = true := h.regular.named hd
  have hcomment : n.info.kind ≠ "comment" := by
    intro heq
    rw [kind, heq] at hcompound
    revert hcompound
    decide
  simp [Python.isStatement, hnamed, hcomment]

end WellFormed
end Node

mutual

/-- All functions in a declaration lie within some lines, and within the lines of the functions around
them. -/
def Declaration.Within (first last : Nat) : Declaration → Prop
  | .function _ f l body =>
    ∃ a b, f = .ofNat a ∧ l = .ofNat b ∧ first ≤ a ∧ a ≤ b ∧ b ≤ last ∧ AllWithin a b body
  | .type _ body => AllWithin first last body
  | .other _ body => AllWithin first last body

def AllWithin (first last : Nat) : List Declaration → Prop
  | [] => True
  | d :: rest => d.Within first last ∧ AllWithin first last rest

end

theorem allWithin_iff {first last : Nat} {ds : List Declaration} :
    AllWithin first last ds ↔ ∀ d ∈ ds, d.Within first last := by
  induction ds with
  | nil => simp [AllWithin]
  | cons d ds ih => simp [AllWithin, ih]

mutual

theorem Declaration.Within.mono {first last first' last' : Nat} (hf : first' ≤ first) (hl : last ≤ last')
    (d : Declaration) (h : d.Within first last) : d.Within first' last' := by
  cases d with
  | function name f l body =>
    obtain ⟨a, b, rfl, rfl, ha, hab, hb, hbody⟩ := h
    exact ⟨a, b, rfl, rfl, by omega, hab, by omega, hbody⟩
  | type name body => exact AllWithin.mono hf hl body h
  | other kind body => exact AllWithin.mono hf hl body h

theorem AllWithin.mono {first last first' last' : Nat} (hf : first' ≤ first) (hl : last ≤ last')
    (ds : List Declaration) (h : AllWithin first last ds) : AllWithin first' last' ds := by
  cases ds with
  | nil => trivial
  | cons d ds => exact ⟨Declaration.Within.mono hf hl d h.1, AllWithin.mono hf hl ds h.2⟩

end

mutual

theorem Declaration.Within.of_mem_places {first last : Nat} {parent : Option Declaration} {p : Place}
    (d : Declaration) (h : d.Within first last) (hp : p ∈ d.places parent) : p.node.Within first last := by
  cases d with
  | function name f l body =>
    rcases List.mem_cons.mp hp with rfl | hp
    · exact h
    · obtain ⟨a, b, -, -, ha, hab, hb, hbody⟩ := h
      exact Declaration.Within.mono ha hb p.node (AllWithin.of_mem_placesIn body hbody hp)
  | type name body =>
    rcases List.mem_cons.mp hp with rfl | hp
    · exact h
    · exact AllWithin.of_mem_placesIn body h hp
  | other kind body =>
    rcases List.mem_cons.mp hp with rfl | hp
    · exact h
    · exact AllWithin.of_mem_placesIn body h hp

theorem AllWithin.of_mem_placesIn {first last : Nat} {parent : Option Declaration} {p : Place}
    (ds : List Declaration) (h : AllWithin first last ds) (hp : p ∈ placesIn parent ds) :
    p.node.Within first last := by
  cases ds with
  | nil => simp [placesIn] at hp
  | cons d ds =>
    rcases List.mem_append.mp hp with hp | hp
    · exact Declaration.Within.of_mem_places d h.1 hp
    · exact AllWithin.of_mem_placesIn ds h.2 hp

end

end FunctionLength.Syntax

namespace FunctionLength.Python
open FunctionLength.Text FunctionLength.Syntax

theorem le_endLine {i : Node.Info} (h : i.start ≤ i.finish) : i.start.rows + 1 ≤ endLine i := by
  have hrows := Extent.rows_le h
  unfold endLine
  split
  · rename_i hlater
    exact of_decide_eq_true (Bool.and_eq_true_iff.mp hlater).2
  · omega

theorem endLine_le (i : Node.Info) : endLine i ≤ i.finish.rows + 1 := by
  unfold endLine
  split <;> omega

theorem lastStatementLineIn?_cases (children : List Node) :
    (lastStatementLineIn? children = none ∧ ∀ c ∈ children, isStatement c.info = false) ∨
      ∃ front c back, children = front ++ c :: back ∧ isStatement c.info = true ∧
        (∀ d ∈ back, isStatement d.info = false) ∧
        lastStatementLineIn? children = some (lastStatementLine c) := by
  induction children with
  | nil => exact Or.inl ⟨rfl, by simp⟩
  | cons c rest ih =>
    obtain ⟨info, children⟩ := c
    rcases ih with ⟨hnone, hrest⟩ | ⟨front, c, back, rfl, hc, hback, hsome⟩
    · by_cases hs : isStatement info = true
      · exact Or.inr ⟨[], .mk info children, rest, rfl, hs, hrest, by simp [lastStatementLineIn?, hnone, hs]⟩
      · refine Or.inl ⟨by simp [lastStatementLineIn?, hnone, hs], ?_⟩
        intro d hd
        rcases List.mem_cons.mp hd with rfl | hd
        · exact Bool.eq_false_iff.mpr hs
        · exact hrest d hd
    · refine Or.inr ⟨.mk info children :: front, c, back, rfl, hc, hback, ?_⟩
      rw [lastStatementLineIn?, hsome]

theorem lastStatementLine_eq (n : Node) :
    lastStatementLine n =
      if isCompound n.kind then (lastStatementLineIn? n.children).getD (endLine n.info) else endLine n.info := by
  cases n
  rw [lastStatementLine]
  rfl

theorem lastStatementLine_mem_lines {n : Node} (h : n.Ordered) :
    n.info.start.rows + 1 ≤ lastStatementLine n ∧ lastStatementLine n ≤ n.info.finish.rows + 1 := by
  induction n using Node.induction with
  | mk info children ih =>
    have hself := le_endLine h.inOrder.start_le
    have hend := endLine_le info
    rw [lastStatementLine_eq]
    split
    · rcases lastStatementLineIn?_cases children with ⟨hnone, -⟩ | ⟨front, c, back, rfl, -, -, hsome⟩
      · rw [Node.children, hnone]
        exact ⟨hself, hend⟩
      · have hc : c ∈ front ++ c :: back := by simp
        have hstart := Extent.rows_le (h.inOrder.inside c hc).1
        have hfinish := Extent.rows_le (h.inOrder.inside c hc).2
        have hbounds := ih c hc (h.child hc)
        rw [Node.children, hsome, Option.getD_some]
        omega
    · exact ⟨hself, hend⟩

theorem lastStatementLine_bounds {n : Node} (h : n.WellFormed) :
    n.info.start.rows + 1 ≤ lastStatementLine n ∧ lastStatementLine n ≤ n.info.finish.rows + 1 :=
  lastStatementLine_mem_lines h.ordered

/-- The last statement of a compound statement does not end before that of any of its parts. Either the
search goes through the part itself, or through one that begins after it. -/
theorem lastStatementLine_child_le {n c : Node} (h : n.Ordered) (hcompound : isCompound n.kind = true)
    (hc : c ∈ n.children) (hs : isStatement c.info = true) : lastStatementLine c ≤ lastStatementLine n := by
  rcases lastStatementLineIn?_cases n.children with ⟨-, hnone⟩ | ⟨front, d, back, hsplit, -, hback, hsome⟩
  · rw [hnone c hc] at hs
    contradiction
  · have hd : d ∈ n.children := by simp [hsplit]
    have hline : lastStatementLine n = lastStatementLine d := by
      rw [lastStatementLine_eq, if_pos hcompound, hsome, Option.getD_some]
    rw [hline]
    rw [hsplit] at hc
    rcases List.mem_append.mp hc with hfront | hrest
    · have hordered := h.inOrder.ordered
      rw [hsplit] at hordered
      have hafter : c.info.finish ≤ d.info.start :=
        (List.pairwise_append.mp hordered).2.2 c hfront d (by simp)
      have hrows := Extent.rows_le hafter
      have hcbounds := lastStatementLine_mem_lines (h.child (c := c) (by simp [hsplit, hfront]))
      have hdbounds := lastStatementLine_mem_lines (h.child hd)
      omega
    · rcases List.mem_cons.mp hrest with rfl | hmem
      · exact Nat.le_refl _
      · rw [hback c hmem] at hs
        contradiction

theorem outlineBody_cases (src : Source) (children : List Node) :
    outlineBody src children = [] ∨
      ∃ c ∈ children, outlineBody src children = outlineAll src c.children := by
  induction children with
  | nil => exact Or.inl rfl
  | cons c rest ih =>
    obtain ⟨info, children⟩ := c
    by_cases hfield : info.field = some "body"
    · exact Or.inr ⟨.mk info children, by simp, by simp [outlineBody, hfield, Node.children]⟩
    · rcases ih with hnil | ⟨c, hc, heq⟩
      · exact Or.inl (by simp [outlineBody, hfield, hnil])
      · exact Or.inr ⟨c, by simp [hc], by simp [outlineBody, hfield, heq]⟩

theorem outlineDefinition_cases (src : Source) (children : List Node) :
    outlineDefinition src children = [] ∨
      ∃ c ∈ children, outlineDefinition src children = outline src c := by
  induction children with
  | nil => exact Or.inl rfl
  | cons c rest ih =>
    obtain ⟨info, children⟩ := c
    by_cases hfield : info.field = some "definition"
    · exact Or.inr ⟨.mk info children, by simp, by simp [outlineDefinition, hfield]⟩
    · rcases ih with hnil | ⟨c, hc, heq⟩
      · exact Or.inl (by simp [outlineDefinition, hfield, hnil])
      · exact Or.inr ⟨c, by simp [hc], by simp [outlineDefinition, hfield, heq]⟩

theorem mem_outlineAll {src : Source} {children : List Node} {d : Declaration}
    (h : d ∈ outlineAll src children) : ∃ c ∈ children, d ∈ outline src c := by
  induction children with
  | nil => simp [outlineAll] at h
  | cons c rest ih =>
    obtain ⟨info, children⟩ := c
    simp only [outlineAll] at h
    split at h
    · rcases List.mem_append.mp h with h | h
      · exact ⟨.mk info children, by simp, h⟩
      · obtain ⟨c, hc, h⟩ := ih h
        exact ⟨c, by simp [hc], h⟩
    · obtain ⟨c, hc, h⟩ := ih h
      exact ⟨c, by simp [hc], h⟩

theorem outline_cases (src : Source) (n : Node) :
    (n.isDefinition = true ∧ ∃ name,
        outline src n = [.function name (.ofNat (n.info.start.rows + 1)) (.ofNat (lastStatementLine n))
          (outlineBody src n.children)] ∨
        outline src n = [.type name (outlineBody src n.children)]) ∨
      outline src n = outlineDefinition src n.children ∨
      outline src n = outlineAll src n.children ∨
      outlineAll src n.children ≠ [] ∧ outline src n = [.other n.kind (outlineAll src n.children)] := by
  obtain ⟨info, children⟩ := n
  simp only [Node.isDefinition, Node.kind, Node.info, Node.children]
  by_cases hf : info.kind = "function_definition"
  · exact Or.inl ⟨by simp [hf], _, Or.inl (by rw [outline, if_pos hf])⟩
  by_cases hc : info.kind = "class_definition"
  · exact Or.inl ⟨by simp [hc], _, Or.inr (by rw [outline, if_neg hf, if_pos hc])⟩
  refine Or.inr ?_
  by_cases hd : info.kind = "decorated_definition"
  · exact Or.inl (by rw [outline, if_neg hf, if_neg hc, if_pos hd])
  refine Or.inr ?_
  by_cases hb : info.kind = "block"
  · exact Or.inl (by rw [outline, if_neg hf, if_neg hc, if_neg hd, if_pos hb])
  rw [outline, if_neg hf, if_neg hc, if_neg hd, if_neg hb]
  cases outlineAll src children with
  | nil => exact Or.inl rfl
  | cons d ds => exact Or.inr ⟨by simp, rfl⟩

/-- Only what holds a definition makes a declaration. -/
theorem holdsDefinition_of_mem_outline {src : Source} {n : Node} {d : Declaration}
    (hd : d ∈ outline src n) : n.HoldsDefinition := by
  induction n using Node.induction generalizing d with
  | mk info children ih =>
    have hchildren : ∀ d ∈ outlineAll src children, (Node.mk info children).HoldsDefinition := by
      intro d hd
      obtain ⟨c, hc, hd⟩ := mem_outlineAll hd
      exact .of_mem hc (ih c hc hd)
    rcases outline_cases src (.mk info children) with ⟨hdef, -⟩ | heq | heq | ⟨hne, -⟩
    · exact ⟨_, Node.self_mem_parts _, hdef⟩
    · rw [heq] at hd
      rcases outlineDefinition_cases src children with hnil | ⟨c, hc, hsome⟩
      · simp [Node.children, hnil] at hd
      · rw [Node.children, hsome] at hd
        exact .of_mem hc (ih c hc hd)
    · exact hchildren d (heq ▸ hd)
    · obtain ⟨d, hd⟩ := List.exists_mem_of_ne_nil _ hne
      exact hchildren d hd

theorem AllWithin.of_child {n c : Node} (h : n.WellFormed) (hc : c ∈ n.children) {ds : List Declaration}
    (hholds : ∀ d ∈ ds, c.HoldsDefinition)
    (hds : AllWithin (c.info.start.rows + 1) (lastStatementLine c) ds) :
    AllWithin (n.info.start.rows + 1) (lastStatementLine n) ds := by
  apply allWithin_iff.mpr
  intro d hd
  have hstart := Extent.rows_le (h.regular.inside c hc).1
  have hline := lastStatementLine_child_le h.ordered (h.isCompound_parent hc (hholds d hd)) hc
    ((h.child hc).isStatement (hholds d hd))
  exact Declaration.Within.mono (by omega) hline d (allWithin_iff.mp hds d hd)

theorem allWithin_outline (src : Source) {n : Node} (h : n.WellFormed) :
    AllWithin (n.info.start.rows + 1) (lastStatementLine n) (outlineAll src n.children) ∧
      AllWithin (n.info.start.rows + 1) (lastStatementLine n) (outline src n) := by
  induction n using Node.induction with
  | mk info children ih =>
    -- The induction carries both parts: the body of a definition skips the node that holds it.
    generalize hn : Node.mk info children = n at h ⊢
    have hmem : ∀ c ∈ n.children, c ∈ children := by simp [← hn, Node.children]
    have hchild : ∀ c ∈ n.children,
        AllWithin (n.info.start.rows + 1) (lastStatementLine n) (outline src c) := by
      intro c hc
      refine AllWithin.of_child h hc ?_ (ih c (hmem c hc) (h.child hc)).2
      exact fun d hd => holdsDefinition_of_mem_outline hd
    have hall : AllWithin (n.info.start.rows + 1) (lastStatementLine n) (outlineAll src n.children) := by
      apply allWithin_iff.mpr
      intro d hd
      obtain ⟨c, hc, hd⟩ := mem_outlineAll hd
      exact allWithin_iff.mp (hchild c hc) d hd
    have hbody : AllWithin (n.info.start.rows + 1) (lastStatementLine n) (outlineBody src n.children) := by
      rcases outlineBody_cases src n.children with hnil | ⟨c, hc, heq⟩
      · simp [hnil, AllWithin]
      · rw [heq]
        refine AllWithin.of_child h hc ?_ (ih c (hmem c hc) (h.child hc)).1
        intro d hd
        obtain ⟨g, hg, hd⟩ := mem_outlineAll hd
        exact .of_mem hg (holdsDefinition_of_mem_outline hd)
    refine ⟨hall, ?_⟩
    rcases outline_cases src n with ⟨-, name, heq | heq⟩ | heq | heq | ⟨-, heq⟩
    · have hline := (lastStatementLine_bounds h).1
      rw [heq]
      exact ⟨⟨_, _, rfl, rfl, Nat.le_refl _, hline, Nat.le_refl _, hbody⟩, trivial⟩
    · rw [heq]
      exact ⟨hbody, trivial⟩
    · rw [heq]
      rcases outlineDefinition_cases src n.children with hnil | ⟨c, hc, hsome⟩
      · simp [hnil, AllWithin]
      · rw [hsome]
        exact hchild c hc
    · rw [heq]
      exact hall
    · rw [heq]
      exact ⟨hall, trivial⟩

end FunctionLength.Python

namespace FunctionLength.Analysis

theorem Severity.code_ofLines_le (warningLimit errorLimit : Int64) {lines lines' : Int64}
    (h : lines ≤ lines') :
    (ofLines warningLimit errorLimit lines).code ≤ (ofLines warningLimit errorLimit lines').code := by
  unfold ofLines
  by_cases hw : lines ≤ warningLimit
  · rw [if_pos hw]
    split
    · decide
    · split <;> decide
  · have hw' : ¬ lines' ≤ warningLimit := fun hle => hw (Int64.le_trans h hle)
    rw [if_neg hw, if_neg hw']
    by_cases he : errorLimit ≤ lines
    · rw [if_pos he, if_pos (Int64.le_trans he h)]
      exact Int64.le_refl _
    · rw [if_neg he]
      split <;> decide

end FunctionLength.Analysis

namespace FunctionLength.Python
open FunctionLength.Text FunctionLength.Syntax FunctionLength.Analysis

theorem lineCount_ofNat {a b : Nat} (h : a ≤ b) : lineCount (.ofNat a) (.ofNat b) = .ofNat (b - a + 1) := by
  rw [lineCount, Int64.ofNat_add, Int64.ofNat_sub b a h]
  rfl

/-- Every function begins at line 1 or later and ends where it begins or later. A function inside another one
lies within the lines of that one, so it is at most as serious, whatever the limits are. The lines of a text can
be counted with 64 bits. -/
theorem functions_nest (src : Source) {root : Node} (h : root.WellFormed)
    (hrows : root.info.finish.rows + 1 < 9223372036854775808) :
    ∀ p ∈ placesIn none (outlineAll src root.children), ∀ name first last body,
      p.node = .function name first last body →
        1 ≤ first ∧ first ≤ last ∧ 1 ≤ lineCount first last ∧
          ∀ q ∈ placesIn (some p.node) body, ∀ name' first' last' body',
            q.node = .function name' first' last' body' →
              first ≤ first' ∧ last' ≤ last ∧
                ∀ warningLimit errorLimit,
                  (Severity.ofLines warningLimit errorLimit (lineCount first' last')).code ≤
                    (Severity.ofLines warningLimit errorLimit (lineCount first last)).code := by
  intro p hp name first last body hnode
  have hlast := (lastStatementLine_bounds h).2
  have hwithin := AllWithin.of_mem_placesIn _ (allWithin_outline src h).1 hp
  rw [hnode] at hwithin
  obtain ⟨a, b, rfl, rfl, ha, hab, hb, hbody⟩ := hwithin
  have hone : (1 : Int64) = .ofNat 1 := rfl
  refine ⟨?_, ?_, ?_, ?_⟩
  · rw [hone, Int64.ofNat_le_iff_le (by omega) (by omega)]
    omega
  · rw [Int64.ofNat_le_iff_le (by omega) (by omega)]
    exact hab
  · rw [lineCount_ofNat hab, hone, Int64.ofNat_le_iff_le (by omega) (by omega)]
    omega
  · intro q hq name' first' last' body' hinner
    have hinside := AllWithin.of_mem_placesIn _ hbody hq
    rw [hinner] at hinside
    obtain ⟨a', b', rfl, rfl, ha', hab', hb', -⟩ := hinside
    refine ⟨?_, ?_, ?_⟩
    · rw [Int64.ofNat_le_iff_le (by omega) (by omega)]
      exact ha'
    · rw [Int64.ofNat_le_iff_le (by omega) (by omega)]
      exact hb'
    · intro warningLimit errorLimit
      apply Severity.code_ofLines_le
      rw [lineCount_ofNat hab, lineCount_ofNat hab', Int64.ofNat_le_iff_le (by omega) (by omega)]
      omega

def nestedSource : Source :=
  ("def f():\n    def g():\n        pass\n    # the end\n".toList.map Glyph.char).toArray

def nestedTree : Node :=
  .mk ⟨"module", true, none, none, ⟨0, 0, 0, 0⟩, ⟨49, 49, 4, 0⟩⟩
    [.mk ⟨"function_definition", true, none, none, ⟨0, 0, 0, 0⟩, ⟨48, 48, 3, 13⟩⟩
      [.mk ⟨"def", false, none, none, ⟨0, 0, 0, 0⟩, ⟨3, 3, 0, 3⟩⟩ [],
        .mk ⟨"identifier", true, none, some "name", ⟨4, 4, 0, 4⟩, ⟨5, 5, 0, 5⟩⟩ [],
        .mk ⟨"block", true, none, some "body", ⟨13, 13, 1, 4⟩, ⟨48, 48, 3, 13⟩⟩
          [.mk ⟨"function_definition", true, none, none, ⟨13, 13, 1, 4⟩, ⟨34, 34, 2, 12⟩⟩
            [.mk ⟨"identifier", true, none, some "name", ⟨17, 17, 1, 8⟩, ⟨18, 18, 1, 9⟩⟩ [],
              .mk ⟨"block", true, none, some "body", ⟨30, 30, 2, 8⟩, ⟨34, 34, 2, 12⟩⟩
                [.mk ⟨"pass_statement", true, none, none, ⟨30, 30, 2, 8⟩, ⟨34, 34, 2, 12⟩⟩ []]],
            .mk ⟨"comment", true, none, none, ⟨39, 39, 3, 4⟩, ⟨48, 48, 3, 13⟩⟩ []]]]

theorem functions_nest_nestedTree :
    nestedTree.WellFormed ∧
      outlineAll nestedSource nestedTree.children = [.function "f" 1 3 [.function "g" 2 3 []]] ∧
      (1 : Int64) ≤ 2 ∧ (3 : Int64) ≤ 3 ∧
      ∀ warningLimit errorLimit, (Severity.ofLines warningLimit errorLimit (lineCount 2 3)).code ≤
        (Severity.ofLines warningLimit errorLimit (lineCount 1 3)).code := by
  have hwell : nestedTree.WellFormed := by decide +kernel
  have houtline : outlineAll nestedSource nestedTree.children =
      [.function "f" 1 3 [.function "g" 2 3 []]] := by rfl
  have hrows : nestedTree.info.finish.rows + 1 < 9223372036854775808 := by decide
  have hnest := functions_nest nestedSource hwell hrows
  rw [houtline] at hnest
  have hf := hnest ⟨none, .function "f" 1 3 [.function "g" 2 3 []]⟩ (by simp [placesIn, Declaration.places])
    "f" 1 3 [.function "g" 2 3 []] rfl
  have hg := hf.2.2.2 ⟨some (.function "f" 1 3 [.function "g" 2 3 []]), .function "g" 2 3 []⟩
    (by simp [placesIn, Declaration.places]) "g" 2 3 [] rfl
  exact ⟨hwell, houtline, hg⟩

end FunctionLength.Python
