import FunctionLength.Proofs.Spans

/-!
The definitions of a source and those of its outline. Definitions are numbered in the order of the source, and a
member of a class is told by the number of the class, so that two lists of definitions are equal only if the same
definitions stand in the same places.
-/

namespace FunctionLength.Syntax
open FunctionLength.Text FunctionLength.Python

structure Title where
  name : String
  first : Option Int64
  deriving DecidableEq, Repr

/-- A definition with the number of the class that it is a direct member of. -/
structure Heading extends Title where
  owner : Option Nat
  deriving DecidableEq, Repr

namespace Declaration

def title? : Declaration → Option Title
  | function name first _ _ => some ⟨name, some first⟩
  | type name _ => some ⟨name, none⟩
  | other _ _ => none

mutual

def headings (owner : Option Nat) (number : Nat) : Declaration → List Heading
  | function name first _ body => ⟨⟨name, some first⟩, owner⟩ :: headingsIn none (number + 1) body
  | type name body => ⟨⟨name, none⟩, owner⟩ :: headingsIn (some number) (number + 1) body
  | other _ body => headingsIn none number body

def headingsIn (owner : Option Nat) (number : Nat) : List Declaration → List Heading
  | [] => []
  | d :: rest =>
    let found := headings owner number d
    found ++ headingsIn owner (number + found.length) rest

end

theorem headingsIn_append (owner : Option Nat) (number : Nat) (ds es : List Declaration) :
    headingsIn owner number (ds ++ es) =
      headingsIn owner number ds ++ headingsIn owner (number + (headingsIn owner number ds).length) es := by
  induction ds generalizing number with
  | nil => simp [headingsIn]
  | cons d ds ih => simp [headingsIn, ih, Nat.add_assoc]

mutual

theorem titles_headings (owner : Option Nat) (number : Nat) (parent : Option Declaration) (d : Declaration) :
    (d.headings owner number).map (·.toTitle) = (d.places parent).filterMap (·.node.title?) := by
  cases d with
  | function name first last body =>
    rw [headings, places, List.map_cons, titles_headingsIn _ _ (some _) body]
    rfl
  | type name body =>
    rw [headings, places, List.map_cons, titles_headingsIn _ _ (some _) body]
    rfl
  | other kind body =>
    rw [headings, places, titles_headingsIn _ _ (some _) body]
    rfl

theorem titles_headingsIn (owner : Option Nat) (number : Nat) (parent : Option Declaration)
    (ds : List Declaration) :
    (headingsIn owner number ds).map (·.toTitle) = (placesIn parent ds).filterMap (·.node.title?) := by
  cases ds with
  | nil => rfl
  | cons d ds =>
    rw [headingsIn, placesIn, List.map_append, List.filterMap_append, titles_headings _ _ parent d,
      titles_headingsIn _ _ parent ds]

end

end Declaration

/-- Something is defined at a place or below it. -/
def Place.Defines (p : Place) : Prop := ∃ q ∈ p.reach, q.node.title?.isSome = true

theorem Place.Defines.of_child {p c : Place} (hc : c ∈ p.children) (h : c.Defines) : p.Defines := by
  obtain ⟨q, hq, htitle⟩ := h
  rw [Defines, reach_eq]
  exact ⟨q, List.mem_cons_of_mem _ (List.mem_flatMap.mpr ⟨c, hc, hq⟩), htitle⟩

namespace Node

def hasRole (role : String) (n : Node) : Bool := n.info.field == some role

/-- The class that a part of a node is a direct statement of: the node, if that is a class and the part its body,
or the class that the node itself is a statement of, if the node only holds statements together. -/
def ownerOf (parent : Node) (owner : Option Nat) (number : Nat) (child : Node) : Option Nat :=
  if parent.kind = "class_definition" then if child.hasRole "body" then some number else none
  else if parent.kind = "decorated_definition" || parent.kind = "block" then owner
  else none

def title? (src : Source) (n : Node) : Option Title :=
  if n.kind = "function_definition" then some ⟨nameOf src n, some (.ofNat (n.startRow + 1))⟩
  else if n.kind = "class_definition" then some ⟨nameOf src n, none⟩
  else none

mutual

def headings (src : Source) (owner : Option Nat) (number : Nat) : Node → List Heading
  | mk info children =>
    let own := ((mk info children).title? src).toList.map fun title => Heading.mk title owner
    own ++ headingsIn src ((mk info children).ownerOf owner number) (number + own.length) children

def headingsIn (src : Source) (owner : Node → Option Nat) (number : Nat) : List Node → List Heading
  | [] => []
  | mk info children :: rest =>
    let found := headings src (owner (mk info children)) number (mk info children)
    found ++ headingsIn src owner (number + found.length) rest

end

/-- A node as the grammar has it, with definitions in its statements only: in its body, which is a block, if it
is a definition itself, and in what it decorates. What has a definition in it is no bare token. -/
structure Plain (n : Node) : Prop where
  named : n.HoldsDefinition → n.isNamed = true
  body : n.isDefinition = true → ∀ c ∈ n.children.eraseP (hasRole "body"), ¬ c.HoldsDefinition
  block : n.isDefinition = true → ∀ b ∈ n.child? "body", b.kind = "block"
  decorated : n.kind = "decorated_definition" →
    ∀ c ∈ n.children.eraseP (hasRole "definition"), ¬ c.HoldsDefinition

def StatementsOnly (n : Node) : Prop := ∀ m ∈ n.parts, m.Plain

instance (n : Node) : Decidable n.HoldsDefinition :=
  inferInstanceAs (Decidable (∃ d ∈ n.parts, d.isDefinition = true))

instance (n : Node) : Decidable n.Plain :=
  decidable_of_iff ((n.HoldsDefinition → n.isNamed = true) ∧
      (n.isDefinition = true → ∀ c ∈ n.children.eraseP (hasRole "body"), ¬ c.HoldsDefinition) ∧
      (n.isDefinition = true → ∀ b ∈ n.child? "body", b.kind = "block") ∧
      (n.kind = "decorated_definition" →
        ∀ c ∈ n.children.eraseP (hasRole "definition"), ¬ c.HoldsDefinition))
    ⟨fun ⟨h₁, h₂, h₃, h₄⟩ => ⟨h₁, h₂, h₃, h₄⟩, fun h => ⟨h.named, h.body, h.block, h.decorated⟩⟩

instance (n : Node) : Decidable n.StatementsOnly := inferInstanceAs (Decidable (∀ m ∈ n.parts, m.Plain))

variable {src : Source}

theorem title?_eq_none {n : Node} (h : n.isDefinition = false) : n.title? src = none := by
  simp only [isDefinition, Bool.or_eq_false_iff, decide_eq_false_iff_not] at h
  rw [title?, if_neg h.1, if_neg h.2]

theorem headings_eq (src : Source) (owner : Option Nat) (number : Nat) (n : Node) :
    n.headings src owner number = (n.title? src).toList.map (fun title => Heading.mk title owner) ++
      headingsIn src (n.ownerOf owner number) (number + (n.title? src).toList.length) n.children := by
  cases n
  rw [headings, List.length_map]
  rfl

theorem headingsIn_cons (src : Source) (owner : Node → Option Nat) (number : Nat) (n : Node) (rest : List Node) :
    headingsIn src owner number (n :: rest) = n.headings src (owner n) number ++
      headingsIn src owner (number + (n.headings src (owner n) number).length) rest := by
  cases n
  rw [headingsIn]

theorem headingsIn_eq_nil {owner : Node → Option Nat} {number : Nat} {ns : List Node}
    (h : ∀ n ∈ ns, ∀ owner number, n.headings src owner number = []) :
    headingsIn src owner number ns = [] := by
  induction ns generalizing number with
  | nil => rfl
  | cons n rest ih =>
    rw [headingsIn_cons, h n (by simp)]
    exact ih fun m hm => h m (by simp [hm])

theorem headings_eq_nil {n : Node} (h : ¬ n.HoldsDefinition) (owner : Option Nat) (number : Nat) :
    n.headings src owner number = [] := by
  induction n using Node.induction generalizing owner number with
  | mk info children ih =>
    have hself : (mk info children).isDefinition = false := by
      by_contra hdef
      exact h ⟨_, self_mem_parts _, Bool.not_eq_false _ ▸ hdef⟩
    rw [headings_eq, title?_eq_none hself]
    exact headingsIn_eq_nil fun c hc => ih c hc fun hc' => h (.of_mem hc hc')

theorem headingsIn_of_role {owner : Node → Option Nat} {number : Nat} {role : String} {children : List Node}
    (h : ∀ c ∈ children.eraseP (hasRole role), ¬ c.HoldsDefinition) :
    headingsIn src owner number children =
      (children.find? (hasRole role)).elim [] fun c => c.headings src (owner c) number := by
  induction children with
  | nil => rfl
  | cons c rest ih =>
    rw [headingsIn_cons]
    by_cases hrole : c.hasRole role = true
    · rw [List.eraseP_cons_of_pos hrole] at h
      rw [List.find?_cons_of_pos hrole, headingsIn_eq_nil fun d hd => headings_eq_nil (h d hd)]
      simp
    · rw [List.eraseP_cons_of_neg hrole] at h
      rw [List.find?_cons_of_neg hrole, headings_eq_nil (h c (by simp))]
      simpa using ih fun d hd => h d (by simp [hd])

mutual

theorem titles_headings (owner : Option Nat) (number : Nat) (n : Node) :
    (n.headings src owner number).map (·.toTitle) = n.parts.filterMap (title? src) := by
  cases n with
  | mk info children =>
    rw [headings_eq, parts, List.filterMap_cons]
    cases htitle : (mk info children).title? src <;> simp [Node.children, titles_headingsIn _ _ children]

theorem titles_headingsIn (owner : Node → Option Nat) (number : Nat) (ns : List Node) :
    (headingsIn src owner number ns).map (·.toTitle) = (partsIn ns).filterMap (title? src) := by
  cases ns with
  | nil => rfl
  | cons n rest =>
    rw [headingsIn_cons, partsIn]
    simp [titles_headings _ _ n, titles_headingsIn _ _ rest]

end

end Node
end FunctionLength.Syntax

namespace FunctionLength.Python
open FunctionLength.Text FunctionLength.Syntax

theorem outlineBody_eq (src : Source) (children : List Node) :
    outlineBody src children =
      (children.find? (Node.hasRole "body")).elim [] fun b => outlineAll src b.children := by
  induction children with
  | nil => rfl
  | cons c rest ih =>
    obtain ⟨info, children⟩ := c
    rw [outlineBody]
    by_cases hfield : info.field = some "body"
    · simp [hfield, Node.hasRole, Node.info, Node.children]
    · simp [hfield, Node.hasRole, Node.info, ih]

theorem outlineDefinition_eq (src : Source) (children : List Node) :
    outlineDefinition src children =
      (children.find? (Node.hasRole "definition")).elim [] (outline src) := by
  induction children with
  | nil => rfl
  | cons c rest ih =>
    obtain ⟨info, children⟩ := c
    rw [outlineDefinition]
    by_cases hfield : info.field = some "definition"
    · simp [hfield, Node.hasRole, Node.info]
    · simp [hfield, Node.hasRole, Node.info, ih]

theorem outline_eq (src : Source) (n : Node) :
    outline src n =
      if n.kind = "function_definition" then
        [.function (nameOf src n) (.ofNat (n.startRow + 1)) (.ofNat (lastStatementLine n))
          (outlineBody src n.children)]
      else if n.kind = "class_definition" then [.type (nameOf src n) (outlineBody src n.children)]
      else if n.kind = "decorated_definition" then outlineDefinition src n.children
      else if n.kind = "block" then outlineAll src n.children
      else if (outlineAll src n.children).isEmpty then [] else [.other n.kind (outlineAll src n.children)] := by
  obtain ⟨info, children⟩ := n
  rw [outline, Node.children]
  cases hall : outlineAll src children with
  | nil => rfl
  | cons d ds => rfl

/-- Nodes without a name are left out, but they hold no definition. -/
theorem headingsIn_outlineAll {src : Source} {owner : Option Nat} {ns : List Node}
    (hnamed : ∀ n ∈ ns, n.HoldsDefinition → n.isNamed = true)
    (h : ∀ n ∈ ns, ∀ number, Declaration.headingsIn owner number (outline src n) = n.headings src owner number)
    (number : Nat) :
    Declaration.headingsIn owner number (outlineAll src ns) = Node.headingsIn src (fun _ => owner) number ns := by
  induction ns generalizing number with
  | nil => rfl
  | cons n rest ih =>
    have hrest := ih (fun m hm => hnamed m (by simp [hm])) fun m hm => h m (by simp [hm])
    have hn := h n (by simp) number
    obtain ⟨info, children⟩ := n
    rw [Node.headingsIn_cons, outlineAll]
    split
    · rw [Declaration.headingsIn_append, hn, hrest]
    · rename_i hinfo
      have hnot : ¬ (Node.mk info children).HoldsDefinition := fun hholds => hinfo (hnamed _ (by simp) hholds)
      rw [Node.headings_eq_nil hnot, hrest]
      rfl

section Definition

variable {src : Source} {n : Node} (hplain : n.Plain)
  (ih : ∀ c ∈ n.children, ∀ owner number,
    Declaration.headingsIn owner number (outline src c) = c.headings src owner number)
include hplain ih

theorem headingsIn_outlineBody (hdef : n.isDefinition = true) (owner : Option Nat) (number : Nat) :
    Declaration.headingsIn owner number (outlineBody src n.children) =
      (n.children.find? (Node.hasRole "body")).elim [] fun b => b.headings src owner number := by
  rw [outlineBody_eq]
  cases hfind : n.children.find? (Node.hasRole "body") with
  | none => rfl
  | some b =>
    have hblock : b.kind = "block" := hplain.block hdef b hfind
    have houtline : outline src b = outlineAll src b.children := by simp [outline_eq, hblock]
    rw [Option.elim_some, Option.elim_some, ← houtline]
    exact ih b (List.mem_of_find?_eq_some hfind) owner number

theorem headingsIn_outline_of_isDefinition (hdef : n.isDefinition = true) (owner : Option Nat) (number : Nat) :
    Declaration.headingsIn owner number (outline src n) = n.headings src owner number := by
  rw [Node.headings_eq, Node.headingsIn_of_role (hplain.body hdef)]
  rcases Bool.or_eq_true_iff.mp hdef with hkind | hkind
  · have hkind : n.kind = "function_definition" := of_decide_eq_true hkind
    have howner : n.ownerOf owner number = fun _ => none := by
      funext child
      simp [Node.ownerOf, hkind]
    rw [outline_eq, if_pos hkind, Node.title?, if_pos hkind, howner]
    simp [Declaration.headingsIn, Declaration.headings, headingsIn_outlineBody hplain ih hdef]
  · have hkind : n.kind = "class_definition" := of_decide_eq_true hkind
    have hnot : n.kind ≠ "function_definition" := by simp [hkind]
    rw [outline_eq, if_neg hnot, if_pos hkind, Node.title?, if_neg hnot, if_pos hkind]
    simp only [Declaration.headingsIn, Declaration.headings, headingsIn_outlineBody hplain ih hdef]
    cases hfind : n.children.find? (Node.hasRole "body") with
    | none => simp
    | some b => simp [Node.ownerOf, hkind, List.find?_some hfind]

theorem headingsIn_outline_of_decorated (hkind : n.kind = "decorated_definition") (owner : Option Nat)
    (number : Nat) : Declaration.headingsIn owner number (outline src n) = n.headings src owner number := by
  have hdef : n.isDefinition = false := by simp [Node.isDefinition, hkind]
  have howner : n.ownerOf owner number = fun _ => owner := by
    funext child
    simp [Node.ownerOf, hkind]
  have houtline : outline src n = outlineDefinition src n.children := by simp [outline_eq, hkind]
  rw [Node.headings_eq, Node.headingsIn_of_role (hplain.decorated hkind), Node.title?_eq_none hdef, howner,
    houtline, outlineDefinition_eq]
  cases hfind : n.children.find? (Node.hasRole "definition") with
  | none => rfl
  | some d => exact ih d (List.mem_of_find?_eq_some hfind) owner number

end Definition

theorem headingsIn_outline (src : Source) {n : Node} (h : n.StatementsOnly) (owner : Option Nat) (number : Nat) :
    Declaration.headingsIn owner number (outline src n) = n.headings src owner number := by
  induction n using Node.induction generalizing owner number with
  | mk info children ih =>
    generalize hn : Node.mk info children = n at h ⊢
    have hchild : ∀ c ∈ n.children, c.StatementsOnly := fun c hc m hm => h m (Node.mem_parts_of_child hc hm)
    have hall : ∀ c ∈ n.children, ∀ owner number,
        Declaration.headingsIn owner number (outline src c) = c.headings src owner number :=
      fun c hc => ih c (by simpa [← hn, Node.children] using hc) (hchild c hc)
    have hplain := h n n.self_mem_parts
    cases hdef : n.isDefinition with
    | true => exact headingsIn_outline_of_isDefinition hplain hall hdef owner number
    | false =>
      by_cases hdecorated : n.kind = "decorated_definition"
      · exact headingsIn_outline_of_decorated hplain hall hdecorated owner number
      obtain ⟨hfunction, hclass⟩ : n.kind ≠ "function_definition" ∧ n.kind ≠ "class_definition" := by
        simpa [Node.isDefinition] using hdef
      have hnamed : ∀ c ∈ n.children, c.HoldsDefinition → c.isNamed = true :=
        fun c hc => (hchild c hc c c.self_mem_parts).named
      rw [Node.headings_eq, Node.title?_eq_none hdef, outline_eq, if_neg hfunction, if_neg hclass, if_neg hdecorated]
      by_cases hblock : n.kind = "block"
      · have howner : n.ownerOf owner number = fun _ => owner := by
          funext child
          simp [Node.ownerOf, hblock]
        rw [if_pos hblock, howner]
        exact headingsIn_outlineAll hnamed (fun c hc => hall c hc owner) number
      · have howner : n.ownerOf owner number = fun _ => none := by
          funext child
          simp [Node.ownerOf, hclass, hdecorated, hblock]
        rw [if_neg hblock, howner, Option.toList_none, List.map_nil, List.nil_append, List.length_nil, Nat.add_zero,
          ← headingsIn_outlineAll hnamed (fun c hc => hall c hc none) number]
        split
        · rename_i hnil
          rw [List.isEmpty_iff.mp hnil]
          rfl
        · simp [Declaration.headingsIn, Declaration.headings]

/-- In an outline something is defined by every declaration or below it. -/
theorem defines_of_mem_places (src : Source) (n : Node) :
    (∀ parent, ∀ p ∈ placesIn parent (outlineAll src n.children), p.Defines) ∧
      ∀ parent, ∀ p ∈ placesIn parent (outline src n), p.Defines := by
  induction n using Node.induction with
  | mk info children ih =>
    generalize hn : Node.mk info children = n
    have hmem : ∀ c ∈ n.children, c ∈ children := by simp [← hn, Node.children]
    have hall : ∀ parent, ∀ p ∈ placesIn parent (outlineAll src n.children), p.Defines := by
      intro parent p hp
      rw [placesIn_eq_flatMap] at hp
      obtain ⟨d, hd, hp⟩ := List.mem_flatMap.mp hp
      obtain ⟨c, hc, hd⟩ := mem_outlineAll hd
      refine (ih c (hmem c hc)).2 parent p ?_
      rw [placesIn_eq_flatMap]
      exact List.mem_flatMap.mpr ⟨d, hd, hp⟩
    have hbody : ∀ parent, ∀ p ∈ placesIn parent (outlineBody src n.children), p.Defines := by
      intro parent p hp
      rcases outlineBody_cases src n.children with hnil | ⟨c, hc, heq⟩
      · simp [hnil, placesIn] at hp
      · exact (ih c (hmem c hc)).1 parent p (heq ▸ hp)
    refine ⟨hall, fun parent p hp => ?_⟩
    rcases outline_cases src n with ⟨-, name, heq | heq⟩ | heq | heq | ⟨hne, heq⟩
    · rw [heq, placesIn, Declaration.places, placesIn, List.append_nil] at hp
      rcases List.mem_cons.mp hp with rfl | hp
      · exact ⟨_, Place.self_mem_reach _, rfl⟩
      · exact hbody _ p hp
    · rw [heq, placesIn, Declaration.places, placesIn, List.append_nil] at hp
      rcases List.mem_cons.mp hp with rfl | hp
      · exact ⟨_, Place.self_mem_reach _, rfl⟩
      · exact hbody _ p hp
    · rw [heq] at hp
      rcases outlineDefinition_cases src n.children with hnil | ⟨c, hc, hsome⟩
      · simp [hnil, placesIn] at hp
      · exact (ih c (hmem c hc)).2 parent p (hsome ▸ hp)
    · exact hall parent p (heq ▸ hp)
    · rw [heq, placesIn, Declaration.places, placesIn, List.append_nil] at hp
      rcases List.mem_cons.mp hp with rfl | hp
      · -- What the statement holds is not empty, and what is first in it brings a definition.
        obtain ⟨d, hd⟩ := List.exists_mem_of_ne_nil _ hne
        set whole : Declaration := .other n.kind (outlineAll src n.children)
        have hchild : Place.mk (some whole) d ∈ Place.children ⟨parent, whole⟩ := List.mem_map_of_mem hd
        refine .of_child hchild (hall (some whole) _ ?_)
        rw [placesIn_eq_flatMap]
        exact List.mem_flatMap.mpr ⟨d, hd, Place.self_mem_reach _⟩
      · exact hall _ p hp

/-- The outline of a tree has its definitions in the order of the source, with their names and first lines, and
none else. A definition is a direct member of a class just if it is a direct statement of the body of the class,
and a statement is kept only if something is defined in it. -/
theorem outline_keeps_definitions (src : Source) {root : Node} (h : root.StatementsOnly)
    (hroot : root.isDefinition = false) :
    (placesIn none (outlineAll src root.children)).filterMap (·.node.title?) = root.parts.filterMap (Node.title? src) ∧
      Declaration.headingsIn none 0 (outlineAll src root.children) = root.headings src none 0 ∧
      ∀ p ∈ placesIn none (outlineAll src root.children), ∀ kind body, p.node = .other kind body →
        ∃ q ∈ placesIn (some p.node) body, q.node.title?.isSome = true := by
  have hchild : ∀ c ∈ root.children, c.StatementsOnly := fun c hc m hm => h m (Node.mem_parts_of_child hc hm)
  have hclass : root.kind ≠ "class_definition" := by
    intro hkind
    simp [Node.isDefinition, hkind] at hroot
  have howner : root.ownerOf none 0 = fun _ => none := by
    funext child
    simp [Node.ownerOf, hclass]
  have hheadings : Declaration.headingsIn none 0 (outlineAll src root.children) = root.headings src none 0 := by
    rw [Node.headings_eq, Node.title?_eq_none hroot, howner]
    exact headingsIn_outlineAll (fun c hc => (hchild c hc c c.self_mem_parts).named)
      (fun c hc => headingsIn_outline src (hchild c hc) none) 0
  refine ⟨?_, hheadings, fun p hp kind body hnode => ?_⟩
  · rw [← Declaration.titles_headingsIn none 0, hheadings, Node.titles_headings]
  · obtain ⟨q, hq, htitle⟩ := (defines_of_mem_places src root).1 none p hp
    obtain ⟨parent, node⟩ := p
    obtain rfl : node = .other kind body := hnode
    rcases List.mem_cons.mp hq with rfl | hq
    · simp [Declaration.title?] at htitle
    · exact ⟨q, hq, htitle⟩

def decoratedSource : Source :=
  ("if a: pass\nelse:\n    @d\n    class C:\n        def m(): pass\n        if a:\n            def k(): pass\n".toList.map
    Glyph.char).toArray

def decoratedTree : Node :=
  .mk ⟨"module", true, none, none, ⟨0, 0, 0, 0⟩, ⟨99, 99, 7, 0⟩⟩
    [.mk ⟨"if_statement", true, none, none, ⟨0, 0, 0, 0⟩, ⟨98, 98, 6, 25⟩⟩
      [.mk ⟨"identifier", true, none, some "condition", ⟨3, 3, 0, 3⟩, ⟨4, 4, 0, 4⟩⟩ [],
        .mk ⟨"else_clause", true, none, some "alternative", ⟨11, 11, 1, 0⟩, ⟨98, 98, 6, 25⟩⟩
          [.mk ⟨"block", true, none, some "body", ⟨21, 21, 2, 4⟩, ⟨98, 98, 6, 25⟩⟩
            [.mk ⟨"decorated_definition", true, none, none, ⟨21, 21, 2, 4⟩, ⟨98, 98, 6, 25⟩⟩
              [.mk ⟨"decorator", true, none, none, ⟨21, 21, 2, 4⟩, ⟨23, 23, 2, 6⟩⟩ [],
                .mk ⟨"class_definition", true, none, some "definition", ⟨28, 28, 3, 4⟩, ⟨98, 98, 6, 25⟩⟩
                  [.mk ⟨"identifier", true, none, some "name", ⟨34, 34, 3, 10⟩, ⟨35, 35, 3, 11⟩⟩ [],
                    .mk ⟨"block", true, none, some "body", ⟨45, 45, 4, 8⟩, ⟨98, 98, 6, 25⟩⟩
                      [.mk ⟨"function_definition", true, none, none, ⟨45, 45, 4, 8⟩, ⟨58, 58, 4, 21⟩⟩
                        [.mk ⟨"identifier", true, none, some "name", ⟨49, 49, 4, 12⟩, ⟨50, 50, 4, 13⟩⟩ [],
                          .mk ⟨"block", true, none, some "body", ⟨54, 54, 4, 17⟩, ⟨58, 58, 4, 21⟩⟩ []],
                        .mk ⟨"if_statement", true, none, none, ⟨67, 67, 5, 8⟩, ⟨98, 98, 6, 25⟩⟩
                          [.mk ⟨"block", true, none, some "consequence", ⟨85, 85, 6, 12⟩, ⟨98, 98, 6, 25⟩⟩
                            [.mk ⟨"function_definition", true, none, none, ⟨85, 85, 6, 12⟩, ⟨98, 98, 6, 25⟩⟩
                              [.mk ⟨"identifier", true, none, some "name", ⟨89, 89, 6, 16⟩, ⟨90, 90, 6, 17⟩⟩ [],
                                .mk ⟨"block", true, none, some "body", ⟨94, 94, 6, 21⟩, ⟨98, 98, 6, 25⟩⟩ []]]]]]]]]]]

theorem outline_keeps_definitions_decoratedTree :
    decoratedTree.StatementsOnly ∧ decoratedTree.isDefinition = false ∧
      Declaration.headingsIn none 0 (outlineAll decoratedSource decoratedTree.children) =
        [⟨⟨"C", none⟩, none⟩, ⟨⟨"m", some 5⟩, some 0⟩, ⟨⟨"k", some 7⟩, none⟩] ∧
      ∃ q ∈ placesIn none (outlineAll decoratedSource decoratedTree.children), q.node.title? = some ⟨"k", some 7⟩ := by
  have hplain : decoratedTree.StatementsOnly := by decide +kernel
  have hroot : decoratedTree.isDefinition = false := by decide +kernel
  have hheadings : decoratedTree.headings decoratedSource none 0 =
      [⟨⟨"C", none⟩, none⟩, ⟨⟨"m", some 5⟩, some 0⟩, ⟨⟨"k", some 7⟩, none⟩] := by decide +kernel
  obtain ⟨htitles, hequal, -⟩ := outline_keeps_definitions decoratedSource hplain hroot
  have hmem : (⟨"k", some 7⟩ : Title) ∈ decoratedTree.parts.filterMap (Node.title? decoratedSource) := by decide +kernel
  rw [← htitles] at hmem
  exact ⟨hplain, hroot, hequal.trans hheadings, List.mem_filterMap.mp hmem⟩

end FunctionLength.Python
