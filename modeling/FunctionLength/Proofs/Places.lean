import FunctionLength.Proofs.Runs

namespace FunctionLength.Syntax
open FunctionLength.Analysis

structure Place where
  parent : Option Declaration
  node : Declaration

mutual

def Declaration.places (parent : Option Declaration) : Declaration → List Place
  | .function name first last body =>
    ⟨parent, .function name first last body⟩ :: placesIn (some (.function name first last body)) body
  | .type name body => ⟨parent, .type name body⟩ :: placesIn (some (.type name body)) body
  | .other kind body => ⟨parent, .other kind body⟩ :: placesIn (some (.other kind body)) body

def placesIn (parent : Option Declaration) : List Declaration → List Place
  | [] => []
  | d :: rest => d.places parent ++ placesIn parent rest

end

def SourceFile.places (f : SourceFile) : List Place := placesIn none f.body

theorem placesIn_eq_flatMap (parent : Option Declaration) (ds : List Declaration) :
    placesIn parent ds = ds.flatMap (Declaration.places parent) := by
  induction ds with
  | nil => rfl
  | cons d ds ih => rw [placesIn, ih, List.flatMap_cons]

namespace Place

def children (p : Place) : List Place := p.node.body.map fun d => ⟨some p.node, d⟩

def reach (p : Place) : List Place := p.node.places p.parent

theorem reach_eq (p : Place) : p.reach = p :: p.children.flatMap reach := by
  obtain ⟨parent, node⟩ := p
  cases node <;>
    simp [reach, children, Declaration.places, Declaration.body, placesIn_eq_flatMap, List.flatMap_map]

theorem self_mem_reach (p : Place) : p ∈ p.reach := by simp [reach_eq p]

theorem sizeOf_child_lt {p c : Place} (hc : c ∈ p.children) : sizeOf c.node < sizeOf p.node := by
  obtain ⟨d, hd, rfl⟩ := List.mem_map.mp hc
  have hlt := List.sizeOf_lt_of_mem hd
  have hbody := p.node.sizeOf_body_lt
  exact Nat.lt_trans hlt hbody

theorem mem_reach_of_child {r p c : Place} (hp : p ∈ r.reach) (hc : c ∈ p.children) : c ∈ r.reach := by
  induction hn : sizeOf r.node using Nat.strongRecOn generalizing r with
  | ind n ih =>
    rw [reach_eq] at hp ⊢
    rcases List.mem_cons.mp hp with rfl | hp
    · exact List.mem_cons_of_mem _ (List.mem_flatMap.mpr ⟨c, hc, c.self_mem_reach⟩)
    · obtain ⟨k, hk, hpk⟩ := List.mem_flatMap.mp hp
      have hlt := sizeOf_child_lt hk
      have hck := ih (sizeOf k.node) (by omega) hpk rfl
      exact List.mem_cons_of_mem _ (List.mem_flatMap.mpr ⟨k, hk, hck⟩)

@[simp] theorem map_node_children (p : Place) : p.children.map node = p.node.body := by
  simp [children, Function.comp_def]

/-- The name of the class that a declaration is a direct member of, and the empty text if it is a member of
none. -/
def owner (p : Place) : String :=
  match p.parent with
  | some (.type name _) => name
  | _ => ""

/-- A function as a member of the class that it really is a member of. -/
def sighting? (file : String) (p : Place) : Option Sighting := p.node.sighting? file p.owner

theorem sighting?_eq_some_iff (file : String) (p : Place) (x : Sighting) :
    p.sighting? file = some x ↔
      ∃ name first last body, p.node = .function name first last body ∧
        x = ⟨p.owner, ⟨file, name, first, last⟩⟩ := by
  obtain ⟨parent, node⟩ := p
  cases node <;> simp [sighting?, Declaration.sighting?, eq_comm]

theorem sightings_type (file : String) {p : Place} {name : String} {body : List Declaration}
    (h : p.node = .type name body) : p.node.sightings file = p.children.filterMap (sighting? file) := by
  obtain ⟨parent, node⟩ := p
  subst h
  simp only [Declaration.sightings, children, Declaration.body, List.filterMap_map]
  rfl

end Place

theorem SourceFile.places_eq_flatMap (f : SourceFile) :
    f.places = (f.body.map (Place.mk none)).flatMap Place.reach := by
  rw [places, placesIn_eq_flatMap, List.flatMap_map]
  rfl

/-- The walk by levels comes to each declaration once. -/
theorem levelOrder_perm (queue : List Place) :
    (Declaration.levelOrder (queue.map Place.node)).Perm ((queue.flatMap Place.reach).map Place.node) := by
  generalize hq : queue.map Place.node = ds
  induction ds using Declaration.levelOrder.induct generalizing queue with
  | case1 =>
    rw [List.map_eq_nil_iff] at hq
    subst queue
    simp [Declaration.levelOrder]
  | case2 d waiting ih =>
    obtain ⟨p, rest, rfl, rfl, rfl⟩ := List.map_eq_cons_iff.mp hq
    have hrest := ih (rest ++ p.children) (by simp)
    rw [Declaration.levelOrder, List.flatMap_cons, p.reach_eq, List.cons_append, List.map_cons]
    apply List.Perm.cons
    refine hrest.trans (List.Perm.map _ ?_)
    rw [List.flatMap_append]
    exact List.perm_append_comm

theorem SourceFile.mem_walk_iff (f : SourceFile) (d : Declaration) :
    d ∈ f.walk ↔ ∃ p ∈ f.places, p.node = d := by
  have hroots : f.body = (f.body.map (Place.mk none)).map Place.node := by simp [Function.comp_def]
  rw [walk, hroots, (levelOrder_perm _).mem_iff, ← f.places_eq_flatMap, List.mem_map]

theorem SourceFile.mem_places_of_child {f : SourceFile} {p c : Place} (hp : p ∈ f.places)
    (hc : c ∈ p.children) : c ∈ f.places := by
  rw [places_eq_flatMap] at hp ⊢
  obtain ⟨r, hr, hpr⟩ := List.mem_flatMap.mp hp
  exact List.mem_flatMap.mpr ⟨r, hr, Place.mem_reach_of_child hpr hc⟩

theorem SourceFile.exists_sighting_iff (f : SourceFile) (q : Identity → Prop) :
    (∃ x ∈ f.sightings, q x.identity) ↔
      ∃ p ∈ f.places, ∃ name first last body, p.node = .function name first last body ∧
        q ⟨f.path, name, first, last⟩ := by
  constructor
  · rintro ⟨x, hx, hq⟩
    obtain ⟨d, hd, hx⟩ := List.mem_flatMap.mp hx
    obtain ⟨p, hp, rfl⟩ := (f.mem_walk_iff d).mp hd
    cases hnode : p.node with
    | function name first last body =>
      simp only [hnode, Declaration.sightings, List.mem_singleton] at hx
      subst x
      exact ⟨p, hp, name, first, last, body, hnode, hq⟩
    | type name body =>
      rw [Place.sightings_type f.path hnode] at hx
      obtain ⟨c, hc, hx⟩ := List.mem_filterMap.mp hx
      obtain ⟨name, first, last, body, hnode, rfl⟩ := (c.sighting?_eq_some_iff f.path x).mp hx
      exact ⟨c, mem_places_of_child hp hc, name, first, last, body, hnode, hq⟩
    | other kind body => simp [hnode, Declaration.sightings] at hx
  · rintro ⟨p, hp, name, first, last, body, hnode, hq⟩
    refine ⟨⟨"", ⟨f.path, name, first, last⟩⟩, List.mem_flatMap.mpr ⟨p.node, ?_, ?_⟩, hq⟩
    · exact (f.mem_walk_iff p.node).mpr ⟨p, hp, rfl⟩
    · simp [hnode, Declaration.sightings]

end FunctionLength.Syntax
