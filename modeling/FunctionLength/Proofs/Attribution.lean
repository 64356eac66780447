import FunctionLength.Proofs.Places
import Mathlib.Data.List.Nodup
import Mathlib.Data.List.Perm.Basic

/-!
How functions are attributed. A function that is directly in a class is shown twice, as a member when the walk
comes to the class and as a mere function when it comes to the function. The first time counts, and it is
always the right one.
-/

namespace FunctionLength.Syntax
open FunctionLength.Analysis

namespace Place

def span? (p : Place) : Option (String × Int64 × Int64) :=
  match p.node with
  | .function name first last _ => some (name, first, last)
  | _ => none

/-- What is to be said about a declaration. A function that is too long is a method of the class that it is
directly in. A class without a name does not count, nor does one that is further away. -/
def finding? (s : Settings) (file : String) (p : Place) : Option Finding :=
  match p.node with
  | .function name first last _ =>
    let lines := lineCount first last
    let severity := Severity.ofLines s.warningLimit s.errorLimit lines
    if severity = .none then none
    else
      match p.parent with
      | some (.type owner _) =>
        if owner = "" then some { file, name, kind := .function, severity, lines, first, last }
        else some { file, name := owner ++ "." ++ name, kind := .method, severity, lines, first, last }
      | _ => some { file, name, kind := .function, severity, lines, first, last }
  | _ => none

def isMember (p : Place) : Bool :=
  match p.parent with
  | some (.type _ _) => true
  | _ => false

theorem owner_of_not_isMember {p : Place} (h : p.isMember = false) : p.owner = "" := by
  obtain ⟨parent, node⟩ := p
  cases parent with
  | none => rfl
  | some outer =>
    cases outer with
    | function name first last body => rfl
    | type name body => simp [isMember] at h
    | other kind body => rfl

theorem isMember_child {p c : Place} (hc : c ∈ p.children) :
    c.isMember = true ↔ ∃ name body, p.node = .type name body := by
  obtain ⟨d, hd, rfl⟩ := List.mem_map.mp hc
  cases hnode : p.node <;> simp [isMember]

def functions (file : String) (p : Place) : List Sighting := p.reach.filterMap (sighting? file)

def functionsBelow (file : String) (p : Place) : List Sighting := p.children.flatMap (functions file)

theorem functions_eq (file : String) (p : Place) :
    p.functions file = (p.sighting? file).toList ++ p.functionsBelow file := by
  unfold functions functionsBelow
  rw [reach_eq, List.filterMap_cons, List.filterMap_flatMap]
  cases p.sighting? file <;> rfl

/-- What a place in the queue of a walk has yet to show for the first time. A member of a class has been
shown with the class. -/
def pending (file : String) (p : Place) : List Sighting :=
  if p.isMember then p.functionsBelow file else p.functions file

def news (file : String) (p : Place) : List Sighting :=
  match p.node with
  | .function _ _ _ _ => if p.isMember then [] else (p.sighting? file).toList
  | .type _ _ => p.children.filterMap (sighting? file)
  | .other _ _ => []

theorem flatMap_pending_of_type (file : String) {p : Place} {name : String} {body : List Declaration}
    (h : p.node = .type name body) :
    p.children.flatMap (pending file) = p.children.flatMap (functionsBelow file) := by
  apply List.flatMap_congr
  intro c hc
  simp [pending, (isMember_child hc).mpr ⟨name, body, h⟩]

theorem flatMap_pending_of_not_type (file : String) {p : Place}
    (h : ∀ name body, p.node ≠ .type name body) :
    p.children.flatMap (pending file) = p.functionsBelow file := by
  apply List.flatMap_congr
  intro c hc
  have hmember : c.isMember = false := by
    rw [Bool.eq_false_iff, ne_eq, isMember_child hc]
    rintro ⟨name, body, hnode⟩
    exact h name body hnode
  simp [pending, hmember]

/-- Coming to a place shows its news, and leaves the rest to the places below it. -/
theorem pending_perm (file : String) (p : Place) :
    (p.pending file).Perm (p.news file ++ p.children.flatMap (pending file)) := by
  cases hnode : p.node with
  | function name first last body =>
    rw [flatMap_pending_of_not_type file (by simp [hnode])]
    by_cases hm : p.isMember <;> simp [pending, news, hnode, hm, functions_eq]
  | type name body =>
    have hself : p.sighting? file = none := by simp [sighting?, hnode, Declaration.sighting?]
    have hpending : p.pending file = p.functionsBelow file := by simp [pending, functions_eq, hself]
    have hnews : p.news file = p.children.flatMap fun c => (c.sighting? file).toList := by
      simp [news, hnode, List.filterMap_eq_flatMap_toList]
    have hsplit : p.functionsBelow file = p.children.flatMap fun c =>
        (c.sighting? file).toList ++ c.functionsBelow file :=
      List.flatMap_congr fun c _ => functions_eq file c
    rw [flatMap_pending_of_type file hnode, hpending, hnews, hsplit]
    exact (List.flatMap_append_perm _ _ _).symm
  | other kind body =>
    have hself : p.sighting? file = none := by simp [sighting?, hnode, Declaration.sighting?]
    rw [flatMap_pending_of_not_type file (by simp [hnode])]
    by_cases hm : p.isMember <;> simp [pending, news, hnode, hm, functions_eq, hself]

end Place

/-- What holds of the queue of a walk and of what has been seen, whenever the walk goes on: no function has
been seen but the members of classes in the queue, and these have. -/
structure Ready (file : String) (queue : List Place) (seen : List Identity) : Prop where
  nodup : ((queue.flatMap (Place.pending file)).map Sighting.identity).Nodup
  fresh : ∀ x ∈ queue.flatMap (Place.pending file), x.identity ∉ seen
  members : ∀ p ∈ queue, p.isMember = true → ∀ x, p.sighting? file = some x → x.identity ∈ seen

namespace Ready

variable {file : String} {p : Place} {rest : List Place} {seen : List Identity}

theorem queue_perm (file : String) (p : Place) (rest : List Place) :
    ((p :: rest).flatMap (Place.pending file)).Perm
      (p.news file ++ (rest ++ p.children).flatMap (Place.pending file)) := by
  rw [List.flatMap_cons, List.flatMap_append]
  refine ((p.pending_perm file).append_right _).trans ?_
  rw [List.append_assoc]
  exact List.perm_append_comm.append_left _

theorem nodup_news (h : Ready file (p :: rest) seen) : ((p.news file).map Sighting.identity).Nodup := by
  have hn := ((queue_perm file p rest).map Sighting.identity).nodup h.nodup
  rw [List.map_append] at hn
  exact hn.of_append_left

theorem fresh_news (h : Ready file (p :: rest) seen) : ∀ x ∈ p.news file, x.identity ∉ seen := by
  intro x hx
  exact h.fresh x ((queue_perm file p rest).mem_iff.mpr (List.mem_append_left _ hx))

theorem firsts_sightings (h : Ready file (p :: rest) seen) :
    Sighting.firsts seen (p.node.sightings file) = p.news file := by
  have hself := Sighting.firsts_eq_self h.nodup_news h.fresh_news
  cases hnode : p.node with
  | function name first last body =>
    cases hm : p.isMember with
    | true =>
      have hseen := h.members p (by simp) hm ⟨p.owner, ⟨file, name, first, last⟩⟩
        ((p.sighting?_eq_some_iff file _).mpr ⟨name, first, last, body, hnode, rfl⟩)
      simp [Declaration.sightings, Sighting.firsts, Place.news, hnode, hm, hseen]
    | false =>
      have howner := Place.owner_of_not_isMember hm
      have hnews : p.news file = (Declaration.function name first last body).sightings file := by
        simp [Place.news, Place.sighting?, Declaration.sighting?, Declaration.sightings, hnode, hm, howner]
      rwa [hnews] at hself ⊢
  | type name body =>
    have hnews : p.news file = (Declaration.type name body).sightings file := by
      rw [← hnode, Place.sightings_type file hnode]
      simp [Place.news, hnode]
    rwa [hnews] at hself ⊢
  | other kind body => simp [Declaration.sightings, Sighting.firsts, Place.news, hnode]

theorem step (h : Ready file (p :: rest) seen) :
    Ready file (rest ++ p.children) (((p.news file).map Sighting.identity).reverse ++ seen) := by
  have hperm := queue_perm file p rest
  have hn := (hperm.map Sighting.identity).nodup h.nodup
  rw [List.map_append] at hn
  refine ⟨hn.of_append_right, ?_, ?_⟩
  · intro x hx hmem
    rcases List.mem_append.mp hmem with hnew | hold
    · exact List.disjoint_of_nodup_append hn (List.mem_reverse.mp hnew) (List.mem_map_of_mem hx)
    · exact h.fresh x (hperm.mem_iff.mpr (List.mem_append_right _ hx)) hold
  · intro c hc hm x hx
    rcases List.mem_append.mp hc with hc | hc
    · exact List.mem_append_right _ (h.members c (List.mem_cons_of_mem _ hc) hm x hx)
    · obtain ⟨name, body, hnode⟩ := (Place.isMember_child hc).mp hm
      have hnew : x ∈ p.news file := by
        simp only [Place.news, hnode, List.mem_filterMap]
        exact ⟨c, hc, hx⟩
      exact List.mem_append_left _ (List.mem_reverse.mpr (List.mem_map_of_mem hnew))

theorem firsts_walk {queue : List Place} (h : Ready file queue seen) :
    (Sighting.firsts seen
      ((Declaration.levelOrder (queue.map Place.node)).flatMap (Declaration.sightings file))).Perm
      (queue.flatMap (Place.pending file)) := by
  generalize hq : queue.map Place.node = ds
  induction ds using Declaration.levelOrder.induct generalizing queue seen with
  | case1 =>
    rw [List.map_eq_nil_iff] at hq
    subst queue
    simp [Declaration.levelOrder, Sighting.firsts]
  | case2 d waiting ih =>
    obtain ⟨p, rest, rfl, rfl, rfl⟩ := List.map_eq_cons_iff.mp hq
    have hrest := ih h.step (by simp)
    rw [Declaration.levelOrder, List.flatMap_cons, Sighting.firsts_append, h.firsts_sightings]
    exact (hrest.append_left _).trans (queue_perm file p rest).symm

end Ready

def SourceFile.functions (f : SourceFile) : List Sighting := f.places.filterMap (Place.sighting? f.path)

theorem SourceFile.flatMap_pending (f : SourceFile) :
    (f.body.map (Place.mk none)).flatMap (Place.pending f.path) = f.functions := by
  rw [functions, places_eq_flatMap, List.filterMap_flatMap]
  apply List.flatMap_congr
  intro p hp
  obtain ⟨d, hd, rfl⟩ := List.mem_map.mp hp
  rfl

theorem SourceFile.map_span_functions (f : SourceFile) :
    f.functions.map (fun x => (x.identity.name, x.identity.first, x.identity.last)) =
      f.places.filterMap Place.span? := by
  rw [functions, List.map_filterMap]
  apply List.filterMap_congr
  intro p hp
  cases hnode : p.node <;> simp [Place.sighting?, Place.span?, Declaration.sighting?, hnode]

theorem SourceFile.ready (f : SourceFile) (h : (f.places.filterMap Place.span?).Nodup) :
    Ready f.path (f.body.map (Place.mk none)) [] := by
  refine ⟨?_, by simp, ?_⟩
  · rw [f.flatMap_pending]
    rw [← f.map_span_functions] at h
    apply List.Nodup.of_map fun k : Identity => (k.name, k.first, k.last)
    rwa [List.map_map]
  · intro p hp hm
    obtain ⟨d, hd, rfl⟩ := List.mem_map.mp hp
    simp [Place.isMember] at hm

theorem Place.findings_sighting (s : Settings) (file : String) (p : Place) :
    Sighting.findings s (p.sighting? file).toList = (p.finding? s file).toList := by
  obtain ⟨parent, node⟩ := p
  cases node with
  | type name body => rfl
  | other kind body => rfl
  | function name first last body =>
    simp only [sighting?, finding?, Declaration.sighting?, Option.toList_some, Sighting.findings,
      Sighting.isLong, Identity.severity, Identity.lines, List.filter_cons, List.filter_nil]
    by_cases hnone : Severity.ofLines s.warningLimit s.errorLimit (lineCount first last) = .none
    · simp [hnone]
    · cases parent with
      | none => simp [hnone, owner, Sighting.finding, Identity.severity, Identity.lines]
      | some outer =>
        cases outer with
        | type cls members =>
          by_cases hcls : cls = "" <;>
            simp [hnone, owner, Sighting.finding, Identity.severity, Identity.lines, hcls]
        | function _ _ _ _ => simp [hnone, owner, Sighting.finding, Identity.severity, Identity.lines]
        | other _ _ => simp [hnone, owner, Sighting.finding, Identity.severity, Identity.lines]

theorem SourceFile.findings_functions (s : Settings) (f : SourceFile) :
    Sighting.findings s f.functions = f.places.filterMap (Place.finding? s f.path) := by
  rw [functions, List.filterMap_eq_flatMap_toList, Sighting.findings_flatMap,
    List.filterMap_eq_flatMap_toList]
  exact List.flatMap_congr fun p _ => p.findings_sighting s f.path

end FunctionLength.Syntax

namespace FunctionLength.Analysis
open FunctionLength.Syntax

/-- If the functions of a file can be told apart by their names and lines, just those are found that are too
long, each once and as what it is. -/
theorem findings_visitFile_perm (s : Settings) (f : SourceFile)
    (h : (f.places.filterMap Place.span?).Nodup) :
    (visitFile s f {}).findings.Perm (f.places.filterMap (Place.finding? s f.path)) := by
  have hwalk := (f.ready h).firsts_walk
  have hroots : (f.body.map (Place.mk none)).map Place.node = f.body := by simp [Function.comp_def]
  rw [hroots, f.flatMap_pending] at hwalk
  rw [(judged_visitFile s f {}).findings, ← f.findings_functions s]
  exact (hwalk.filter _).map _

def nestedFile : SourceFile where
  path := "a.py"
  body :=
    [.type "A" [.function "f" 1 100 [.function "g" 2 80 []], .other "if_statement" [.function "f" 101 155 []]],
      .type "" [.function "f" 156 400 []]]

theorem findings_visitFile_nestedFile :
    (nestedFile.places.filterMap Place.span?).Nodup ∧
      (visitFile Settings.builtIn nestedFile {}).findings.Perm
        [⟨"a.py", "A.f", .method, .error, 100, 1, 100⟩, ⟨"a.py", "g", .function, .error, 79, 2, 80⟩,
          ⟨"a.py", "f", .function, .warning, 55, 101, 155⟩,
          ⟨"a.py", "f", .function, .error, 245, 156, 400⟩] := by
  have hn : (nestedFile.places.filterMap Place.span?).Nodup := by decide
  exact ⟨hn, findings_visitFile_perm Settings.builtIn nestedFile hn⟩

end FunctionLength.Analysis
