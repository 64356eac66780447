import FunctionLength.Proofs.Transcript

namespace FunctionLength.Analysis
open FunctionLength.Syntax

def Request.IsKnown (s : Settings) (a : Analysis) (r : Request) : Prop :=
  ∀ x ∈ r.sightings s, x.identity ∈ a.visited

structure Unmoved (a b : Analysis) : Prop where
  visited : b.visited = a.visited
  findings : b.findings = a.findings
  tooLong : b.tooLong = a.tooLong

theorem Judged.unmoved {s : Settings} {xs : List Sighting} {a b : Analysis} (h : Judged s xs a b)
    (hseen : ∀ x ∈ xs, x.identity ∈ a.visited) : Unmoved a b := by
  have hfirsts : Sighting.firsts a.visited xs = [] := Sighting.firsts_eq_nil hseen
  refine ⟨?_, ?_, ?_⟩
  · rw [h.visited, hfirsts]
    rfl
  · rw [h.findings, hfirsts, Sighting.findings_nil, List.append_nil]
  · rw [h.tooLong, hfirsts, List.any_nil, Bool.or_false]

theorem isKnown_after (s : Settings) {requests : List Request} {r : Request} (h : r ∈ requests) :
    r.IsKnown s (after s requests) := by
  intro x hx
  rw [(judged_after s requests).consistent.visited]
  exact ⟨x, List.mem_flatMap.mpr ⟨r, h, hx⟩, rfl⟩

namespace Request

variable {s : Settings} {a : Analysis}

theorem mem_sightings_of_mem_parts {r p : Request} (hp : p ∈ r.parts s) {x : Sighting} (hx : x ∈ p.sightings s) :
    x ∈ r.sightings s := by
  cases r with
  | function y =>
    rw [List.mem_singleton.mp hp] at hx
    exact hx
  | file fs parser ignoreTests path =>
    rw [List.mem_singleton.mp hp] at hx
    exact hx
  | directory fs parser ignoreTests path =>
    obtain ⟨file, hfile, rfl⟩ := List.mem_map.mp hp
    exact List.mem_flatMap.mpr ⟨file, hfile, hx⟩

theorem IsKnown.unmoved {r : Request} (h : r.IsKnown s a) : Unmoved a (r.perform s a) :=
  (r.judged_perform s a).unmoved h

theorem IsKnown.of_unmoved {r : Request} {b : Analysis} (h : r.IsKnown s a) (hab : Unmoved a b) :
    r.IsKnown s b := by
  intro x hx
  rw [hab.visited]
  exact h x hx

theorem IsKnown.events_eq {r : Request} (h : r.IsKnown s a) :
    r.events s a = (r.syntaxError? s).toList.map fun x => .invalid x.1 x.2 := by
  rw [events]
  cases r.syntaxError? s with
  | some x => rfl
  | none =>
    simp only [h.unmoved.findings, List.drop_length]
    rfl

end Request

theorem history_of_isKnown {s : Settings} {a : Analysis} {rs : List Request} (h : ∀ r ∈ rs, r.IsKnown s a) :
    history s a rs = (rs.filterMap (Request.syntaxError? s)).map fun x => .invalid x.1 x.2 := by
  induction rs generalizing a with
  | nil => rfl
  | cons r rs ih =>
    have hr := h r List.mem_cons_self
    have hrest : ∀ p ∈ rs, p.IsKnown s (r.perform s a) :=
      fun p hp => (h p (List.mem_cons_of_mem _ hp)).of_unmoved hr.unmoved
    rw [history, hr.events_eq, ih hrest]
    cases herror : r.syntaxError? s with
    | none => rw [List.filterMap_cons_none herror]; rfl
    | some x => rw [List.filterMap_cons_some herror]; rfl

/-- The lines about the files that are not valid, for each time that one of them is asked for. -/
def errorLines (s : Settings) (requests : List Request) : List String :=
  ((requests.flatMap (Request.parts s)).filterMap (Request.syntaxError? s)).map fun x =>
    "The file '" ++ x.1 ++ "' has errors " ++ x.2.text ++ ".\n"

theorem output_of_isKnown {s : Settings} {a : Analysis} {requests : List Request}
    (h : ∀ r ∈ requests, r.IsKnown s a) :
    (requests.foldl (Request.perform s) a).output = a.output ++ errorLines s requests := by
  have hparts : ∀ p ∈ requests.flatMap (Request.parts s), p.IsKnown s a := by
    intro p hp x hx
    obtain ⟨r, hr, hp⟩ := List.mem_flatMap.mp hp
    exact h r hr x (Request.mem_sightings_of_mem_parts hp hx)
  have hprinted : ∀ xs : List (String × SyntaxError),
      ((xs.map fun x => Event.invalid x.1 x.2).filter (Event.isPrinted s)).map Event.text =
        xs.map fun x => "The file '" ++ x.1 ++ "' has errors " ++ x.2.text ++ ".\n" := by
    intro xs
    rw [List.filter_eq_self.mpr, List.map_map]
    · rfl
    · intro e he
      obtain ⟨x, -, rfl⟩ := List.mem_map.mp he
      exact Bool.or_true _
  rw [(told_foldl_perform s requests a).output, history_of_isKnown hparts, hprinted]
  rfl

/-- Whatever an analysis was asked before, to ask it again for some of that changes nothing. It has seen, found and
judged the same, and only the lines about files that are not valid are written anew. -/
theorem repetition_changes_nothing (s : Settings) (earlier requests : List Request) {again : List Request}
    (h : ∀ r ∈ again, r ∈ requests) :
    (after s (earlier ++ requests ++ again)).findings = (after s (earlier ++ requests)).findings ∧
      (after s (earlier ++ requests ++ again)).tooLong = (after s (earlier ++ requests)).tooLong ∧
      (after s (earlier ++ requests ++ again)).visited = (after s (earlier ++ requests)).visited ∧
      (after s (earlier ++ requests ++ again)).output =
        (after s (earlier ++ requests)).output ++ errorLines s again := by
  have hknown : ∀ r ∈ again, r.IsKnown s (after s (earlier ++ requests)) :=
    fun r hr => isKnown_after s (List.mem_append_right _ (h r hr))
  have hunmoved : Unmoved (after s (earlier ++ requests)) (after s (earlier ++ requests ++ again)) := by
    refine (judged_after_append s (earlier ++ requests) again).unmoved fun x hx => ?_
    obtain ⟨r, hr, hx⟩ := List.mem_flatMap.mp hx
    exact hknown r hr x hx
  refine ⟨hunmoved.findings, hunmoved.tooLong, hunmoved.visited, ?_⟩
  rw [after, List.foldl_append]
  exact output_of_isKnown hknown

def oneForAll : Parser where
  supports := (· == ".py")
  parse path content :=
    if content.isEmpty then .error (.during "reading" (.invalid ⟨Path.base path, 1, "nothing here"⟩))
    else .ok { path := "all.py", body := [.type "C" [.function "f" 1 70 []], .function "g" 72 125 []] }

def twoAndEmpty : FileSystem where
  root := [("a.py", .file ⟨#[10]⟩), ("d", .directory [("b.py", .file ⟨#[10]⟩), ("empty.py", .file ByteArray.empty)])]
  workingDirectory := "/"

theorem repetition_changes_nothing_twoAndEmpty :
    let earlier : List Request := [.function ⟨"D", ⟨"all.py", "g", 72, 125⟩⟩]
    let directory : Request := .directory twoAndEmpty oneForAll false "d"
    let file : Request := .file twoAndEmpty oneForAll false "a.py"
    (∀ r ∈ [directory, file, directory], r ∈ [file, directory]) ∧
      (after .builtIn (earlier ++ [file, directory] ++ [directory, file, directory])).findings =
        [⟨"all.py", "D.g", .method, .warning, 54, 72, 125⟩, ⟨"all.py", "C.f", .method, .error, 70, 1, 70⟩] ∧
      (after .builtIn (earlier ++ [file, directory] ++ [directory, file, directory])).output =
        ["(warning) The method 'D.g' in file 'all.py' has 54 lines.\n",
          "(error) The method 'C.f' in file 'all.py' has 70 lines.\n",
          "The file 'd/empty.py' has errors nothing here (empty.py, line 1).\n",
          "The file 'd/empty.py' has errors nothing here (empty.py, line 1).\n",
          "The file 'd/empty.py' has errors nothing here (empty.py, line 1).\n"] := by
  intro earlier directory file
  have hagain : ∀ r ∈ [directory, file, directory], r ∈ [file, directory] := by
    intro r hr
    simp only [List.mem_cons, List.not_mem_nil, or_false] at hr ⊢
    tauto
  obtain ⟨hfindings, -, -, houtput⟩ := repetition_changes_nothing .builtIn earlier [file, directory] hagain
  refine ⟨hagain, ?_, ?_⟩
  · rw [hfindings]
    decide +kernel
  · rw [houtput]
    decide +kernel

end FunctionLength.Analysis
