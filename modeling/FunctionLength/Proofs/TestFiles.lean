import FunctionLength.Proofs.Independence
import FunctionLength.Proofs.Transcript

namespace FunctionLength.Checker
open FunctionLength.Analysis FunctionLength.Syntax

variable {c : Checker} {fs : FileSystem} {path : String} {ignoreTests : Bool}

theorem isTestFile_eq_true_iff (c : Checker) (path : String) :
    c.isTestFile path = true ↔
      "test_".toList <+: (Path.base path).toList ∨ Path.base path ∈ c.settings.ignoredFiles := by
  rw [isTestFile, Bool.or_eq_true, List.isPrefixOf_iff_prefix, List.contains_iff_mem]

theorem syntaxError?_of_isTestFile (h : c.isTestFile path = true) : c.syntaxError? fs true path = none := by
  simp [syntaxError?, h]

theorem sightings_of_isTestFile (h : c.isTestFile path = true) : c.sightings fs true path = [] := by
  simp [sightings, source?, h]

theorem syntaxError?_of_not_isTestFile (h : c.isTestFile path = false) :
    c.syntaxError? fs true path = c.syntaxError? fs false path := by
  simp [syntaxError?, h]

theorem sightings_of_not_isTestFile (h : c.isTestFile path = false) :
    c.sightings fs true path = c.sightings fs false path := by
  simp [sightings, source?, h]

theorem events_file (c : Checker) (fs : FileSystem) (ignoreTests : Bool) (path : String) (a : Analysis) :
    Request.events c.settings a (.file fs c.parser ignoreTests path) =
      match c.syntaxError? fs ignoreTests path with
      | some e => [.invalid path e]
      | none => (Sighting.findings c.settings
          (Sighting.firsts a.visited (c.sightings fs ignoreTests path))).map .found := by
  have hjudged := c.judged_addFile fs ignoreTests path a
  have hdrop : (c.addFile fs ignoreTests path a).findings.drop a.findings.length =
      Sighting.findings c.settings (Sighting.firsts a.visited (c.sightings fs ignoreTests path)) := by
    rw [hjudged.findings, List.drop_left]
  rw [Request.events, Request.syntaxError?, Request.perform, hdrop]
  cases c.syntaxError? fs ignoreTests path <;> rfl

theorem file_of_mem_events (h : c.parser.KeepsPath) {a : Analysis} {e : Event}
    (he : e ∈ Request.events c.settings a (.file fs c.parser ignoreTests path)) : e.file = path := by
  rw [events_file] at he
  cases herror : c.syntaxError? fs ignoreTests path with
  | some error =>
    simp only [herror, List.mem_singleton] at he
    subst e
    rfl
  | none =>
    simp only [herror] at he
    obtain ⟨f, hf, rfl⟩ := List.mem_map.mp he
    obtain ⟨x, hx, rfl⟩ := List.mem_map.mp hf
    have hx := (Sighting.firsts_sublist _ _).subset (List.mem_filter.mp hx).1
    exact c.knownByPath_sightings h fs ignoreTests path x hx

/-- Analyses of which the second one may have seen more, but in test files only. -/
def SameButTests (c : Checker) (a b : Analysis) : Prop :=
  ∀ k : Identity, c.isTestFile k.file = false → (k ∈ a.visited ↔ k ∈ b.visited)

section Step

variable (h : c.parser.KeepsPath) {a b : Analysis} (hab : c.SameButTests a b)
include h hab

/-- A step for a test file, which one of the two analyses leaves out. -/
theorem SameButTests.skip (hpath : c.isTestFile path = true) :
    c.SameButTests (c.addFile fs true path a) (c.addFile fs false path b) := by
  intro k hk
  have hleft := (c.judged_addFile fs true path a).visited
  have hright := (c.judged_addFile fs false path b).visited
  have hother : k ∉ (Sighting.firsts b.visited (c.sightings fs false path)).map Sighting.identity := by
    intro hmem
    obtain ⟨x, hx, rfl⟩ := List.mem_map.mp hmem
    have hfile := c.knownByPath_sightings h fs false path x ((Sighting.firsts_sublist _ _).subset hx)
    rw [hfile, hpath] at hk
    contradiction
  rw [sightings_of_isTestFile hpath] at hleft
  rw [hleft, hright, List.mem_append, List.mem_reverse]
  simp [Sighting.firsts, hother, hab k hk]

theorem firsts_eq_of_sameButTests (hpath : c.isTestFile path = false) :
    Sighting.firsts a.visited (c.sightings fs false path) =
      Sighting.firsts b.visited (c.sightings fs false path) := by
  refine Sighting.firsts_congr fun x hx => hab x.identity ?_
  rw [c.knownByPath_sightings h fs false path x hx, hpath]

theorem SameButTests.step (hpath : c.isTestFile path = false) :
    c.SameButTests (c.addFile fs true path a) (c.addFile fs false path b) := by
  intro k hk
  have hleft := (c.judged_addFile fs true path a).visited
  have hright := (c.judged_addFile fs false path b).visited
  rw [sightings_of_not_isTestFile hpath, firsts_eq_of_sameButTests h hab hpath] at hleft
  rw [hleft, hright, List.mem_append, List.mem_append, hab k hk]

theorem events_of_not_isTestFile (hpath : c.isTestFile path = false) :
    Request.events c.settings a (.file fs c.parser true path) =
      Request.events c.settings b (.file fs c.parser false path) := by
  rw [events_file, events_file, syntaxError?_of_not_isTestFile hpath, sightings_of_not_isTestFile hpath,
    firsts_eq_of_sameButTests h hab hpath]

theorem history_filter_tests (files : List String) :
    history c.settings a (files.map (.file fs c.parser true)) =
      (history c.settings b (files.map (.file fs c.parser false))).filter
        fun e => !c.isTestFile e.file := by
  induction files generalizing a b with
  | nil => rfl
  | cons path files ih =>
    rw [List.map_cons, List.map_cons, history, history, List.filter_append]
    cases hpath : c.isTestFile path with
    | true =>
      have hnone : Request.events c.settings a (.file fs c.parser true path) = [] := by
        rw [events_file, syntaxError?_of_isTestFile hpath, sightings_of_isTestFile hpath]
        rfl
      have hgone : (Request.events c.settings b (.file fs c.parser false path)).filter
          (fun e => !c.isTestFile e.file) = [] := by
        refine List.filter_eq_nil_iff.mpr fun e he => ?_
        simp [file_of_mem_events h he, hpath]
      rw [hnone, hgone]
      exact congrArg ([] ++ ·) (ih (hab.skip h hpath))
    | false =>
      have hkept : (Request.events c.settings b (.file fs c.parser false path)).filter
          (fun e => !c.isTestFile e.file) = Request.events c.settings b (.file fs c.parser false path) := by
        refine List.filter_eq_self.mpr fun e he => ?_
        simp [file_of_mem_events h he, hpath]
      rw [hkept, events_of_not_isTestFile h hab hpath]
      exact congrArg (_ ++ ·) (ih (hab.step h hpath))

end Step
end FunctionLength.Checker

namespace FunctionLength.Job
open FunctionLength.Analysis FunctionLength.Syntax

def history (j : Job) (fs : FileSystem) (paths : List String) : List Event :=
  Analysis.history j.checker.settings {} ((j.files fs paths).map (.file fs j.checker.parser j.ignoreTests))

def printed (j : Job) (fs : FileSystem) (paths : List String) : List Event :=
  (j.history fs paths).filter (Event.isPrinted j.checker.settings)

theorem told_run (j : Job) (fs : FileSystem) (paths : List String) :
    Told j.checker.settings (j.history fs paths) {} (j.run fs paths) := by
  have hparts : ∀ r ∈ (j.files fs paths).map (Request.file fs j.checker.parser j.ignoreTests), r.IsPart := by
    intro r hr
    obtain ⟨path, -, rfl⟩ := List.mem_map.mp hr
    trivial
  have htold := told_history j.checker.settings {} hparts
  rw [List.foldl_map] at htold
  exact htold.of_unlogged (j.unlogged_run fs paths)

theorem history_ignoreTests {j : Job} (h : j.checker.parser.KeepsPath) (fs : FileSystem) (paths : List String) :
    { j with ignoreTests := true }.history fs paths =
      ({ j with ignoreTests := false }.history fs paths).filter fun e => !j.checker.isTestFile e.file :=
  Checker.history_filter_tests h (fun _ _ => Iff.rfl) (j.files fs paths)

theorem filterMap_finding?_filter (keep : String → Bool) (events : List Event) :
    (events.filter fun e => keep e.file).filterMap Event.finding? =
      (events.filterMap Event.finding?).filter fun f => keep f.file := by
  induction events with
  | nil => rfl
  | cons e events ih =>
    cases e with
    | found f => cases hf : keep f.file <;> simp [hf, ih]
    | invalid path e => cases hp : keep path <;> simp [List.filterMap_cons, hp, ih]

def twoLinesAtLeast : Parser where
  supports := (· == ".py")
  parse path content :=
    if content.isEmpty then .error (.during "reading" (.invalid ⟨Path.base path, 1, "nothing here"⟩))
    else .ok { path, body := [.function "f" 1 2 []] }

def filesAndTests : FileSystem where
  root := [("a.py", .file ⟨#[10]⟩), ("conftest.py", .file ByteArray.empty), ("d", .directory [
    ("b.py", .file ByteArray.empty), ("test_b.py", .file ⟨#[10]⟩)])]
  workingDirectory := "/"

end FunctionLength.Job
