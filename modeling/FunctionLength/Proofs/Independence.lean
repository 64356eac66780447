import FunctionLength.Proofs.Runs
import FunctionLength.Python.Reader
import Mathlib.Data.List.Nodup

/-!
Runs and the files that they go through. As long as functions are known by the file that they are in, what is
found in one file has nothing to do with any other file: a run is the sum of its files.
-/

namespace FunctionLength.Analysis

theorem nodup_eraseDups {α : Type} [BEq α] [LawfulBEq α] (l : List α) : l.eraseDups.Nodup := by
  cases l with
  | nil => simp
  | cons a as =>
    have hlt : (as.filter fun b => !b == a).length < as.length + 1 :=
      Nat.lt_succ_of_le (List.length_filter_le _ _)
    rw [List.eraseDups_cons, List.nodup_cons]
    exact ⟨by simp, nodup_eraseDups (as.filter fun b => !b == a)⟩
termination_by l.length

theorem eraseDups_filter {α : Type} [BEq α] [LawfulBEq α] (p : α → Bool) (l : List α) :
    (l.filter p).eraseDups = l.eraseDups.filter p := by
  cases l with
  | nil => rfl
  | cons a as =>
    have hlt : (as.filter fun b => !b == a).length < as.length + 1 :=
      Nat.lt_succ_of_le (List.length_filter_le _ _)
    have hrest := eraseDups_filter p (as.filter fun b => !b == a)
    rw [List.eraseDups_cons, List.filter_cons, List.filter_cons, ← hrest]
    cases hp : p a with
    | true => simp [List.eraseDups_cons, List.filter_filter, Bool.and_comm]
    | false =>
      have hfilter : (as.filter fun b => !b == a).filter p = as.filter p := by
        rw [List.filter_filter]
        apply List.filter_congr
        intro b hb
        by_cases hba : b = a
        · simp [hba, hp]
        · simp [hba]
      simp [hfilter]
termination_by l.length

namespace Sighting

/-- A row of sightings for each path, of functions that are known by that path. -/
def KnownByPath (g : String → List Sighting) : Prop := ∀ path, ∀ x ∈ g path, x.identity.file = path

theorem firsts_flatMap_filter (g : String → List Sighting) {path : String} {seen : List Identity}
    (hseen : ∀ x ∈ g path, x.identity ∈ seen) (paths : List String) :
    firsts seen (paths.flatMap g) = firsts seen ((paths.filter fun p => !p == path).flatMap g) := by
  induction paths generalizing seen with
  | nil => rfl
  | cons p paths ih =>
    rw [List.flatMap_cons, firsts_append]
    by_cases hp : p = path
    · subst p
      have hnil := firsts_eq_nil hseen
      simpa [hnil] using ih hseen
    · have hseen' : ∀ x ∈ g path, x.identity ∈ ((firsts seen (g p)).map identity).reverse ++ seen :=
        fun x hx => List.mem_append_right _ (hseen x hx)
      simp [hp, firsts_append, ih hseen']

/-- If functions are known by their paths, each path counts where it comes first, and as if it were alone. -/
theorem firsts_flatMap {g : String → List Sighting} (hg : KnownByPath g) (paths : List String) :
    firsts [] (paths.flatMap g) = paths.eraseDups.flatMap fun path => firsts [] (g path) := by
  cases paths with
  | nil => rfl
  | cons path paths =>
    have hlt : (paths.filter fun p => !p == path).length < paths.length + 1 :=
      Nat.lt_succ_of_le (List.length_filter_le _ _)
    have hseen : ∀ x ∈ g path, x.identity ∈ ((firsts [] (g path)).map identity).reverse ++ [] := by
      intro x hx
      simpa using mem_identity_firsts [] hx
    have hother : ∀ x ∈ (paths.filter fun p => !p == path).flatMap g,
        x.identity ∈ ((firsts [] (g path)).map identity).reverse ++ [] ↔ x.identity ∈ [] := by
      intro x hx
      obtain ⟨p, hp, hxp⟩ := List.mem_flatMap.mp hx
      have hne : p ≠ path := by simpa using (List.mem_filter.mp hp).2
      simp only [List.append_nil, List.mem_reverse, List.not_mem_nil, iff_false]
      intro hmem
      obtain ⟨y, hy, heq⟩ := List.mem_map.mp hmem
      have hy := hg path y ((firsts_sublist [] _).subset hy)
      have hx := hg p x hxp
      exact hne (by rw [← hx, ← heq, hy])
    rw [List.eraseDups_cons, List.flatMap_cons, List.flatMap_cons, firsts_append,
      firsts_flatMap_filter g hseen, firsts_congr hother]
    rw [firsts_flatMap hg (paths.filter fun p => !p == path)]
termination_by paths.length

end Sighting
end FunctionLength.Analysis

namespace FunctionLength.Syntax
open FunctionLength.Analysis

def Parser.KeepsPath (p : Parser) : Prop := ∀ path content f, p.parse path content = .ok f → f.path = path

theorem Declaration.file_of_mem_sightings {file : String} {d : Declaration} {x : Sighting}
    (hx : x ∈ d.sightings file) : x.identity.file = file := by
  cases d with
  | function name first last body =>
    simp only [sightings, List.mem_singleton] at hx
    subst x
    rfl
  | type owner members =>
    obtain ⟨d, hd, hx⟩ := List.mem_filterMap.mp hx
    cases d with
    | function name first last body =>
      simp only [sighting?, Option.some.injEq] at hx
      subst x
      rfl
    | type _ _ => simp [sighting?] at hx
    | other _ _ => simp [sighting?] at hx
  | other kind body => simp [sightings] at hx

end FunctionLength.Syntax

namespace FunctionLength.Python
open FunctionLength.Syntax FunctionLength.Text

theorem path_of_ofTree {path : String} {src : Source} {root : Node} {f : SourceFile}
    (h : ofTree path src root = .ok f) : f.path = path := by
  unfold ofTree at h
  cases hbad : root.find? isInvalid with
  | some bad => simp [hbad] at h
  | none =>
    simp only [hbad, Except.ok.injEq] at h
    subst f
    rfl

theorem parser_keepsPath : parser.KeepsPath := by
  intro path content f hf
  change readBy Parsing.concrete? path content = .ok f at hf
  unfold readBy at hf
  split at hf
  · cases hf
    rfl
  · cases htree : Parsing.concrete? (Source.ofBytes content) with
    | some root =>
      simp only [htree] at hf
      exact path_of_ofTree hf
    | none =>
      simp only [htree] at hf
      cases hf

end FunctionLength.Python

namespace FunctionLength.Checker
open FunctionLength.Analysis FunctionLength.Syntax

theorem knownByPath_sightings {c : Checker} (h : c.parser.KeepsPath) (fs : FileSystem) (ignoreTests : Bool) :
    Sighting.KnownByPath (c.sightings fs ignoreTests) := by
  intro path x hx
  unfold sightings at hx
  cases hs : c.source? fs ignoreTests path with
  | none => simp [hs] at hx
  | some f =>
    obtain ⟨-, content, -, hparse⟩ := (c.source?_eq_some_iff fs ignoreTests path f).mp hs
    rw [hs, Option.elim_some] at hx
    obtain ⟨d, hd, hx⟩ := List.mem_flatMap.mp hx
    rw [Declaration.file_of_mem_sightings hx, h path content f hparse]

end FunctionLength.Checker

namespace FunctionLength.Job
open FunctionLength.Analysis FunctionLength.Syntax

def alone (j : Job) (fs : FileSystem) (path : String) : Analysis :=
  j.checker.addFile fs j.ignoreTests path {}

theorem findings_alone (j : Job) (fs : FileSystem) (path : String) :
    (j.alone fs path).findings = Sighting.findings j.checker.settings
      (Sighting.firsts [] (j.checker.sightings fs j.ignoreTests path)) :=
  (j.checker.judged_addFile fs j.ignoreTests path {}).findings

theorem file_of_mem_alone {j : Job} (h : j.checker.parser.KeepsPath) {fs : FileSystem} {path : String}
    {f : Finding} (hf : f ∈ (j.alone fs path).findings) : f.file = path := by
  rw [j.findings_alone] at hf
  obtain ⟨x, hx, rfl⟩ := List.mem_map.mp hf
  have hx := (Sighting.firsts_sublist [] _).subset (List.mem_filter.mp hx).1
  exact j.checker.knownByPath_sightings h fs j.ignoreTests path x hx

theorem findings_run {j : Job} (h : j.checker.parser.KeepsPath) (fs : FileSystem) (paths : List String) :
    (j.run fs paths).findings =
      (j.files fs paths).eraseDups.flatMap fun path => (j.alone fs path).findings := by
  rw [(j.judged_run fs paths).findings, List.nil_append,
    Sighting.firsts_flatMap (Checker.knownByPath_sightings h fs j.ignoreTests), Sighting.findings_flatMap]
  exact List.flatMap_congr fun path _ => (j.findings_alone fs path).symm

theorem tooLong_run (j : Job) (fs : FileSystem) (paths : List String) :
    (j.run fs paths).tooLong = (j.files fs paths).any fun path => (j.alone fs path).tooLong := by
  rw [(j.judged_run fs paths).tooLong_fresh, List.any_flatMap]
  apply List.any_congr rfl
  intro path
  exact (j.checker.judged_addFile fs j.ignoreTests path {}).tooLong_fresh.symm

theorem mem_files_congr (j : Job) (fs : FileSystem) {paths paths' : List String}
    (h : ∀ path, path ∈ paths' ↔ path ∈ paths) (file : String) :
    file ∈ j.files fs paths' ↔ file ∈ j.files fs paths := by
  simp [files, h]

theorem filter_findings_alone {j : Job} (h : j.checker.parser.KeepsPath) (fs : FileSystem) (path : String)
    (broken : String → Bool) :
    (j.alone fs path).findings.filter (fun f => !broken f.file) =
      if broken path then [] else (j.alone fs path).findings := by
  have hfile : ∀ f ∈ (j.alone fs path).findings, (!broken f.file) = !broken path := by
    intro f hf
    rw [file_of_mem_alone h hf]
  rw [List.filter_congr hfile]
  cases broken path <;> simp

theorem filter_findings_run {j : Job} (h : j.checker.parser.KeepsPath) (fs : FileSystem)
    (paths : List String) (broken : String → Bool) :
    (j.run fs paths).findings.filter (fun f => !broken f.file) =
      ((j.files fs paths).filter fun path => !broken path).eraseDups.flatMap
        fun path => (j.alone fs path).findings := by
  rw [findings_run h, List.filter_flatMap, eraseDups_filter]
  induction (j.files fs paths).eraseDups with
  | nil => rfl
  | cons path files ih =>
    rw [List.flatMap_cons, ih, filter_findings_alone h]
    cases hb : broken path <;> simp [hb]

def twoLines : Parser where
  supports := (· == ".py")
  parse path _ := .ok { path, body := [.function "f" 1 2 []] }

def twoFiles : FileSystem where
  root := [("a.py", .file "def f():\n    pass\n".toUTF8),
    ("d", .directory [("b.py", .file "def f():\n    pass\n".toUTF8)])]
  workingDirectory := "/"

def strict (parser : Parser) : Job where
  checker := { settings := { Settings.builtIn with warningLimit := 1, errorLimit := 2 }, parser }
  ignoreTests := false

end FunctionLength.Job
