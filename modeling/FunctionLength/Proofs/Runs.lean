import FunctionLength.Proofs.Sightings
import Mathlib.Data.List.Basic

namespace FunctionLength.Syntax
open FunctionLength.Analysis

def Declaration.sighting? (file owner : String) : Declaration → Option Sighting
  | .function name first last _ => some ⟨owner, ⟨file, name, first, last⟩⟩
  | _ => none

/-- What a declaration shows when a walk comes to it. A class shows its direct members. -/
def Declaration.sightings (file : String) : Declaration → List Sighting
  | .function name first last _ => [⟨"", ⟨file, name, first, last⟩⟩]
  | .type owner members => members.filterMap (sighting? file owner)
  | .other _ _ => []

def SourceFile.sightings (f : SourceFile) : List Sighting := f.walk.flatMap (·.sightings f.path)

end FunctionLength.Syntax

namespace FunctionLength.Analysis
open FunctionLength.Syntax

theorem visitMember_eq_foldl (s : Settings) (file owner : String) (a : Analysis) (d : Declaration) :
    visitMember s file owner a d = (d.sighting? file owner).toList.foldl (see s) a := by
  cases d <;> rfl

theorem visitDeclaration_eq_foldl (s : Settings) (file : String) (a : Analysis) (d : Declaration) :
    visitDeclaration s file a d = (d.sightings file).foldl (see s) a := by
  cases d with
  | function name first last body => rfl
  | type owner members =>
    rw [visitDeclaration, Declaration.sightings, List.filterMap_eq_flatMap_toList, List.foldl_flatMap]
    congr 1
    funext a d
    exact visitMember_eq_foldl s file owner a d
  | other kind body => rfl

/-- A file is nothing but its sightings. -/
theorem visitFile_eq_foldl (s : Settings) (f : SourceFile) (a : Analysis) :
    visitFile s f a = f.sightings.foldl (see s) a := by
  rw [visitFile, SourceFile.sightings, List.foldl_flatMap]
  congr 1
  funext a d
  exact visitDeclaration_eq_foldl s f.path a d

theorem judged_visitFile (s : Settings) (f : SourceFile) (a : Analysis) :
    Judged s f.sightings a (visitFile s f a) := by
  have h := Judged.foldl (fun a x => judged_see s x a) f.sightings a
  rwa [List.flatMap_singleton', ← visitFile_eq_foldl] at h

def unlogged (a : Analysis) : Analysis := { a with log := [] }

theorem Judged.of_unlogged {s : Settings} {xs : List Sighting} {a b c : Analysis} (h : Judged s xs a b)
    (heq : c.unlogged = b.unlogged) : Judged s xs a c :=
  ⟨(congrArg Analysis.visited heq).trans h.visited, (congrArg Analysis.findings heq).trans h.findings,
    (congrArg Analysis.tooLong heq).trans h.tooLong⟩

theorem unlogged_report (s : Settings) (f : Finding) (a : Analysis) :
    (a.report s f).unlogged = a.unlogged.report s f := by
  unfold report
  cases s.output <;> rfl

theorem unlogged_see (s : Settings) (a : Analysis) (x : Sighting) :
    (a.see s x).unlogged = a.unlogged.see s x := by
  by_cases hseen : x.identity ∈ a.visited
  · rw [see_of_mem hseen, see_of_mem (a := a.unlogged) hseen]
  · rw [see_of_not_mem hseen, see_of_not_mem (a := a.unlogged) hseen]
    cases x.isLong s with
    | true => exact unlogged_report s (x.finding s) _
    | false => rfl

theorem unlogged_visitFile (s : Settings) (f : SourceFile) (a : Analysis) :
    (visitFile s f a).unlogged = visitFile s f a.unlogged := by
  rw [visitFile_eq_foldl, visitFile_eq_foldl]
  exact (List.foldl_hom unlogged fun a x => (unlogged_see s a x).symm).symm

end FunctionLength.Analysis

namespace FunctionLength.Checker
open FunctionLength.Analysis FunctionLength.Syntax

def source? (c : Checker) (fs : FileSystem) (ignoreTests : Bool) (path : String) : Option SourceFile :=
  if ignoreTests && c.isTestFile path then none
  else
    match fs.readFile path with
    | .error _ => none
    | .ok content => (c.parser.parse path content).toOption

theorem source?_eq_some_iff (c : Checker) (fs : FileSystem) (ignoreTests : Bool) (path : String)
    (f : SourceFile) :
    c.source? fs ignoreTests path = some f ↔
      (ignoreTests && c.isTestFile path) = false ∧
        ∃ content, fs.readFile path = .ok content ∧ c.parser.parse path content = .ok f := by
  unfold source?
  cases hskip : ignoreTests && c.isTestFile path with
  | true => simp
  | false =>
    cases hread : fs.readFile path with
    | error e => simp
    | ok content =>
      cases hparse : c.parser.parse path content <;> simp [hparse, Except.toOption]

def sightings (c : Checker) (fs : FileSystem) (ignoreTests : Bool) (path : String) : List Sighting :=
  (c.source? fs ignoreTests path).elim [] SourceFile.sightings

theorem judged_addFile (c : Checker) (fs : FileSystem) (ignoreTests : Bool) (path : String) (a : Analysis) :
    Judged c.settings (c.sightings fs ignoreTests path) a (c.addFile fs ignoreTests path a) := by
  unfold sightings source? addFile
  cases hskip : ignoreTests && c.isTestFile path with
  | true => exact (Judged.refl c.settings a).record ..
  | false =>
    cases hread : fs.readFile path with
    | error e => exact (Judged.refl c.settings a).record ..
    | ok content =>
      cases hparse : c.parser.parse path content with
      | ok f =>
        simp only [hparse]
        exact judged_visitFile c.settings f a
      | error e =>
        simp only [hparse]
        cases e.syntaxError? with
        | some error => exact (Judged.refl c.settings a).write ..
        | none => exact (Judged.refl c.settings a).record ..

def file? (c : Checker) : FileSystem.Visit → Option String
  | .found path => if c.parser.supports (Path.extension path) then some path else none
  | _ => none

def filesBelow (c : Checker) (fs : FileSystem) (path : String) : List String :=
  (fs.walk c.ignoresDirectory path).filterMap c.file?

theorem unlogged_addFile (c : Checker) (fs : FileSystem) (ignoreTests : Bool) (path : String)
    {a b : Analysis} (h : a.unlogged = b.unlogged) :
    (c.addFile fs ignoreTests path a).unlogged = (c.addFile fs ignoreTests path b).unlogged := by
  unfold addFile
  cases ignoreTests && c.isTestFile path with
  | true => exact h
  | false =>
    cases fs.readFile path with
    | error e => exact h
    | ok content =>
      cases hparse : c.parser.parse path content with
      | ok f =>
        simp only [hparse]
        change (visitFile c.settings f a).unlogged = (visitFile c.settings f b).unlogged
        rw [unlogged_visitFile, unlogged_visitFile, h]
      | error e =>
        simp only [hparse]
        cases e.syntaxError? with
        | some error =>
          change a.unlogged.write _ = b.unlogged.write _
          rw [h]
        | none => exact h

theorem unlogged_foldl_addVisit (c : Checker) (fs : FileSystem) (ignoreTests : Bool)
    (visits : List FileSystem.Visit) {a b : Analysis} (h : a.unlogged = b.unlogged) :
    (visits.foldl (c.addVisit fs ignoreTests) a).unlogged =
      ((visits.filterMap c.file?).foldl (fun a path => c.addFile fs ignoreTests path a) b).unlogged := by
  induction visits generalizing a b with
  | nil => exact h
  | cons v visits ih =>
    cases v with
    | found path =>
      by_cases hs : c.parser.supports (Path.extension path)
      · simpa [addVisit, file?, hs] using ih (c.unlogged_addFile fs ignoreTests path h)
      · simpa [addVisit, file?, hs] using ih h
    | pruned path => exact ih h
    | unreadable path e => exact ih h

theorem judged_addDirectory (c : Checker) (fs : FileSystem) (ignoreTests : Bool) (path : String)
    (a : Analysis) :
    Judged c.settings ((c.filesBelow fs path).flatMap (c.sightings fs ignoreTests)) a
      (c.addDirectory fs ignoreTests path a) :=
  have hfiles := Judged.foldl (fun a file => c.judged_addFile fs ignoreTests file a) (c.filesBelow fs path) a
  hfiles.of_unlogged (c.unlogged_foldl_addVisit fs ignoreTests (fs.walk c.ignoresDirectory path) rfl)

end FunctionLength.Checker

namespace FunctionLength.Job
open FunctionLength.Analysis

def filesAt (j : Job) (fs : FileSystem) (path : String) : List String :=
  match fs.status path with
  | .ok (.file _) => [path]
  | .ok (.directory _) => j.checker.filesBelow fs path
  | _ => []

/-- The files that a run analyzes, in turn. A file that is reached more than once occurs more than once. -/
def files (j : Job) (fs : FileSystem) (paths : List String) : List String := paths.flatMap (j.filesAt fs)

theorem unlogged_addPath (j : Job) (fs : FileSystem) (path : String) {a b : Analysis}
    (h : a.unlogged = b.unlogged) :
    (j.addPath fs a path).unlogged = ((j.filesAt fs path).foldl
      (fun a file => j.checker.addFile fs j.ignoreTests file a) b).unlogged := by
  unfold filesAt addPath
  cases fs.status path with
  | error e => exact h
  | ok entry =>
    cases entry with
    | file content => exact j.checker.unlogged_addFile fs j.ignoreTests path h
    | directory entries => exact j.checker.unlogged_foldl_addVisit fs j.ignoreTests _ h
    | link target => exact h
    | special reading => exact h

theorem unlogged_foldl_addPath (j : Job) (fs : FileSystem) (paths : List String) {a b : Analysis}
    (h : a.unlogged = b.unlogged) :
    (paths.foldl (j.addPath fs) a).unlogged = ((j.files fs paths).foldl
      (fun a file => j.checker.addFile fs j.ignoreTests file a) b).unlogged := by
  induction paths generalizing a b with
  | nil => exact h
  | cons path paths ih =>
    rw [files, List.flatMap_cons, List.foldl_append]
    exact ih (j.unlogged_addPath fs path h)

theorem unlogged_run (j : Job) (fs : FileSystem) (paths : List String) :
    (j.run fs paths).unlogged = ((j.files fs paths).foldl
      (fun a file => j.checker.addFile fs j.ignoreTests file a) {}).unlogged :=
  j.unlogged_foldl_addPath fs paths rfl

theorem judged_run (j : Job) (fs : FileSystem) (paths : List String) :
    Judged j.checker.settings ((j.files fs paths).flatMap (j.checker.sightings fs j.ignoreTests)) {}
      (j.run fs paths) :=
  have hfiles := Judged.foldl (fun a file => j.checker.judged_addFile fs j.ignoreTests file a)
    (j.files fs paths) {}
  hfiles.of_unlogged (j.unlogged_run fs paths)

end FunctionLength.Job
