import FunctionLength.CommandLine.Program
import FunctionLength.Proofs.Execution
import FunctionLength.Proofs.Places

namespace FunctionLength.Syntax
open FunctionLength.Analysis

/-- Some function of a file, at any depth, is above the warning limit and reaches the error limit. -/
def SourceFile.HasTooLong (s : Settings) (f : SourceFile) : Prop :=
  ∃ p ∈ f.places, ∃ name first last body, p.node = .function name first last body ∧
    s.warningLimit < lineCount first last ∧ s.errorLimit ≤ lineCount first last

theorem SourceFile.exists_error_iff (s : Settings) (f : SourceFile) :
    (∃ x ∈ f.sightings, x.identity.severity s = .error) ↔ f.HasTooLong s := by
  rw [f.exists_sighting_iff fun k => k.severity s = .error]
  simp only [Identity.severity_eq_error_iff]
  rfl

end FunctionLength.Syntax

namespace FunctionLength.Job
open FunctionLength.Analysis FunctionLength.Syntax

theorem tooLong_run_iff (j : Job) (fs : FileSystem) (paths : List String) :
    (j.run fs paths).tooLong = true ↔
      ∃ file ∈ j.files fs paths, ∃ f,
        j.checker.source? fs j.ignoreTests file = some f ∧ f.HasTooLong j.checker.settings := by
  rw [(j.judged_run fs paths).tooLong_fresh, List.any_eq_true]
  constructor
  · rintro ⟨x, hx, herror⟩
    obtain ⟨file, hfile, hx⟩ := List.mem_flatMap.mp hx
    unfold Checker.sightings at hx
    cases hs : j.checker.source? fs j.ignoreTests file with
    | none => simp [hs] at hx
    | some f =>
      rw [hs, Option.elim_some] at hx
      have hlong := (f.exists_error_iff j.checker.settings).mp ⟨x, hx, of_decide_eq_true herror⟩
      exact ⟨file, hfile, f, hs, hlong⟩
  · rintro ⟨file, hfile, f, hs, hlong⟩
    obtain ⟨x, hx, herror⟩ := (f.exists_error_iff j.checker.settings).mpr hlong
    refine ⟨x, List.mem_flatMap.mpr ⟨file, hfile, ?_⟩, decide_eq_true herror⟩
    rwa [Checker.sightings, hs, Option.elim_some]

theorem execute_cases (j : Job) (fs : FileSystem) (paths : List String) :
    (j.files fs paths).any (j.checker.waits fs j.ignoreTests) = false ∧
        j.execute fs paths = .ok (j.run fs paths) ∨
      (j.files fs paths).any (j.checker.waits fs j.ignoreTests) = true ∧ ∃ a, j.execute fs paths = .error a := by
  have hiff : (j.files fs paths).any (j.checker.waits fs j.ignoreTests) = false ↔
      j.execute fs paths = .ok (j.run fs paths) := by
    rw [execute_eq_run_iff, List.any_eq_false]
    simp only [Bool.not_eq_true]
  cases hexecute : j.execute fs paths with
  | ok a => exact .inl ⟨hiff.mpr (execute_eq_ok hexecute ▸ hexecute), by rw [execute_eq_ok hexecute]⟩
  | error a =>
    refine .inr ⟨Bool.not_eq_false _ ▸ fun hgoes => ?_, a, rfl⟩
    rw [hiff.mp hgoes] at hexecute
    cases hexecute

def withOutput (j : Job) (output : Bool) : Job :=
  { j with checker := { j.checker with settings := { j.checker.settings with output } } }

/-- A file that a run looks into, or at which it comes to a stop. -/
def Concerns (j : Job) (fs : FileSystem) (file : String) : Prop :=
  (j.checker.source? fs j.ignoreTests file).isSome = true ∨ j.checker.waits fs j.ignoreTests file = true

section Paths

variable {j : Job} {fs : FileSystem} {paths paths' : List String}
  (h : ∀ path, (∃ file ∈ j.filesAt fs path, j.Concerns fs file) → (path ∈ paths' ↔ path ∈ paths))
include h

theorem exists_concern_iff {P : String → Prop} (hP : ∀ file, P file → j.Concerns fs file) :
    (∃ file ∈ j.files fs paths', P file) ↔ ∃ file ∈ j.files fs paths, P file := by
  simp only [files, List.mem_flatMap]
  constructor
  · rintro ⟨file, ⟨path, hpath, hfile⟩, hfileP⟩
    exact ⟨file, ⟨path, (h path ⟨file, hfile, hP file hfileP⟩).mp hpath, hfile⟩, hfileP⟩
  · rintro ⟨file, ⟨path, hpath, hfile⟩, hfileP⟩
    exact ⟨file, ⟨path, (h path ⟨file, hfile, hP file hfileP⟩).mpr hpath, hfile⟩, hfileP⟩

theorem any_waits_eq :
    (j.files fs paths').any (j.checker.waits fs j.ignoreTests) =
      (j.files fs paths).any (j.checker.waits fs j.ignoreTests) := by
  rw [Bool.eq_iff_iff, List.any_eq_true, List.any_eq_true]
  exact exists_concern_iff h fun file => Or.inr

/-- Path arguments that bring no file to look into make no difference, nor does printing. -/
theorem tooLong_withOutput_run (output : Bool) :
    ((j.withOutput output).run fs paths').tooLong = (j.run fs paths).tooLong := by
  rw [Bool.eq_iff_iff, tooLong_run_iff, tooLong_run_iff]
  refine exists_concern_iff h fun file => ?_
  rintro ⟨f, hs, -⟩
  exact .inl (Option.isSome_iff_exists.mpr ⟨f, hs⟩)

end Paths

end FunctionLength.Job

namespace FunctionLength.CommandLine
open FunctionLength.Syntax

def Invocation.job (i : Invocation) (parser : Parser) (fs : FileSystem) : Job :=
  i.options.job parser (i.options.resolve fs).settings

theorem Options.settings_resolve_congr {o o' : Options} (hconfig : o'.config = o.config)
    (hline : o'.lineLimit = o.lineLimit) (hwarning : o'.warningLineLimit = o.warningLineLimit)
    (fs : FileSystem) :
    (o'.resolve fs).settings =
      { (o.resolve fs).settings with output := (o'.resolve fs).settings.output } := by
  unfold resolve
  rw [hconfig]
  cases Settings.load fs o.config <;> simp [Settings.apply, layer, hline, hwarning]

variable {arguments arguments' : List String} {i i' : Invocation} {paths paths' : List String}

theorem exit?_check_eq (parser : Parser) (fs : FileSystem) (hi : Invocation.ofArguments arguments = .ok i)
    (hcheck : i.action = .check paths) :
    let j := i.job parser fs
    (runWith parser fs arguments).exit? =
      if fs.waits i.options.config || (j.files fs paths).any (j.checker.waits fs j.ignoreTests) then none
      else some (if (j.run fs paths).tooLong then 1 else 0) := by
  intro j
  have hrun : (runWith parser fs arguments).exit? =
      (Invocation.perform parser fs i.options (.check paths)).exit? := by
    rw [runWith, hi, ← hcheck]
    rfl
  have hjob : i.options.job parser (i.options.resolve fs).settings = j := rfl
  rw [hrun, Invocation.perform, Options.resolving, hjob]
  cases fs.waits i.options.config with
  | true => rfl
  | false =>
    rcases j.execute_cases fs paths with ⟨hgoes, hexecute⟩ | ⟨hwaits, a, hexecute⟩
    · rw [hgoes, hexecute]
      cases htooLong : (j.run fs paths).tooLong <;> simp [Outcome.exit?, Outcome.exitCode, htooLong, Failure.exitCode]
    · rw [hwaits, hexecute]
      rfl

/-- A check does not end just if the settings or a file that it looks into have to be waited for. Otherwise it
ends with 1 if some file that it looks into has a function that is too long, and with 0 if not. What is printed,
the level of the log, the order of path arguments, repeating them, and adding some that bring no file to look
into do not matter. -/
theorem exit?_check (parser : Parser) (fs : FileSystem) (hi : Invocation.ofArguments arguments = .ok i)
    (hcheck : i.action = .check paths) :
    let j := i.job parser fs
    let outcome := runWith parser fs arguments
    (outcome.exit? = none ↔ fs.waits i.options.config = true ∨
      ∃ path ∈ j.files fs paths, j.checker.waits fs i.options.ignoreTests path = true) ∧
    (outcome.exit? ≠ none →
      (outcome.exit? = some 1 ↔ ∃ path ∈ j.files fs paths,
        (i.options.ignoreTests && j.checker.isTestFile path) = false ∧
          ∃ content f, fs.readFile path = .ok content ∧ parser.parse path content = .ok f ∧
            f.HasTooLong (i.options.resolve fs).settings) ∧
      (outcome.exit? ≠ some 1 → outcome.exit? = some 0)) ∧
    ∀ arguments' i' paths', Invocation.ofArguments arguments' = .ok i' → i'.action = .check paths' →
      i'.options.config = i.options.config → i'.options.lineLimit = i.options.lineLimit →
      i'.options.warningLineLimit = i.options.warningLineLimit →
      i'.options.ignoreTests = i.options.ignoreTests →
      (∀ path, (∃ file ∈ j.filesAt fs path, j.Concerns fs file) → (path ∈ paths' ↔ path ∈ paths)) →
      (runWith parser fs arguments').exit? = outcome.exit? := by
  intro j outcome
  have heq : outcome.exit? = if fs.waits i.options.config ||
      (j.files fs paths).any (j.checker.waits fs j.ignoreTests) then none
      else some (if (j.run fs paths).tooLong then 1 else 0) := exit?_check_eq parser fs hi hcheck
  refine ⟨?_, fun hends => ?_, ?_⟩
  · rw [heq, ← List.any_eq_true, ← Bool.or_eq_true]
    refine ⟨fun hnone => by_contra fun hnot => ?_, fun hwaits => if_pos hwaits⟩
    cases (if_neg hnot).symm.trans hnone
  · have hgoes : outcome.exit? = some (if (j.run fs paths).tooLong then 1 else 0) := by
      rw [heq] at hends ⊢
      exact if_neg fun hwaits => hends (if_pos hwaits)
    rw [hgoes]
    constructor
    · have hlong : some (if (j.run fs paths).tooLong then 1 else 0) = some 1 ↔ (j.run fs paths).tooLong = true := by
        cases (j.run fs paths).tooLong <;> simp
      rw [hlong, Job.tooLong_run_iff]
      constructor
      · rintro ⟨file, hfile, f, hs, hf⟩
        obtain ⟨hskip, content, hread, hparse⟩ := (Checker.source?_eq_some_iff ..).mp hs
        exact ⟨file, hfile, hskip, content, f, hread, hparse, hf⟩
      · rintro ⟨file, hfile, hskip, content, f, hread, hparse, hf⟩
        exact ⟨file, hfile, f, (Checker.source?_eq_some_iff ..).mpr ⟨hskip, content, hread, hparse⟩, hf⟩
    · cases (j.run fs paths).tooLong <;> simp
  · intro arguments' i' paths' hi' hcheck' hconfig hline hwarning htests hpaths
    have hjob : i'.job parser fs = j.withOutput (i'.options.resolve fs).settings.output := by
      simp only [j]
      unfold Invocation.job Options.job
      rw [Options.settings_resolve_congr hconfig hline hwarning fs, htests]
      rfl
    have hwaits := Job.any_waits_eq hpaths
    have hlong := Job.tooLong_withOutput_run hpaths (i'.options.resolve fs).settings.output
    rw [heq, exit?_check_eq parser fs hi' hcheck', hjob, hconfig, hlong, ← hwaits]
    rfl

def threeLines : Parser where
  supports := (· = ".py")
  parse path _ := .ok ⟨path, [.function "f" 1 3 []]⟩

def oneFile : FileSystem where
  root := [("a.py", .file ByteArray.empty)]
  workingDirectory := "/"

theorem exit?_check_oneFile :
    (runWith threeLines oneFile ["--line_limit=3", "--warning_line_limit=2", "a.py", "b.py", "a.py"]).exit? = some 1 ∧
      (runWith threeLines oneFile ["a.py", "--disable_output", "--line_limit=3", "--warning_line_limit=2"]).exit? =
        some 1 ∧
      (runWith threeLines oneFile ["--line_limit=4", "--warning_line_limit=2", "a.py"]).exit? = some 0 := by
  have hlong : Invocation.ofArguments ["--line_limit=3", "--warning_line_limit=2", "a.py", "b.py", "a.py"] =
      .ok ⟨.check ["a.py", "b.py", "a.py"], { lineLimit := some 3, warningLineLimit := some 2 }, 2⟩ := by
    decide +kernel
  have hshort : Invocation.ofArguments ["a.py", "--disable_output", "--line_limit=3", "--warning_line_limit=2"] =
      .ok ⟨.check ["a.py"], { lineLimit := some 3, warningLineLimit := some 2, disableOutput := some true }, 2⟩ := by
    decide +kernel
  have hhigh : Invocation.ofArguments ["--line_limit=4", "--warning_line_limit=2", "a.py"] =
      .ok ⟨.check ["a.py"], { lineLimit := some 4, warningLineLimit := some 2 }, 2⟩ := by decide +kernel
  have hmissing : ∀ j : Job, j.filesAt oneFile "b.py" = [] := by
    intro j
    have hstatus : (oneFile.status "b.py").isOk = false := by decide +kernel
    unfold Job.filesAt
    cases hb : oneFile.status "b.py" with
    | error e => rfl
    | ok entry => simp [hb, Except.isOk, Except.toBool] at hstatus
  obtain ⟨-, hone, hsame⟩ := exit?_check threeLines oneFile hlong rfl
  have hfails : (runWith threeLines oneFile
      ["--line_limit=3", "--warning_line_limit=2", "a.py", "b.py", "a.py"]).exit? = some 1 := by
    refine (hone (by decide +kernel)).1.mpr ⟨"a.py", by decide +kernel, rfl, ByteArray.empty, _, by rfl, rfl, ?_⟩
    exact ⟨⟨none, .function "f" 1 3 []⟩, List.mem_singleton_self _, "f", 1, 3, [], rfl, by decide +kernel,
      by decide +kernel⟩
  refine ⟨hfails, ?_, ?_⟩
  · rw [← hfails]
    refine hsame _ _ _ hshort rfl rfl rfl rfl rfl ?_
    rintro path ⟨file, hfile, -⟩
    have hne : path ≠ "b.py" := by
      rintro rfl
      simp [hmissing] at hfile
    simp [hne]
  · obtain ⟨-, hhighest, -⟩ := exit?_check threeLines oneFile hhigh rfl
    obtain ⟨hiff, hzero⟩ := hhighest (by decide +kernel)
    refine hzero fun hfailed => ?_
    obtain ⟨path, -, -, content, f, -, hparse, p, hp, name, first, last, body, hnode, -, hreaches⟩ := hiff.mp hfailed
    obtain rfl := Except.ok.inj hparse
    obtain rfl := List.mem_singleton.mp hp
    obtain ⟨-, rfl, rfl, -⟩ := Syntax.Declaration.function.inj hnode
    exact absurd hreaches (by decide +kernel)

def pipeFile : FileSystem where
  root := [("d", .directory [("x.py", .special .endless)])]
  workingDirectory := "/"

/-- A check of a directory with a pipe does not end, though the pipe is no regular file. -/
theorem exit?_pipeFile :
    Invocation.ofArguments ["d"] = .ok ⟨.check ["d"], {}, 2⟩ ∧ (run pipeFile ["d"]).exit? = none ∧
      (run pipeFile ["d/x.py"]).exit? = some 0 :=
  ⟨by decide +kernel, by decide +kernel, by decide +kernel⟩

end FunctionLength.CommandLine
