import FunctionLength.Proofs.Runs

namespace FunctionLength.Checker
open FunctionLength.Analysis FunctionLength.FileSystem

/-- The second analysis comes from the first by the analysis of files in turn, and apart from these only by
records in the log. -/
inductive Analyzes (c : Checker) (fs : FileSystem) (ignoreTests : Bool) :
    List String → Analysis → Analysis → Prop
  | done (a : Analysis) : Analyzes c fs ignoreTests [] a a
  | file {path : String} {files : List String} {a b : Analysis} :
    Analyzes c fs ignoreTests files (c.addFile fs ignoreTests path a) b →
      Analyzes c fs ignoreTests (path :: files) a b
  | record {files : List String} {a b : Analysis} (level : Log.Level) (message : String)
      (fields : List (String × Log.Field)) :
    Analyzes c fs ignoreTests files (a.record level message fields) b → Analyzes c fs ignoreTests files a b

/-- How far the analysis of files in turn gets: to its end, or to the first file that is waited for. -/
inductive Reaches (c : Checker) (fs : FileSystem) (ignoreTests : Bool) (files : List String) (a : Analysis) :
    Except Analysis Analysis → Prop
  | finished {b : Analysis} (hfiles : ∀ file ∈ files, c.waits fs ignoreTests file = false)
      (h : Analyzes c fs ignoreTests files a b) : Reaches c fs ignoreTests files a (.ok b)
  | stuck {before rest : List String} {file : String} {b : Analysis} (heq : files = before ++ file :: rest)
      (hbefore : ∀ f ∈ before, c.waits fs ignoreTests f = false) (hfile : c.waits fs ignoreTests file = true)
      (h : Analyzes c fs ignoreTests before a b) : Reaches c fs ignoreTests files a (.error b)

variable {c : Checker} {fs : FileSystem} {ignoreTests : Bool} {files others : List String} {a b d : Analysis}

theorem Analyzes.append (h : Analyzes c fs ignoreTests files a b) (h' : Analyzes c fs ignoreTests others b d) :
    Analyzes c fs ignoreTests (files ++ others) a d := by
  induction h with
  | done a => exact h'
  | file _ ih => exact .file (ih h')
  | record level message fields _ ih => exact .record level message fields (ih h')

theorem analyzes_addVisit (c : Checker) (fs : FileSystem) (ignoreTests : Bool) (a : Analysis) (v : Visit) :
    Analyzes c fs ignoreTests (c.file? v).toList a (c.addVisit fs ignoreTests a v) := by
  cases v with
  | found path =>
    by_cases hs : c.parser.supports (Path.extension path) = true
    · rw [file?, addVisit, if_pos hs, if_pos hs]
      exact .file (.done _)
    · rw [file?, addVisit, if_neg hs, if_neg hs]
      exact .done a
  | pruned path => exact .record _ _ _ (.done _)
  | unreadable path e => exact .record _ _ _ (.done _)

theorem analyzes_foldl {β : Type} {step : Analysis → β → Analysis} {filesOf : β → List String}
    (h : ∀ a x, Analyzes c fs ignoreTests (filesOf x) a (step a x)) (xs : List β) (a : Analysis) :
    Analyzes c fs ignoreTests (xs.flatMap filesOf) a (xs.foldl step a) := by
  induction xs generalizing a with
  | nil => exact .done a
  | cons x xs ih => exact (h a x).append (ih _)

theorem filesBelow_eq_flatMap (c : Checker) (fs : FileSystem) (root : String) :
    c.filesBelow fs root = (fs.walk c.ignoresDirectory root).flatMap fun v => (c.file? v).toList :=
  List.filterMap_eq_flatMap_toList ..

theorem analyzes_addDirectory (c : Checker) (fs : FileSystem) (ignoreTests : Bool) (root : String)
    (a : Analysis) :
    Analyzes c fs ignoreTests (c.filesBelow fs root) a (c.addDirectory fs ignoreTests root a) := by
  rw [filesBelow_eq_flatMap]
  exact analyzes_foldl (c.analyzes_addVisit fs ignoreTests) _ a

/-- What comes after a row of files is reached only from its end. -/
theorem Reaches.bind {x : Except Analysis Analysis} {next : Analysis → Except Analysis Analysis}
    (h : Reaches c fs ignoreTests files a x)
    (hnext : ∀ b, x = .ok b → Reaches c fs ignoreTests others b (next b)) :
    Reaches c fs ignoreTests (files ++ others) a (x >>= next) := by
  cases h with
  | finished hfiles hanalyzes =>
    generalize hy : next _ = y
    have hrest := hnext _ rfl
    rw [hy] at hrest
    have heq : (Except.ok _ >>= next) = y := hy
    rw [heq]
    cases hrest with
    | finished hothers hmore =>
      exact .finished (fun f hf => (List.mem_append.mp hf).elim (hfiles f) (hothers f)) (hanalyzes.append hmore)
    | stuck hsplit hbefore hfile hmore =>
      refine .stuck (by rw [hsplit, List.append_assoc]) ?_ hfile (hanalyzes.append hmore)
      exact fun f hf => (List.mem_append.mp hf).elim (hfiles f) (hbefore f)
  | stuck hsplit hbefore hfile hanalyzes =>
    exact .stuck (by rw [hsplit, List.append_assoc, List.cons_append]) hbefore hfile hanalyzes

theorem reaches_foldlM {β : Type} {step : Analysis → β → Except Analysis Analysis} {filesOf : β → List String}
    (h : ∀ a x, Reaches c fs ignoreTests (filesOf x) a (step a x)) (xs : List β) (a : Analysis) :
    Reaches c fs ignoreTests (xs.flatMap filesOf) a (xs.foldlM step a) := by
  induction xs generalizing a with
  | nil => exact .finished (by simp) (.done a)
  | cons x xs ih =>
    rw [List.flatMap_cons, List.foldlM_cons]
    exact (h a x).bind fun b _ => ih b

theorem reaches_tryVisit (c : Checker) (fs : FileSystem) (ignoreTests : Bool) (a : Analysis) (v : Visit) :
    Reaches c fs ignoreTests (c.file? v).toList a (c.tryVisit fs ignoreTests a v) := by
  have hvisit := c.analyzes_addVisit fs ignoreTests a v
  cases v with
  | found path =>
    rw [tryVisit]
    rw [file?] at hvisit ⊢
    cases hsupports : c.parser.supports (Path.extension path) with
    | false =>
      rw [hsupports] at hvisit
      exact .finished (by simp) hvisit
    | true =>
      rw [hsupports] at hvisit
      cases hwaits : c.waits fs ignoreTests path with
      | false => exact .finished (by simpa using hwaits) hvisit
      | true => exact .stuck (List.nil_append _).symm (by simp) hwaits (.done a)
  | pruned path => exact .finished (by simp [file?]) hvisit
  | unreadable path e => exact .finished (by simp [file?]) hvisit

theorem reaches_tryDirectory (c : Checker) (fs : FileSystem) (ignoreTests : Bool) (root : String)
    (a : Analysis) :
    Reaches c fs ignoreTests (c.filesBelow fs root) a (c.tryDirectory fs ignoreTests root a) := by
  rw [filesBelow_eq_flatMap]
  exact reaches_foldlM (c.reaches_tryVisit fs ignoreTests) _ a

theorem foldlM_eq_ok {α β ε : Type} {step : α → β → Except ε α} {total : α → β → α}
    (h : ∀ {a x b}, step a x = .ok b → b = total a x) {xs : List β} {a b : α}
    (hok : xs.foldlM step a = .ok b) : b = xs.foldl total a := by
  induction xs generalizing a with
  | nil => exact (Except.ok.inj hok).symm
  | cons x xs ih =>
    rw [List.foldlM_cons] at hok
    cases hx : step a x with
    | error e =>
      rw [hx] at hok
      cases hok
    | ok next =>
      rw [hx] at hok
      rw [List.foldl_cons, ← h hx]
      exact ih hok

theorem tryVisit_eq_ok {v : Visit} (h : c.tryVisit fs ignoreTests a v = .ok b) :
    b = c.addVisit fs ignoreTests a v := by
  unfold tryVisit at h
  split at h
  · split at h
    · cases h
    · exact (Except.ok.inj h).symm
  · exact (Except.ok.inj h).symm

theorem tryDirectory_eq_ok {root : String} (h : c.tryDirectory fs ignoreTests root a = .ok b) :
    b = c.addDirectory fs ignoreTests root a :=
  foldlM_eq_ok tryVisit_eq_ok h

theorem Reaches.exists_ok {x : Except Analysis Analysis} (h : Reaches c fs ignoreTests files a x)
    (hfiles : ∀ file ∈ files, c.waits fs ignoreTests file = false) : ∃ b, x = .ok b := by
  cases h with
  | finished _ _ => exact ⟨_, rfl⟩
  | @stuck before rest file b heq _ hfile _ =>
    have hfree := hfiles file (by simp [heq])
    rw [hfile] at hfree
    contradiction

theorem Reaches.exists_waits (h : Reaches c fs ignoreTests files a (.error b)) :
    ∃ before rest file, files = before ++ file :: rest ∧ (∀ f ∈ before, c.waits fs ignoreTests f = false) ∧
      c.waits fs ignoreTests file = true ∧ Analyzes c fs ignoreTests before a b := by
  cases h with
  | stuck heq hbefore hfile h => exact ⟨_, _, _, heq, hbefore, hfile, h⟩

theorem Reaches.waits_eq_false (h : Reaches c fs ignoreTests files a (.ok b)) :
    ∀ file ∈ files, c.waits fs ignoreTests file = false := by
  cases h with
  | finished hfiles _ => exact hfiles

end FunctionLength.Checker

namespace FunctionLength.Job
open FunctionLength.FileSystem FunctionLength.Checker

theorem analyzes_addPath (j : Job) (fs : FileSystem) (a : Analysis) (path : String) :
    Analyzes j.checker fs j.ignoreTests (j.filesAt fs path) a (j.addPath fs a path) := by
  unfold filesAt addPath
  cases fs.status path with
  | error e => exact .record _ _ _ (.done _)
  | ok e =>
    cases e with
    | directory inner => exact j.checker.analyzes_addDirectory fs j.ignoreTests path a
    | file content => exact .file (.done _)
    | link target => exact .record _ _ _ (.done _)
    | special reading => exact .record _ _ _ (.done _)

theorem analyzes_conclude {c : Checker} {fs : FileSystem} {ignoreTests : Bool} {files : List String}
    {a b : Analysis} (h : Analyzes c fs ignoreTests files a b) : Analyzes c fs ignoreTests files a (conclude b) := by
  rw [← List.append_nil files]
  exact h.append (.record _ _ _ (.done _))

theorem analyzes_run (j : Job) (fs : FileSystem) (paths : List String) :
    Analyzes j.checker fs j.ignoreTests (j.files fs paths) {} (j.run fs paths) :=
  analyzes_conclude (analyzes_foldl (j.analyzes_addPath fs) paths {})

theorem waits_of_status {fs : FileSystem} {path : String} {content : ByteArray}
    (h : fs.status path = .ok (.file content)) (c : Checker) (ignoreTests : Bool) :
    c.waits fs ignoreTests path = false := by
  rw [status] at h
  rw [Checker.waits, FileSystem.waits]
  split at h
  · rename_i hpath
    rw [hpath, Except.ok.inj h, Bool.and_false]
  · cases h

theorem reaches_tryPath (j : Job) (fs : FileSystem) (a : Analysis) (path : String) :
    Reaches j.checker fs j.ignoreTests (j.filesAt fs path) a (j.tryPath fs a path) := by
  have hpath := j.analyzes_addPath fs a path
  unfold tryPath
  unfold filesAt at hpath ⊢
  cases hstatus : fs.status path with
  | error e =>
    simp only [hstatus] at hpath
    exact .finished (by simp) hpath
  | ok e =>
    simp only [hstatus] at hpath
    cases e with
    | directory inner => exact j.checker.reaches_tryDirectory fs j.ignoreTests path a
    | file content => exact .finished (by simpa using waits_of_status hstatus j.checker j.ignoreTests) hpath
    | link target => exact .finished (by simp) hpath
    | special reading => exact .finished (by simp) hpath

theorem reaches_execute (j : Job) (fs : FileSystem) (paths : List String) :
    Reaches j.checker fs j.ignoreTests (j.files fs paths) {} (j.execute fs paths) := by
  have h := reaches_foldlM (j.reaches_tryPath fs) paths {}
  unfold execute files
  generalize paths.foldlM (j.tryPath fs) {} = x at h
  cases h with
  | finished hfiles h => exact .finished hfiles (analyzes_conclude h)
  | stuck heq hbefore hfile h => exact .stuck heq hbefore hfile h

theorem tryPath_eq_ok {j : Job} {fs : FileSystem} {a b : Analysis} {path : String}
    (h : j.tryPath fs a path = .ok b) : b = j.addPath fs a path := by
  unfold tryPath at h
  split at h
  · rename_i hstatus
    rw [addPath, hstatus]
    exact tryDirectory_eq_ok h
  · exact (Except.ok.inj h).symm

theorem execute_eq_ok {j : Job} {fs : FileSystem} {paths : List String} {a : Analysis}
    (h : j.execute fs paths = .ok a) : a = j.run fs paths := by
  unfold execute at h
  cases hfold : paths.foldlM (j.tryPath fs) {} with
  | error b =>
    rw [hfold] at h
    cases h
  | ok b =>
    rw [hfold] at h
    rw [run, ← foldlM_eq_ok tryPath_eq_ok hfold]
    exact (Except.ok.inj h).symm

theorem execute_eq_run_iff {j : Job} {fs : FileSystem} {paths : List String} :
    j.execute fs paths = .ok (j.run fs paths) ↔
      ∀ file ∈ j.files fs paths, j.checker.waits fs j.ignoreTests file = false := by
  have hreaches := j.reaches_execute fs paths
  constructor
  · intro h
    rw [h] at hreaches
    exact hreaches.waits_eq_false
  · intro h
    obtain ⟨a, ha⟩ := hreaches.exists_ok h
    rw [ha, execute_eq_ok ha]

def plainJob : Job where
  checker := { settings := .builtIn, parser := { supports := (· = ".py"), parse := fun path _ => .ok ⟨path, []⟩ } }
  ignoreTests := false

end FunctionLength.Job
