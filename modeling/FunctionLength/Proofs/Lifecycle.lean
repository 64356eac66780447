import FunctionLength.Proofs.Execution
import FunctionLength.Proofs.Resolution
import FunctionLength.Watch.Session

namespace FunctionLength.Watch

def Supply.Works (supply : Supply) (i : Nat) : Prop :=
  supply.createError i = none ∧ supply.startError i = none

/-- How far one gets with watchers for some roots, the first of which has the number `i`: how many are made,
and why there is none for the next root or the last one made does not watch. -/
inductive Outcome (supply : Supply) (i : Nat) (rs : List Root) : Nat → Option Cause → Prop
  | complete (works : ∀ k < rs.length, supply.Works (i + k)) : Outcome supply i rs rs.length none
  | notCreated {n : Nat} {r : Root} {reason : String} (works : ∀ k < n, supply.Works (i + k))
      (root : rs[n]? = some r) (create : supply.createError (i + n) = some reason) :
      Outcome supply i rs n (some (.setUp r.display reason))
  | notStarted {n : Nat} {r : Root} {reason : String} (works : ∀ k < n, supply.Works (i + k))
      (root : rs[n]? = some r) (create : supply.createError (i + n) = none)
      (start : supply.startError (i + n) = some reason) :
      Outcome supply i rs (n + 1) (some (.setUp r.display reason))

def startCalls : (i : Nat) → List Root → List Call
  | _, [] => []
  | i, r :: rest => .create i :: .start i r.absolute :: startCalls (i + 1) rest

def stopCalls (n : Nat) : List Call := (List.range n).map .stop

def stopCauses (supply : Supply) (n : Nat) : List Cause :=
  (List.range n).filterMap fun i => (supply.stopError i).map (.stop i)

theorem works_cons {supply : Supply} {i n : Nat} (h : supply.Works i)
    (hrest : ∀ k < n, supply.Works (i + 1 + k)) : ∀ k < n + 1, supply.Works (i + k) := by
  intro k hk
  cases k with
  | zero => exact h
  | succ k =>
    have hworks := hrest k (by omega)
    rwa [Nat.add_right_comm] at hworks

theorem Outcome.cons {supply : Supply} {i n : Nat} {rs : List Root} {failure : Option Cause} (r : Root)
    (h : supply.Works i) (hrest : Outcome supply (i + 1) rs n failure) :
    Outcome supply i (r :: rs) (n + 1) failure := by
  cases hrest with
  | complete works => exact .complete (works_cons h works)
  | notCreated works root create =>
    exact .notCreated (works_cons h works) root (by rwa [Nat.add_right_comm] at create)
  | notStarted works root create start =>
    exact .notStarted (works_cons h works) root (by rwa [Nat.add_right_comm] at create)
      (by rwa [Nat.add_right_comm] at start)

theorem outcome_setUp (supply : Supply) (i : Nat) (rs : List Root) :
    ∃ n, Outcome supply i rs n (setUp supply i rs).failure ∧ (setUp supply i rs).created = i + n ∧
      (setUp supply i rs).calls = startCalls i (rs.take n) := by
  induction rs generalizing i with
  | nil => exact ⟨0, .complete (by simp), rfl, rfl⟩
  | cons r rest ih =>
    cases hcreate : supply.createError i with
    | some reason =>
      refine ⟨0, ?_, by simp [setUp, hcreate], by simp [setUp, hcreate, startCalls]⟩
      simp only [setUp, hcreate]
      exact .notCreated (by simp) rfl hcreate
    | none =>
      cases hstart : supply.startError i with
      | some reason =>
        refine ⟨1, ?_, by simp [setUp, hcreate, hstart], by simp [setUp, hcreate, hstart, startCalls]⟩
        simp only [setUp, hcreate, hstart]
        exact .notStarted (by simp) rfl hcreate hstart
      | none =>
        obtain ⟨n, houtcome, hcreated, hcalls⟩ := ih (i + 1)
        refine ⟨n + 1, ?_, ?_, ?_⟩
        · simp only [setUp, hcreate, hstart]
          exact houtcome.cons r ⟨hcreate, hstart⟩
        · simp only [setUp, hcreate, hstart, hcreated]
          omega
        · simp [setUp, hcreate, hstart, hcalls, startCalls]

/-- Nothing failed just if all watchers could be made and started. -/
theorem Outcome.eq_none_iff {supply : Supply} {rs : List Root} {n : Nat} {failure : Option Cause}
    (h : Outcome supply 0 rs n failure) :
    failure = none ↔ ∀ i < rs.length, supply.Works i := by
  cases h with
  | complete works => simpa using works
  | @notCreated n r reason works root create =>
    simp only [reduceCtorEq, false_iff]
    intro hall
    have hlt : n < rs.length := (List.getElem?_eq_some_iff.mp root).1
    have hworks := (hall n hlt).1
    simp [hworks] at create
  | @notStarted n r reason works root create start =>
    simp only [reduceCtorEq, false_iff]
    intro hall
    have hlt : n < rs.length := (List.getElem?_eq_some_iff.mp root).1
    have hworks := (hall n hlt).2
    simp [hworks] at start

theorem Outcome.eq_length {supply : Supply} {rs : List Root} {n : Nat} {failure : Option Cause}
    (h : Outcome supply 0 rs n failure) (hnone : failure = none) : n = rs.length := by
  cases h with
  | complete works => rfl
  | notCreated works root create => contradiction
  | notStarted works root create start => contradiction

theorem Outcome.le_length {supply : Supply} {i : Nat} {rs : List Root} {n : Nat} {failure : Option Cause}
    (h : Outcome supply i rs n failure) : n ≤ rs.length := by
  cases h with
  | complete works => exact Nat.le_refl _
  | notCreated works root create => exact Nat.le_of_lt (List.getElem?_eq_some_iff.mp root).1
  | notStarted works root create start => exact (List.getElem?_eq_some_iff.mp root).1

theorem Outcome.ne_noPaths {supply : Supply} {i : Nat} {rs : List Root} {n : Nat} {failure : Option Cause}
    (h : Outcome supply i rs n failure) : .noPaths ∉ failure.toList := by
  cases h <;> simp

theorem noPaths_not_mem_stopCauses (supply : Supply) (n : Nat) : .noPaths ∉ stopCauses supply n := by
  simp [stopCauses]

theorem count_create_startCalls (i k : Nat) (rs : List Root) :
    (startCalls i rs).count (.create k) = if i ≤ k ∧ k < i + rs.length then 1 else 0 := by
  induction rs generalizing i with
  | nil =>
    rw [if_neg (by simp only [List.length_nil]; omega)]
    rfl
  | cons r rest ih =>
    rw [startCalls, List.count_cons, List.count_cons, ih]
    by_cases hk : i = k
    · subst hk
      rw [if_neg (by omega : ¬ (i + 1 ≤ i ∧ i < i + 1 + rest.length))]
      simp
    · have hne : (Call.create i == Call.create k) = false := by simpa using hk
      have hiff : (i + 1 ≤ k ∧ k < i + 1 + rest.length) ↔ (i ≤ k ∧ k < i + (r :: rest).length) := by
        simp only [List.length_cons]
        omega
      simp only [hne, hiff]
      simp

theorem count_stop_startCalls (i k : Nat) (rs : List Root) : (startCalls i rs).count (.stop k) = 0 := by
  induction rs generalizing i with
  | nil => rfl
  | cons r rest ih =>
    rw [startCalls, List.count_cons, List.count_cons, ih]
    simp

theorem count_create_stopCalls (n k : Nat) : (stopCalls n).count (.create k) = 0 := by
  apply List.count_eq_zero.mpr
  simp [stopCalls]

theorem count_stop_stopCalls (n k : Nat) : (stopCalls n).count (.stop k) = if k < n then 1 else 0 := by
  induction n with
  | zero => rfl
  | succ n ih =>
    have hsucc : stopCalls (n + 1) = stopCalls n ++ [.stop n] := by simp [stopCalls, List.range_succ]
    rw [hsucc, List.count_append, ih]
    by_cases hk : k = n
    · subst hk
      simp
    · have hne : (Call.stop n == Call.stop k) = false := by simpa using fun h => hk h.symm
      have hiff : k < n + 1 ↔ k < n := by omega
      simp [List.count_cons, hne, hiff]

section Outcome

variable {supply : Supply} {rs : List Root} {n : Nat} {failure : Option Cause} (h : Outcome supply 0 rs n failure)
include h

theorem Outcome.count_stop (i : Nat) :
    (startCalls 0 (rs.take n) ++ stopCalls n).count (.stop i) =
      if .create i ∈ startCalls 0 (rs.take n) ++ stopCalls n then 1 else 0 := by
  have hlength : (rs.take n).length = n := List.length_take_of_le h.le_length
  have hcreate : (startCalls 0 (rs.take n) ++ stopCalls n).count (.create i) = if i < n then 1 else 0 := by
    rw [List.count_append, count_create_startCalls, count_create_stopCalls, hlength]
    simp
  have hmem : .create i ∈ startCalls 0 (rs.take n) ++ stopCalls n ↔ i < n := by
    rw [← List.count_pos_iff, hcreate]
    split <;> simp_all
  rw [List.count_append, count_stop_startCalls, count_stop_stopCalls, Nat.zero_add]
  simp only [hmem]

theorem Outcome.causes_ne_noPaths : failure.toList ++ stopCauses supply n ≠ [.noPaths] := by
  intro heq
  have hmem : Cause.noPaths ∈ failure.toList ++ stopCauses supply n := by simp [heq]
  exact (List.mem_append.mp hmem).elim h.ne_noPaths (noPaths_not_mem_stopCauses supply n)

theorem Outcome.causes_eq_nil_iff :
    failure.toList ++ stopCauses supply n = [] ↔
      ∀ i < rs.length, supply.Works i ∧ supply.stopError i = none := by
  rw [List.append_eq_nil_iff, Option.toList_eq_nil_iff, stopCauses, List.filterMap_eq_nil_iff]
  constructor
  · rintro ⟨hfailure, hstop⟩ i hi
    rw [h.eq_length hfailure] at hstop
    exact ⟨h.eq_none_iff.mp hfailure i hi, by simpa using hstop i (List.mem_range.mpr hi)⟩
  · intro hall
    have hfailure := h.eq_none_iff.mpr fun i hi => (hall i hi).1
    refine ⟨hfailure, fun i hi => ?_⟩
    rw [h.eq_length hfailure, List.mem_range] at hi
    simp [(hall i hi).2]

end Outcome

theorem Session.error_eq_none_iff (s : Session) : s.error = none ↔ s.causes = [] := by
  unfold error
  split <;> simp_all

theorem Session.text_of_error {s : Session} {text : String} (h : s.error = some text) :
    text = "\n".intercalate (s.causes.map Cause.text) := by
  unfold error at h
  split at h
  · contradiction
  · exact (Option.some.inj h).symm

theorem merge_ne_nil (new : Root) (rs : List Root) : merge new rs ≠ [] := by
  cases rs with
  | nil => simp [merge]
  | cons r rest =>
    rw [merge]
    split <;> simp

theorem absolute?_directory_eq_none_iff {fs : FileSystem} {path : String} :
    fs.absolute? (Path.directory path) = none ↔ fs.absolute? path = none := by
  rw [FileSystem.absolute?_eq, FileSystem.absolute?_eq, Path.isAbsolute_directory]
  split <;> simp

/-- An argument has no root if it cannot be found, or if it is relative and the working directory has no path. -/
theorem root?_eq_none_iff (fs : FileSystem) (path : String) :
    root? fs path = none ↔ (∃ e, fs.status path = .error e) ∨ fs.absolute? path = none := by
  unfold root?
  cases fs.status path with
  | error e => simp
  | ok entry => cases entry <;> simp [absolute?_directory_eq_none_iff]

theorem roots_eq_nil_iff (fs : FileSystem) (paths : List String) :
    roots fs paths = [] ↔ ∀ path ∈ paths, (∃ e, fs.status path = .error e) ∨ fs.absolute? path = none := by
  have hfold : ∀ (new rs : List Root), new.foldl (fun rs r => merge r rs) rs = [] → new = [] ∧ rs = [] := by
    intro new
    induction new with
    | nil => exact fun rs h => ⟨rfl, h⟩
    | cons r new ih => exact fun rs h => absurd (ih (merge r rs) h).2 (merge_ne_nil r rs)
  simp only [← root?_eq_none_iff, ← List.filterMap_eq_nil_iff]
  constructor
  · exact fun h => (hfold _ _ h).1
  · exact fun h => by simp [roots, h]

theorem absolute?_ne_none {fs : FileSystem} (h : fs.workingPath.isSome = true) (path : String) :
    fs.absolute? path ≠ none := by
  simp [FileSystem.absolute?_eq, h]

end FunctionLength.Watch

namespace FunctionLength.Job
open FunctionLength.Watch

section Session

variable {j : Job} {fs : FileSystem} {supply : Supply} {paths : List String}

theorem watch_of_execute {a : Analysis} (h : j.execute fs paths = .ok a) (supply : Supply) (steps : List Step) :
    j.watch fs supply paths steps = j.watchAfter a fs supply paths steps := by
  rw [watch, h]

theorem stuck_watchAfter (j : Job) (a : Analysis) (fs : FileSystem) (supply : Supply) (paths : List String)
    (steps : List Step) : (j.watchAfter a fs supply paths steps).stuck = false := by
  unfold watchAfter
  cases roots fs paths <;> rfl

theorem stuck_watch_iff (j : Job) (fs : FileSystem) (supply : Supply) (paths : List String) (steps : List Step) :
    (j.watch fs supply paths steps).stuck = true ↔
      ∃ file ∈ j.files fs paths, j.checker.waits fs j.ignoreTests file = true := by
  have hreaches := j.reaches_execute fs paths
  unfold watch
  cases hexecute : j.execute fs paths with
  | ok a =>
    rw [hexecute] at hreaches
    simp only [stuck_watchAfter, Bool.false_eq_true, false_iff, not_exists, not_and, Bool.not_eq_true]
    exact hreaches.waits_eq_false
  | error a =>
    rw [hexecute] at hreaches
    obtain ⟨before, rest, file, heq, -, hfile, -⟩ := hreaches.exists_waits
    simp only [true_iff]
    exact ⟨file, by simp [heq], hfile⟩

theorem watch_of_not_stuck {steps : List Step} (h : (j.watch fs supply paths steps).stuck = false) :
    j.watch fs supply paths steps = j.watchAfter (j.run fs paths) fs supply paths steps := by
  cases hexecute : j.execute fs paths with
  | ok a => rw [watch_of_execute hexecute, execute_eq_ok hexecute]
  | error a =>
    rw [watch, hexecute] at h
    contradiction

theorem watchAfter_of_roots (j : Job) (a : Analysis) (supply : Supply) (steps : List Step)
    (h : roots fs paths ≠ []) :
    ∃ n failure, Outcome supply 0 (roots fs paths) n failure ∧
      (j.watchAfter a fs supply paths steps).calls = startCalls 0 ((roots fs paths).take n) ++ stopCalls n ∧
      (j.watchAfter a fs supply paths steps).causes = failure.toList ++ stopCauses supply n := by
  obtain ⟨n, houtcome, hcreated, hcalls⟩ := outcome_setUp supply 0 (roots fs paths)
  refine ⟨n, _, houtcome, ?_, ?_⟩
  · unfold watchAfter
    cases hroots : roots fs paths with
    | nil => exact absurd hroots h
    | cons r rs =>
      rw [hroots] at hcreated hcalls
      simp only [hcreated, hcalls, Nat.zero_add]
      rfl
  · unfold watchAfter
    cases hroots : roots fs paths with
    | nil => exact absurd hroots h
    | cons r rs =>
      rw [hroots] at hcreated
      simp only [hcreated, Nat.zero_add]
      rfl

theorem responses_watchAfter (j : Job) (a : Analysis) (steps : List Step)
    (h : ∀ i < (roots fs paths).length, supply.Works i) (hne : roots fs paths ≠ []) :
    (j.watchAfter a fs supply paths steps).responses = j.respond (roots fs paths) steps fs := by
  obtain ⟨n, houtcome, -, -⟩ := outcome_setUp supply 0 (roots fs paths)
  have hfailure := houtcome.eq_none_iff.mpr h
  unfold watchAfter
  cases hroots : roots fs paths with
  | nil => exact absurd hroots hne
  | cons r rs =>
    rw [hroots] at hfailure
    simp [hfailure]

theorem watchAfter_of_no_roots (j : Job) (a : Analysis) (supply : Supply) (steps : List Step)
    (h : roots fs paths = []) :
    (j.watchAfter a fs supply paths steps).calls = [] ∧
      (j.watchAfter a fs supply paths steps).causes = [.noPaths] := by
  unfold watchAfter
  rw [h]
  exact ⟨rfl, rfl⟩

end Session

def twoDirectories : FileSystem where
  root := [("a", .directory []), ("b", .directory [])]
  workingDirectory := "/"

def failingSupply : Supply where
  startError i := if i = 1 then some "in use" else none
  stopError _ := some "closed"

end FunctionLength.Job
