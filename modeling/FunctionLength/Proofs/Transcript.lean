import FunctionLength.Proofs.Consistency

namespace FunctionLength.Analysis
open FunctionLength.Syntax

inductive Event where
  | found (f : Finding)
  | invalid (path : String) (e : SyntaxError)
  deriving DecidableEq, Repr

namespace Event

def text : Event → String
  | found f => f.text ++ "\n"
  | invalid path e => "The file '" ++ path ++ "' has errors " ++ e.text ++ ".\n"

def file : Event → String
  | found f => f.file
  | invalid path _ => path

def finding? : Event → Option Finding
  | found f => some f
  | invalid _ _ => none

def syntaxError? : Event → Option (String × SyntaxError)
  | found _ => none
  | invalid path e => some (path, e)

def isInvalid : Event → Bool
  | found _ => false
  | invalid _ _ => true

def isPrinted (s : Settings) (e : Event) : Bool := s.output || e.isInvalid

@[simp] theorem file_found (f : Finding) : (found f).file = f.file := rfl

@[simp] theorem file_invalid (path : String) (e : SyntaxError) : (invalid path e).file = path := rfl

@[simp] theorem finding?_found (f : Finding) : (found f).finding? = some f := rfl

@[simp] theorem finding?_invalid (path : String) (e : SyntaxError) : (invalid path e).finding? = none := rfl

@[simp] theorem filterMap_finding?_found (fs : List Finding) : (fs.map found).filterMap finding? = fs := by
  rw [List.filterMap_map]
  exact List.filterMap_some

@[simp] theorem filterMap_syntaxError?_found (fs : List Finding) :
    (fs.map found).filterMap syntaxError? = [] := by
  simp [List.filterMap_map, Function.comp_def, syntaxError?]

end Event

/-- An analysis comes out of another one by what came up: findings are added, and what has a line is written. -/
structure Told (s : Settings) (events : List Event) (a b : Analysis) : Prop where
  findings : b.findings = a.findings ++ events.filterMap Event.finding?
  output : b.output = a.output ++ (events.filter (Event.isPrinted s)).map Event.text

namespace Told

variable {s : Settings} {xs ys : List Event} {a b c : Analysis}

theorem refl (s : Settings) (a : Analysis) : Told s [] a a := ⟨by simp, by simp⟩

theorem trans (hab : Told s xs a b) (hbc : Told s ys b c) : Told s (xs ++ ys) a c :=
  ⟨by simp [hbc.findings, hab.findings], by simp [hbc.output, hab.output]⟩

theorem record (h : Told s xs a b) (level : Log.Level) (message : String)
    (fields : List (String × Log.Field)) : Told s xs a (b.record level message fields) :=
  ⟨h.findings, h.output⟩

theorem of_unlogged (h : Told s xs a b) (heq : c.unlogged = b.unlogged) : Told s xs a c :=
  ⟨(congrArg Analysis.findings heq).trans h.findings, (congrArg Analysis.output heq).trans h.output⟩

theorem drop_findings {fs : List Finding} (h : Told s (fs.map .found) a b) :
    b.findings.drop a.findings.length = fs := by
  rw [h.findings, Event.filterMap_finding?_found, List.drop_left]

end Told

theorem report_log (s : Settings) (f : Finding) (a : Analysis) : (a.report s f).log = a.log := by
  unfold report; split <;> rfl

theorem told_report (s : Settings) (f : Finding) (a : Analysis) : Told s [.found f] a (a.report s f) := by
  refine ⟨by simp, ?_⟩
  unfold report
  cases hs : s.output <;> simp [Event.isPrinted, Event.isInvalid, Event.text, hs, write]

theorem told_see (s : Settings) (a : Analysis) (x : Sighting) :
    ∃ fs : List Finding, Told s (fs.map .found) a (a.see s x) := by
  by_cases hseen : x.identity ∈ a.visited
  · rw [see_of_mem hseen]
    exact ⟨[], .refl s a⟩
  · rw [see_of_not_mem hseen]
    cases x.isLong s with
    | true =>
      have hreport := told_report s (x.finding s) { a with visited := x.identity :: a.visited }
      exact ⟨[x.finding s], hreport.findings, hreport.output⟩
    | false => exact ⟨[], (Told.refl s a).findings, (Told.refl s a).output⟩

theorem told_foldl_see (s : Settings) (xs : List Sighting) (a : Analysis) :
    ∃ fs : List Finding, Told s (fs.map .found) a (xs.foldl (see s) a) := by
  induction xs generalizing a with
  | nil => exact ⟨[], .refl s a⟩
  | cons x xs ih =>
    obtain ⟨fs, hfs⟩ := told_see s a x
    obtain ⟨gs, hgs⟩ := ih (a.see s x)
    refine ⟨fs ++ gs, ?_⟩
    rw [List.map_append]
    exact hfs.trans hgs

end FunctionLength.Analysis

namespace FunctionLength.Checker
open FunctionLength.Analysis FunctionLength.Syntax

def syntaxError? (c : Checker) (fs : FileSystem) (ignoreTests : Bool) (path : String) : Option SyntaxError :=
  if ignoreTests && c.isTestFile path then none
  else
    match fs.readFile path with
    | .error _ => none
    | .ok content =>
      match c.parser.parse path content with
      | .ok _ => none
      | .error e => e.syntaxError?

theorem told_addFile (c : Checker) (fs : FileSystem) (ignoreTests : Bool) (path : String) (a : Analysis) :
    match c.syntaxError? fs ignoreTests path with
    | some e => Told c.settings [.invalid path e] a (c.addFile fs ignoreTests path a)
    | none => ∃ found : List Finding, Told c.settings (found.map .found) a (c.addFile fs ignoreTests path a) := by
  unfold syntaxError? addFile
  cases ignoreTests && c.isTestFile path with
  | true => exact ⟨[], (Told.refl c.settings a).record ..⟩
  | false =>
    cases fs.readFile path with
    | error e => exact ⟨[], (Told.refl c.settings a).record ..⟩
    | ok content =>
      cases hparse : c.parser.parse path content with
      | ok f =>
        simp only [hparse, visitFile_eq_foldl]
        exact told_foldl_see c.settings f.sightings a
      | error e =>
        simp only [hparse]
        cases e.syntaxError? with
        | some error =>
          constructor
          · simp [write]
          · simp [Event.isPrinted, Event.isInvalid, Event.text, write]
        | none => exact ⟨[], (Told.refl c.settings a).record ..⟩

end FunctionLength.Checker

namespace FunctionLength.Analysis
open FunctionLength.Syntax

namespace Request

/-- The requests that one is made up of: a directory is asked for by its files. -/
def parts (s : Settings) : Request → List Request
  | directory fs parser ignoreTests path =>
    (Checker.filesBelow ⟨s, parser⟩ fs path).map (file fs parser ignoreTests)
  | r => [r]

def syntaxError? (s : Settings) : Request → Option (String × SyntaxError)
  | file fs parser ignoreTests path =>
    (Checker.syntaxError? ⟨s, parser⟩ fs ignoreTests path).map (path, ·)
  | _ => none

/-- What comes up with a request: the file that it asks for is not valid, or findings are added. -/
def events (s : Settings) (a : Analysis) (r : Request) : List Event :=
  match r.syntaxError? s with
  | some (path, e) => [.invalid path e]
  | none => ((r.perform s a).findings.drop a.findings.length).map .found

def IsPart : Request → Prop
  | directory .. => False
  | _ => True

theorem isPart_of_mem_parts {s : Settings} {r p : Request} (h : p ∈ r.parts s) : p.IsPart := by
  cases r with
  | function x =>
    rw [List.mem_singleton.mp h]
    trivial
  | file fs parser ignoreTests path =>
    rw [List.mem_singleton.mp h]
    trivial
  | directory fs parser ignoreTests path =>
    obtain ⟨file, -, rfl⟩ := List.mem_map.mp h
    trivial

theorem told_perform (s : Settings) (a : Analysis) {r : Request} (h : r.IsPart) :
    Told s (r.events s a) a (r.perform s a) := by
  cases r with
  | function x =>
    obtain ⟨fs, hfs⟩ := told_see s a x
    have hevents : events s a (function x) = fs.map .found := congrArg (List.map Event.found) hfs.drop_findings
    rw [hevents]
    exact hfs
  | file fs parser ignoreTests path =>
    have htold := Checker.told_addFile ⟨s, parser⟩ fs ignoreTests path a
    cases he : Checker.syntaxError? ⟨s, parser⟩ fs ignoreTests path with
    | some e =>
      rw [he] at htold
      simp only [events, syntaxError?, he, Option.map_some]
      exact htold
    | none =>
      rw [he] at htold
      obtain ⟨found, hfound⟩ := htold
      simp only [events, syntaxError?, he, Option.map_none]
      rw [perform, hfound.drop_findings]
      exact hfound
  | directory fs parser ignoreTests path => exact h.elim

theorem unlogged_perform (s : Settings) {a b : Analysis} (h : a.unlogged = b.unlogged) (r : Request) :
    (r.perform s a).unlogged = ((r.parts s).foldl (perform s) b).unlogged := by
  cases r with
  | function x =>
    change (a.see s x).unlogged = (b.see s x).unlogged
    rw [unlogged_see, unlogged_see, h]
  | file fs parser ignoreTests path => exact Checker.unlogged_addFile ⟨s, parser⟩ fs ignoreTests path h
  | directory fs parser ignoreTests path =>
    rw [parts, List.foldl_map]
    exact Checker.unlogged_foldl_addVisit ⟨s, parser⟩ fs ignoreTests _ h

end Request

def history (s : Settings) : Analysis → List Request → List Event
  | _, [] => []
  | a, r :: rest => r.events s a ++ history s (r.perform s a) rest

theorem told_history (s : Settings) (a : Analysis) {rs : List Request} (h : ∀ r ∈ rs, r.IsPart) :
    Told s (history s a rs) a (rs.foldl (Request.perform s) a) := by
  induction rs generalizing a with
  | nil => exact .refl s a
  | cons r rs ih =>
    have hr := Request.told_perform s a (h r List.mem_cons_self)
    exact hr.trans (ih (r.perform s a) fun p hp => h p (List.mem_cons_of_mem _ hp))

theorem filterMap_syntaxError?_history (s : Settings) (a : Analysis) (rs : List Request) :
    (history s a rs).filterMap Event.syntaxError? = rs.filterMap (Request.syntaxError? s) := by
  induction rs generalizing a with
  | nil => rfl
  | cons r rs ih =>
    rw [history, List.filterMap_append, ih, Request.events]
    cases h : r.syntaxError? s with
    | none => rw [List.filterMap_cons_none h, Event.filterMap_syntaxError?_found, List.nil_append]
    | some x => rw [List.filterMap_cons_some h]; rfl

theorem unlogged_foldl_perform (s : Settings) (requests : List Request) {a b : Analysis}
    (h : a.unlogged = b.unlogged) :
    (requests.foldl (Request.perform s) a).unlogged =
      ((requests.flatMap (Request.parts s)).foldl (Request.perform s) b).unlogged := by
  induction requests generalizing a b with
  | nil => exact h
  | cons r requests ih =>
    rw [List.flatMap_cons, List.foldl_append]
    exact ih (Request.unlogged_perform s h r)

theorem unlogged_after (s : Settings) (requests : List Request) :
    (after s requests).unlogged = (after s (requests.flatMap (Request.parts s))).unlogged :=
  unlogged_foldl_perform s requests rfl

theorem told_foldl_perform (s : Settings) (requests : List Request) (a : Analysis) :
    Told s (history s a (requests.flatMap (Request.parts s))) a (requests.foldl (Request.perform s) a) := by
  refine (told_history s a fun r hr => ?_).of_unlogged (unlogged_foldl_perform s requests rfl)
  obtain ⟨request, -, hr⟩ := List.mem_flatMap.mp hr
  exact Request.isPart_of_mem_parts hr

theorem told_after (s : Settings) (requests : List Request) :
    Told s (history s {} (requests.flatMap (Request.parts s))) {} (after s requests) :=
  told_foldl_perform s requests {}

structure Agrees (a b : Analysis) : Prop where
  visited : a.visited = b.visited
  findings : a.findings = b.findings
  tooLong : a.tooLong = b.tooLong
  log : a.log = b.log

section Agrees

variable (s : Settings) (output : Bool) {a b : Analysis} (h : Agrees a b)
include h

theorem Agrees.record (level : Log.Level) (message : String) (fields : List (String × Log.Field)) :
    Agrees (a.record level message fields) (b.record level message fields) :=
  ⟨h.visited, h.findings, h.tooLong, by simp [Analysis.record, h.log]⟩

theorem Agrees.write (text : String) : Agrees (a.write text) (b.write text) :=
  ⟨h.visited, h.findings, h.tooLong, h.log⟩

theorem agrees_report (f : Finding) : Agrees (a.report { s with output } f) (b.report s f) where
  visited := by simp [h.visited]
  findings := by simp [h.findings]
  tooLong := by simp [h.tooLong]
  log := by rw [report_log, report_log, h.log]

theorem agrees_see (x : Sighting) : Agrees (a.see { s with output } x) (b.see s x) := by
  by_cases hseen : x.identity ∈ b.visited
  · rw [see_of_mem hseen, see_of_mem (h.visited ▸ hseen)]
    exact h
  · rw [see_of_not_mem hseen, see_of_not_mem (h.visited ▸ hseen)]
    have hadd : Agrees { a with visited := x.identity :: a.visited }
        { b with visited := x.identity :: b.visited } :=
      ⟨by rw [h.visited], h.findings, h.tooLong, h.log⟩
    have hlong : x.isLong { s with output } = x.isLong s := rfl
    rw [hlong]
    cases x.isLong s with
    | true => exact agrees_report s output hadd (x.finding s)
    | false => exact hadd

theorem agrees_addFile (parser : Parser) (fs : FileSystem) (ignoreTests : Bool) (path : String) :
    Agrees (Checker.addFile ⟨{ s with output }, parser⟩ fs ignoreTests path a)
      (Checker.addFile ⟨s, parser⟩ fs ignoreTests path b) := by
  have htest : Checker.isTestFile ⟨{ s with output }, parser⟩ path = Checker.isTestFile ⟨s, parser⟩ path := rfl
  unfold Checker.addFile
  rw [htest]
  cases ignoreTests && Checker.isTestFile ⟨s, parser⟩ path with
  | true => exact h.record ..
  | false =>
    cases fs.readFile path with
    | error e => exact h.record ..
    | ok content =>
      cases hparse : parser.parse path content with
      | ok f =>
        simp only [hparse, visitFile_eq_foldl]
        exact List.foldl_rel h fun x _ a b h => agrees_see s output h x
      | error e =>
        simp only [hparse]
        cases e.syntaxError? with
        | some error => exact h.write _
        | none => exact h.record ..

theorem Request.agrees_perform (r : Request) : Agrees (r.perform { s with output } a) (r.perform s b) := by
  cases r with
  | function x => exact agrees_see s output h x
  | file fs parser ignoreTests path => exact agrees_addFile s output h parser fs ignoreTests path
  | directory fs parser ignoreTests path =>
    refine List.foldl_rel h fun v _ a b h => ?_
    cases v with
    | found file =>
      simp only [Checker.addVisit]
      split
      · exact agrees_addFile s output h parser fs ignoreTests file
      · exact h
    | pruned path => exact h.record ..
    | unreadable path e => exact h.record ..

theorem history_of_agrees (rs : List Request) : history { s with output } a rs = history s b rs := by
  induction rs generalizing a b with
  | nil => rfl
  | cons r rs ih =>
    have hnext := r.agrees_perform s output h
    have herror : r.syntaxError? { s with output } = r.syntaxError? s := by cases r <;> rfl
    rw [history, history, ih hnext, Request.events, Request.events, herror, h.findings, hnext.findings]

end Agrees

theorem agrees_after (s : Settings) (output : Bool) (requests : List Request) :
    Agrees (after { s with output } requests) (after s requests) :=
  List.foldl_rel ⟨rfl, rfl, rfl, rfl⟩ fun r _ _ _ h => r.agrees_perform s output h

/-- What is written while requests are dealt with, with findings printed and without. The events of a request
come in the order of its parts, and the events of a part are the findings that it adds, or the syntax error of
the file that it asks for. With findings printed each of them has its line, in the same order. Without, the lines
about files that are not valid remain, and all but the output is the same. -/
theorem output_after (s : Settings) (requests : List Request) :
    (after s requests).unlogged = (after s (requests.flatMap (Request.parts s))).unlogged ∧
      (after { s with output := true } requests).output =
        (history s {} (requests.flatMap (Request.parts s))).map Event.text ∧
      (after { s with output := false } requests).output =
        ((history s {} (requests.flatMap (Request.parts s))).filter Event.isInvalid).map Event.text ∧
      (after s requests).findings =
        (history s {} (requests.flatMap (Request.parts s))).filterMap Event.finding? ∧
      (requests.flatMap (Request.parts s)).filterMap (Request.syntaxError? s) =
        (history s {} (requests.flatMap (Request.parts s))).filterMap Event.syntaxError? ∧
      Agrees (after { s with output := false } requests) (after { s with output := true } requests) := by
  have hparts : ∀ output, requests.flatMap (Request.parts { s with output }) =
      requests.flatMap (Request.parts s) := by
    intro output
    refine List.flatMap_congr fun r _ => ?_
    cases r <;> rfl
  have houtput : ∀ output, (after { s with output } requests).output =
      ((history s {} (requests.flatMap (Request.parts s))).filter
        (Event.isPrinted { s with output })).map Event.text := by
    intro output
    have htold := told_after { s with output } requests
    rw [hparts, history_of_agrees s output ⟨rfl, rfl, rfl, rfl⟩] at htold
    exact htold.output
  refine ⟨unlogged_after s requests, ?_, ?_, (told_after s requests).findings,
    (filterMap_syntaxError?_history s {} _).symm, agrees_after { s with output := true } false requests⟩
  · rw [houtput]
    congr 1
    exact List.filter_eq_self.mpr fun _ _ => rfl
  · rw [houtput]
    rfl

end FunctionLength.Analysis
