import FunctionLength.Proofs.Runs
import Mathlib.Data.List.Nodup

namespace FunctionLength.Analysis
open FunctionLength.Syntax

/-- What can be asked of an analysis: to judge a function, a file, or all files below a directory. The file
system may have changed since the request before, and the parser may have changed its mind. -/
inductive Request where
  | function (x : Sighting)
  | file (fs : FileSystem) (parser : Parser) (ignoreTests : Bool) (path : String)
  | directory (fs : FileSystem) (parser : Parser) (ignoreTests : Bool) (path : String)

namespace Request

def perform (s : Settings) (a : Analysis) : Request → Analysis
  | function x => a.visit s x.identity.file x.owner x.identity.name x.identity.first x.identity.last
  | file fs parser ignoreTests path => Checker.addFile ⟨s, parser⟩ fs ignoreTests path a
  | directory fs parser ignoreTests path => Checker.addDirectory ⟨s, parser⟩ fs ignoreTests path a

def sightings (s : Settings) : Request → List Sighting
  | function x => [x]
  | file fs parser ignoreTests path => Checker.sightings ⟨s, parser⟩ fs ignoreTests path
  | directory fs parser ignoreTests path =>
    (Checker.filesBelow ⟨s, parser⟩ fs path).flatMap (Checker.sightings ⟨s, parser⟩ fs ignoreTests)

theorem judged_perform (s : Settings) (a : Analysis) (r : Request) :
    Judged s (r.sightings s) a (r.perform s a) := by
  cases r with
  | function x => exact judged_see s x a
  | file fs parser ignoreTests path => exact Checker.judged_addFile ⟨s, parser⟩ fs ignoreTests path a
  | directory fs parser ignoreTests path =>
    exact Checker.judged_addDirectory ⟨s, parser⟩ fs ignoreTests path a

end Request

def after (s : Settings) (requests : List Request) : Analysis := requests.foldl (Request.perform s) {}

theorem judged_after (s : Settings) (requests : List Request) :
    Judged s (requests.flatMap (Request.sightings s)) {} (after s requests) :=
  Judged.foldl (Request.judged_perform s) requests {}

theorem judged_after_append (s : Settings) (earlier later : List Request) :
    Judged s (later.flatMap (Request.sightings s)) (after s earlier) (after s (earlier ++ later)) := by
  unfold after
  rw [List.foldl_append]
  exact Judged.foldl (Request.judged_perform s) later (earlier.foldl (Request.perform s) {})

structure Describes (s : Settings) (shown : List Sighting) (k : Identity) (f : Finding) : Prop where
  file : f.file = k.file
  first : f.first = k.first
  last : f.last = k.last
  lines : f.lines = f.last - f.first + 1
  severity : f.severity = Severity.ofLines s.warningLimit s.errorLimit f.lines
  name : (f.kind = .function ∧ f.name = k.name ∧ ⟨"", k⟩ ∈ shown) ∨
    ∃ owner, owner ≠ "" ∧ f.kind = .method ∧ f.name = owner ++ "." ++ k.name ∧ ⟨owner, k⟩ ∈ shown

theorem describes_finding (s : Settings) {shown : List Sighting} {x : Sighting} (hx : x ∈ shown) :
    Describes s shown x.identity (x.finding s) := by
  obtain ⟨owner, k⟩ := x
  refine ⟨rfl, rfl, rfl, rfl, rfl, ?_⟩
  by_cases howner : owner = ""
  · subst owner
    exact Or.inl ⟨rfl, rfl, hx⟩
  · exact Or.inr ⟨owner, howner, by simp [Sighting.finding, howner], by simp [Sighting.finding, howner], hx⟩

/-- What has been seen, what was found and the flag fit together, after some sightings. The identities of
long functions and the findings stand in the same order, so each of the one belongs to one of the other. -/
structure Consistent (s : Settings) (shown : List Sighting) (a : Analysis) : Prop where
  nodup : a.visited.Nodup
  visited : ∀ k, k ∈ a.visited ↔ ∃ x ∈ shown, x.identity = k
  tooLong : a.tooLong = true ↔ ∃ f ∈ a.findings, f.severity = .error
  matched : List.Forall₂ (Describes s shown)
    (a.visited.reverse.filter fun k => k.severity s ≠ .none) a.findings

theorem Judged.consistent {s : Settings} {xs : List Sighting} {a : Analysis} (h : Judged s xs {} a) :
    Consistent s xs a := by
  have hvisited : a.visited = ((Sighting.firsts [] xs).map Sighting.identity).reverse := by
    simpa using h.visited
  have hfindings : a.findings = Sighting.findings s (Sighting.firsts [] xs) := by
    simpa using h.findings
  refine ⟨?_, ?_, ?_, ?_⟩
  · rw [hvisited]
    exact List.nodup_reverse.mpr (Sighting.nodup_firsts [] xs)
  · intro k
    rw [hvisited, List.mem_reverse]
    exact Sighting.mem_map_identity_firsts_nil xs k
  · rw [hfindings, Sighting.exists_error_mem_findings_iff, h.tooLong, Bool.false_or]
  · rw [hvisited, hfindings, List.reverse_reverse, List.filter_map, Sighting.findings,
      List.forall₂_map_left_iff, List.forall₂_map_right_iff]
    apply List.forall₂_same.mpr
    intro x hx
    have hfirst := (List.mem_filter.mp hx).1
    exact describes_finding s ((Sighting.firsts_sublist [] xs).subset hfirst)

theorem Judged.grows {s : Settings} {xs : List Sighting} {a b : Analysis} (h : Judged s xs a b) :
    a.findings <+: b.findings ∧ (a.tooLong = true → b.tooLong = true) := by
  refine ⟨?_, ?_⟩
  · rw [h.findings]
    exact List.prefix_append a.findings _
  · intro ha
    rw [h.tooLong, ha, Bool.true_or]

/-- Any analysis is consistent, whatever was asked of it, and later requests only add to what was found. -/
theorem consistent_after (s : Settings) (requests : List Request) :
    Consistent s (requests.flatMap (Request.sightings s)) (after s requests) ∧
      ∀ later, (after s requests).findings <+: (after s (requests ++ later)).findings ∧
        ((after s requests).tooLong = true → (after s (requests ++ later)).tooLong = true) := by
  refine ⟨(judged_after s requests).consistent, ?_⟩
  intro later
  exact (judged_after_append s requests later).grows

end FunctionLength.Analysis
