import FunctionLength.Proofs.Consistency
import Mathlib.Data.List.Forall2

namespace FunctionLength.Analysis

section Severity

variable {warningLimit warningLimit' errorLimit errorLimit' : Int64}

theorem Severity.code_ofLines_le_of_limits (hw : warningLimit ≤ warningLimit') (he : errorLimit ≤ errorLimit')
    (lines : Int64) :
    (ofLines warningLimit' errorLimit' lines).code ≤ (ofLines warningLimit errorLimit lines).code := by
  unfold ofLines
  by_cases hlines : lines ≤ warningLimit
  · rw [if_pos hlines, if_pos (Int64.le_trans hlines hw)]
    exact Int64.le_refl _
  · rw [if_neg hlines]
    by_cases herror : errorLimit ≤ lines
    · rw [if_pos herror]
      split
      · decide
      · split <;> decide
    · have herror' : ¬ errorLimit' ≤ lines := fun h => herror (Int64.le_trans he h)
      rw [if_neg herror, if_neg herror']
      split <;> decide

end Severity

namespace Finding

/-- A finding under other limits. There is none any more if they allow its number of lines. -/
def rejudge? (warningLimit errorLimit : Int64) (f : Finding) : Option Finding :=
  if Severity.ofLines warningLimit errorLimit f.lines = .none then none
  else some { f with severity := Severity.ofLines warningLimit errorLimit f.lines }

structure Milder (f g : Finding) : Prop where
  same : f = { g with severity := f.severity }
  severity_le : f.severity.code ≤ g.severity.code

theorem milder_of_rejudge? {warningLimit errorLimit : Int64} {f g : Finding}
    (hle : (Severity.ofLines warningLimit errorLimit g.lines).code ≤ g.severity.code)
    (h : g.rejudge? warningLimit errorLimit = some f) : f.Milder g := by
  unfold rejudge? at h
  split at h
  · contradiction
  · obtain rfl := Option.some.inj h
    exact ⟨rfl, hle⟩

theorem sublistForall₂_rejudge? {warningLimit errorLimit : Int64} {fs : List Finding}
    (hle : ∀ f ∈ fs, (Severity.ofLines warningLimit errorLimit f.lines).code ≤ f.severity.code) :
    List.SublistForall₂ Milder (fs.filterMap (rejudge? warningLimit errorLimit)) fs := by
  induction fs with
  | nil => exact .nil
  | cons f fs ih =>
    have hrest := ih fun g hg => hle g (List.mem_cons_of_mem _ hg)
    cases h : f.rejudge? warningLimit errorLimit with
    | none =>
      rw [List.filterMap_cons_none h]
      exact .cons_right hrest
    | some g =>
      rw [List.filterMap_cons_some h]
      exact .cons (milder_of_rejudge? (hle f List.mem_cons_self) h) hrest

end Finding

namespace Sighting

theorem isLong_iff (s : Settings) (x : Sighting) : x.isLong s = true ↔ x.identity.severity s ≠ .none :=
  decide_eq_true_iff

theorem rejudge?_finding (s : Settings) (warningLimit errorLimit : Int64) (x : Sighting) :
    (x.finding s).rejudge? warningLimit errorLimit =
      if x.isLong { s with warningLimit, errorLimit } then
        some (x.finding { s with warningLimit, errorLimit })
      else none := by
  by_cases hnone : Severity.ofLines warningLimit errorLimit x.identity.lines = .none
  · simp [Finding.rejudge?, finding, isLong, Identity.severity, hnone]
  · simp [Finding.rejudge?, finding, isLong, Identity.severity, hnone]

section Limits

variable {s : Settings} {warningLimit errorLimit : Int64} (hw : s.warningLimit ≤ warningLimit)
  (he : s.errorLimit ≤ errorLimit)
include hw he

theorem isLong_of_limits_le {x : Sighting} (h : x.isLong { s with warningLimit, errorLimit } = true) :
    x.isLong s = true := by
  rw [isLong_iff] at h ⊢
  intro hnone
  have hle := Severity.code_ofLines_le_of_limits hw he x.identity.lines
  change (x.identity.severity { s with warningLimit, errorLimit }).code ≤ (x.identity.severity s).code at hle
  rw [hnone] at hle
  cases hnew : x.identity.severity { s with warningLimit, errorLimit } with
  | none => exact h hnew
  | warning => simp [hnew, Severity.code] at hle
  | error => simp [hnew, Severity.code] at hle

theorem isError_of_limits_le {x : Sighting} (h : x.isError { s with warningLimit, errorLimit } = true) :
    x.isError s = true := by
  have herror := (Identity.severity_eq_error_iff _ _).mp (of_decide_eq_true h)
  refine decide_eq_true ((Identity.severity_eq_error_iff s _).mpr ⟨?_, ?_⟩)
  · exact Int64.lt_of_le_of_lt hw herror.1
  · exact Int64.le_trans he herror.2

/-- The same sightings under higher limits: what was no finding is none now, and all else is judged anew. -/
theorem findings_of_limits_le (xs : List Sighting) :
    findings { s with warningLimit, errorLimit } xs =
      (findings s xs).filterMap (Finding.rejudge? warningLimit errorLimit) := by
  rw [findings, findings, List.filterMap_map, List.filterMap_filter, ← List.filterMap_eq_map,
    List.filterMap_filter]
  refine List.filterMap_congr fun x _ => ?_
  simp only [Function.comp_apply, rejudge?_finding]
  cases hnew : x.isLong { s with warningLimit, errorLimit } with
  | true => simp [isLong_of_limits_le hw he hnew]
  | false => simp

end Limits
end Sighting

theorem Request.sightings_withLimits (s : Settings) (warningLimit errorLimit : Int64) (r : Request) :
    r.sightings { s with warningLimit, errorLimit } = r.sightings s := by
  cases r <;> rfl

/-- Higher limits, with all else as before: the same functions have been seen, the findings are those that there
were with some taken out and some less serious, and the flag is not set if it was not. -/
theorem after_of_limits_le {s : Settings} {warningLimit errorLimit : Int64}
    (hw : s.warningLimit ≤ warningLimit) (he : s.errorLimit ≤ errorLimit) (requests : List Request) :
    List.SublistForall₂ Finding.Milder (after { s with warningLimit, errorLimit } requests).findings
        (after s requests).findings ∧
      ((after { s with warningLimit, errorLimit } requests).tooLong = true →
        (after s requests).tooLong = true) ∧
      (after { s with warningLimit, errorLimit } requests).visited = (after s requests).visited ∧
      (after { s with warningLimit, errorLimit } requests).findings =
        (after s requests).findings.filterMap (Finding.rejudge? warningLimit errorLimit) := by
  have hold := judged_after s requests
  have hnew : Judged _ _ {} _ := judged_after { s with warningLimit, errorLimit } requests
  rw [List.flatMap_congr fun r _ => r.sightings_withLimits s warningLimit errorLimit] at hnew
  have hfindings : (after { s with warningLimit, errorLimit } requests).findings =
      (after s requests).findings.filterMap (Finding.rejudge? warningLimit errorLimit) := by
    rw [hnew.findings, hold.findings, List.nil_append, List.nil_append,
      Sighting.findings_of_limits_le hw he]
  refine ⟨?_, ?_, ?_, hfindings⟩
  · rw [hfindings]
    refine Finding.sublistForall₂_rejudge? fun f hf => ?_
    rw [hold.findings] at hf
    obtain ⟨x, -, rfl⟩ := List.mem_map.mp hf
    exact Severity.code_ofLines_le_of_limits hw he x.identity.lines
  · rw [hnew.tooLong_fresh, hold.tooLong_fresh, List.any_eq_true, List.any_eq_true]
    rintro ⟨x, hx, herror⟩
    exact ⟨x, hx, Sighting.isError_of_limits_le hw he herror⟩
  · rw [hnew.visited, hold.visited]

def inverted : Settings := { Settings.builtIn with warningLimit := 10, errorLimit := 5 }

def twoFunctions : List Request :=
  [.function ⟨"C", ⟨"a.py", "f", 1, 20⟩⟩, .function ⟨"", ⟨"a.py", "f", 1, 20⟩⟩,
    .function ⟨"", ⟨"a.py", "g", 22, 33⟩⟩]

theorem after_inverted_of_limits_le :
    inverted.warningLimit ≤ 15 ∧ inverted.errorLimit ≤ 30 ∧
      (after inverted twoFunctions).findings =
        [⟨"a.py", "C.f", .method, .error, 20, 1, 20⟩, ⟨"a.py", "g", .function, .error, 12, 22, 33⟩] ∧
      (after { inverted with warningLimit := 15, errorLimit := 30 } twoFunctions).findings =
        [⟨"a.py", "C.f", .method, .warning, 20, 1, 20⟩] ∧
      List.SublistForall₂ Finding.Milder
        (after { inverted with warningLimit := 15, errorLimit := 30 } twoFunctions).findings
        (after inverted twoFunctions).findings := by
  have hw : inverted.warningLimit ≤ 15 := by decide
  have he : inverted.errorLimit ≤ 30 := by decide
  have hlimits := after_of_limits_le hw he twoFunctions
  have hfindings : (after inverted twoFunctions).findings =
      [⟨"a.py", "C.f", .method, .error, 20, 1, 20⟩, ⟨"a.py", "g", .function, .error, 12, 22, 33⟩] := by
    decide +kernel
  refine ⟨hw, he, hfindings, ?_, hlimits.1⟩
  rw [hlimits.2.2.2, hfindings]
  decide +kernel

end FunctionLength.Analysis
