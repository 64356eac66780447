import FunctionLength.Analysis.Run

/-!
What an analysis makes of the functions that it is shown. Whatever a file, a directory or a walk brings, an
analysis only ever sees a row of sightings, and the first sighting of each function decides.
-/

namespace FunctionLength.Analysis
open FunctionLength.Syntax

/-- A function as it is shown to an analysis: by what it is known, and the class that it is shown as a
member of. The empty text stands for no class. -/
structure Sighting where
  owner : String
  identity : Identity
  deriving DecidableEq, Repr

namespace Identity

def lines (k : Identity) : Int64 := lineCount k.first k.last

def severity (s : Settings) (k : Identity) : Severity :=
  Severity.ofLines s.warningLimit s.errorLimit k.lines

theorem severity_eq_error_iff (s : Settings) (k : Identity) :
    k.severity s = .error ↔ s.warningLimit < k.lines ∧ s.errorLimit ≤ k.lines := by
  unfold severity Severity.ofLines
  by_cases hw : k.lines ≤ s.warningLimit
  · simp [hw, Int64.not_lt.mpr hw]
  · have hlt := Int64.not_le.mp hw
    by_cases he : s.errorLimit ≤ k.lines <;> simp [hw, he, hlt]

end Identity

namespace Sighting

def finding (s : Settings) (x : Sighting) : Finding where
  file := x.identity.file
  name := if x.owner = "" then x.identity.name else x.owner ++ "." ++ x.identity.name
  kind := if x.owner = "" then .function else .method
  severity := x.identity.severity s
  lines := x.identity.lines
  first := x.identity.first
  last := x.identity.last

def isLong (s : Settings) (x : Sighting) : Bool := x.identity.severity s ≠ .none

def isError (s : Settings) (x : Sighting) : Bool := x.identity.severity s = .error

theorem isLong_of_isError {s : Settings} {x : Sighting} (h : x.isError s = true) : x.isLong s = true := by
  have herror : x.identity.severity s = .error := of_decide_eq_true h
  simp [isLong, herror]

def findings (s : Settings) (xs : List Sighting) : List Finding := (xs.filter (isLong s)).map (finding s)

@[simp] theorem findings_nil (s : Settings) : findings s [] = [] := rfl

@[simp] theorem findings_append (s : Settings) (xs ys : List Sighting) :
    findings s (xs ++ ys) = findings s xs ++ findings s ys := by
  simp [findings]

theorem exists_error_mem_findings_iff (s : Settings) (xs : List Sighting) :
    (∃ f ∈ findings s xs, f.severity = .error) ↔ xs.any (isError s) = true := by
  rw [List.any_eq_true]
  constructor
  · rintro ⟨f, hf, herror⟩
    obtain ⟨x, hx, rfl⟩ := List.mem_map.mp hf
    exact ⟨x, (List.mem_filter.mp hx).1, decide_eq_true herror⟩
  · rintro ⟨x, hx, herror⟩
    refine ⟨x.finding s, List.mem_map_of_mem ?_, of_decide_eq_true herror⟩
    exact List.mem_filter.mpr ⟨hx, isLong_of_isError herror⟩

theorem findings_flatMap {α : Type} (s : Settings) (g : α → List Sighting) (as : List α) :
    findings s (as.flatMap g) = as.flatMap fun a => findings s (g a) := by
  induction as with
  | nil => rfl
  | cons a as ih => simp [ih]

/-- The sightings among some that show a function for the first time, if those that are known by the given
identities have been seen before. -/
def firsts (seen : List Identity) : List Sighting → List Sighting
  | [] => []
  | x :: xs => if x.identity ∈ seen then firsts seen xs else x :: firsts (x.identity :: seen) xs

theorem firsts_sublist (seen : List Identity) (xs : List Sighting) : (firsts seen xs).Sublist xs := by
  induction xs generalizing seen with
  | nil => simp [firsts]
  | cons x xs ih =>
    by_cases hx : x.identity ∈ seen
    · simp only [firsts, hx, if_true]
      exact (ih seen).cons x
    · simp only [firsts, hx, if_false]
      exact (ih (x.identity :: seen)).cons_cons x

theorem firsts_append (seen : List Identity) (xs ys : List Sighting) :
    firsts seen (xs ++ ys) =
      firsts seen xs ++ firsts (((firsts seen xs).map identity).reverse ++ seen) ys := by
  induction xs generalizing seen with
  | nil => simp [firsts]
  | cons x xs ih =>
    by_cases hx : x.identity ∈ seen
    · simp [firsts, hx, ih]
    · simp [firsts, hx, ih]

theorem identity_not_mem_of_mem_firsts {seen : List Identity} {xs : List Sighting} {x : Sighting}
    (hx : x ∈ firsts seen xs) : x.identity ∉ seen := by
  induction xs generalizing seen with
  | nil => simp [firsts] at hx
  | cons y ys ih =>
    by_cases hy : y.identity ∈ seen
    · simp only [firsts, hy, if_true] at hx
      exact ih hx
    · simp only [firsts, hy, if_false, List.mem_cons] at hx
      rcases hx with rfl | hx
      · exact hy
      · intro hmem
        exact ih hx (List.mem_cons_of_mem _ hmem)

theorem nodup_firsts (seen : List Identity) (xs : List Sighting) :
    ((firsts seen xs).map identity).Nodup := by
  induction xs generalizing seen with
  | nil => simp [firsts]
  | cons x xs ih =>
    by_cases hx : x.identity ∈ seen
    · simp only [firsts, hx, if_true]
      exact ih seen
    · simp only [firsts, hx, if_false, List.map_cons, List.nodup_cons]
      refine ⟨?_, ih _⟩
      intro hmem
      obtain ⟨y, hy, heq⟩ := List.mem_map.mp hmem
      apply identity_not_mem_of_mem_firsts hy
      simp [heq]

theorem mem_identity_firsts (seen : List Identity) {xs : List Sighting} {x : Sighting} (hx : x ∈ xs) :
    x.identity ∈ seen ∨ x.identity ∈ (firsts seen xs).map identity := by
  induction xs generalizing seen with
  | nil => simp at hx
  | cons y ys ih =>
    rcases List.mem_cons.mp hx with rfl | hx
    · by_cases hs : x.identity ∈ seen <;> simp [firsts, hs]
    · by_cases hy : y.identity ∈ seen
      · simpa only [firsts, hy, if_true] using ih seen hx
      · rcases ih (y.identity :: seen) hx with hmem | hmem
        · rcases List.mem_cons.mp hmem with heq | hmem
          · exact Or.inr (by simp [firsts, hy, heq])
          · exact Or.inl hmem
        · exact Or.inr (by simp [firsts, hy, hmem])

theorem mem_map_identity_firsts_nil (xs : List Sighting) (k : Identity) :
    k ∈ (firsts [] xs).map identity ↔ ∃ x ∈ xs, x.identity = k := by
  constructor
  · intro hk
    obtain ⟨x, hx, rfl⟩ := List.mem_map.mp hk
    exact ⟨x, (firsts_sublist [] xs).subset hx, rfl⟩
  · rintro ⟨x, hx, rfl⟩
    simpa using mem_identity_firsts [] hx

theorem firsts_congr {seen seen' : List Identity} {xs : List Sighting}
    (h : ∀ x ∈ xs, x.identity ∈ seen ↔ x.identity ∈ seen') : firsts seen xs = firsts seen' xs := by
  induction xs generalizing seen seen' with
  | nil => rfl
  | cons x xs ih =>
    have hx := h x (by simp)
    have hxs : ∀ y ∈ xs, y.identity ∈ seen ↔ y.identity ∈ seen' := fun y hy => h y (by simp [hy])
    by_cases hs : x.identity ∈ seen
    · simp only [firsts, hs, hx.mp hs, if_true]
      exact ih hxs
    · have hs' : x.identity ∉ seen' := fun hmem => hs (hx.mpr hmem)
      simp only [firsts, hs, hs', if_false]
      rw [ih]
      intro y hy
      simp [hxs y hy]

theorem firsts_eq_nil {seen : List Identity} {xs : List Sighting} (h : ∀ x ∈ xs, x.identity ∈ seen) :
    firsts seen xs = [] := by
  induction xs with
  | nil => rfl
  | cons x xs ih =>
    simp only [firsts, h x (by simp), if_true]
    exact ih fun y hy => h y (by simp [hy])

theorem firsts_eq_self {seen : List Identity} {xs : List Sighting} (hn : (xs.map identity).Nodup)
    (h : ∀ x ∈ xs, x.identity ∉ seen) : firsts seen xs = xs := by
  induction xs generalizing seen with
  | nil => rfl
  | cons x xs ih =>
    obtain ⟨hx, hn⟩ := List.nodup_cons.mp hn
    simp only [firsts, h x (by simp), if_false]
    rw [ih hn]
    intro y hy hmem
    rcases List.mem_cons.mp hmem with heq | hmem
    · exact hx (heq ▸ List.mem_map.mpr ⟨y, hy, rfl⟩)
    · exact h y (by simp [hy]) hmem

theorem any_firsts_nil (p : Identity → Bool) (xs : List Sighting) :
    (firsts [] xs).any (fun x => p x.identity) = xs.any fun x => p x.identity := by
  rw [Bool.eq_iff_iff, List.any_eq_true, List.any_eq_true]
  constructor
  · rintro ⟨x, hx, hp⟩
    exact ⟨x, (firsts_sublist [] xs).subset hx, hp⟩
  · rintro ⟨x, hx, hp⟩
    obtain ⟨y, hy, heq⟩ := List.mem_map.mp ((mem_map_identity_firsts_nil xs x.identity).mpr ⟨x, hx, rfl⟩)
    exact ⟨y, hy, by rw [heq]; exact hp⟩

end Sighting

@[simp] theorem report_visited (s : Settings) (f : Finding) (a : Analysis) :
    (a.report s f).visited = a.visited := by
  unfold report; split <;> rfl

@[simp] theorem report_findings (s : Settings) (f : Finding) (a : Analysis) :
    (a.report s f).findings = a.findings ++ [f] := by
  unfold report; split <;> rfl

@[simp] theorem report_tooLong (s : Settings) (f : Finding) (a : Analysis) :
    (a.report s f).tooLong = (a.tooLong || f.severity = .error) := by
  unfold report; split <;> rfl

/-- An analysis comes out of another one by judging a row of sightings. What was written and logged on the
way is left open. -/
structure Judged (s : Settings) (xs : List Sighting) (a b : Analysis) : Prop where
  visited : b.visited = ((Sighting.firsts a.visited xs).map Sighting.identity).reverse ++ a.visited
  findings : b.findings = a.findings ++ Sighting.findings s (Sighting.firsts a.visited xs)
  tooLong : b.tooLong = (a.tooLong || (Sighting.firsts a.visited xs).any (Sighting.isError s))

namespace Judged

variable {s : Settings} {xs ys : List Sighting} {a b c : Analysis}

theorem refl (s : Settings) (a : Analysis) : Judged s [] a a :=
  ⟨by simp [Sighting.firsts], by simp [Sighting.firsts], by simp [Sighting.firsts]⟩

theorem trans (hab : Judged s xs a b) (hbc : Judged s ys b c) : Judged s (xs ++ ys) a c := by
  have hfirsts : Sighting.firsts a.visited (xs ++ ys) =
      Sighting.firsts a.visited xs ++ Sighting.firsts b.visited ys := by
    rw [Sighting.firsts_append, hab.visited]
  refine ⟨?_, ?_, ?_⟩
  · rw [hbc.visited, hfirsts, hab.visited]
    simp
  · rw [hbc.findings, hfirsts, hab.findings]
    simp
  · rw [hbc.tooLong, hfirsts, hab.tooLong]
    simp [Bool.or_assoc]

theorem write (h : Judged s xs a b) (text : String) : Judged s xs a (b.write text) :=
  ⟨h.visited, h.findings, h.tooLong⟩

theorem record (h : Judged s xs a b) (level : Log.Level) (message : String)
    (fields : List (String × Log.Field)) : Judged s xs a (b.record level message fields) :=
  ⟨h.visited, h.findings, h.tooLong⟩

theorem foldl {α : Type} {g : α → List Sighting} {step : Analysis → α → Analysis}
    (h : ∀ a x, Judged s (g x) a (step a x)) (l : List α) (a : Analysis) :
    Judged s (l.flatMap g) a (l.foldl step a) := by
  induction l generalizing a with
  | nil => exact refl s a
  | cons x l ih =>
    rw [List.flatMap_cons, List.foldl_cons]
    exact (h a x).trans (ih (step a x))

/-- In the end it does not matter for the flag which sighting of a function came first. -/
theorem tooLong_fresh (h : Judged s xs {} b) : b.tooLong = xs.any (Sighting.isError s) := by
  rw [h.tooLong, Bool.false_or]
  exact Sighting.any_firsts_nil (fun k => k.severity s = .error) xs

end Judged

def see (s : Settings) (a : Analysis) (x : Sighting) : Analysis :=
  a.visit s x.identity.file x.owner x.identity.name x.identity.first x.identity.last

theorem see_of_mem {s : Settings} {a : Analysis} {x : Sighting} (h : x.identity ∈ a.visited) :
    a.see s x = a := by
  simp only [see, visit]
  exact if_pos h

theorem see_of_not_mem {s : Settings} {a : Analysis} {x : Sighting} (h : x.identity ∉ a.visited) :
    a.see s x =
      let b := { a with visited := x.identity :: a.visited }
      if x.isLong s then b.report s (x.finding s) else b := by
  obtain ⟨owner, k⟩ := x
  simp only [see, visit, Sighting.isLong, Sighting.finding, Identity.severity, Identity.lines]
  rw [if_neg h]
  by_cases hnone : Severity.ofLines s.warningLimit s.errorLimit (lineCount k.first k.last) = .none
  · simp [hnone]
  · by_cases howner : owner = "" <;> simp [hnone, howner]

theorem judged_see (s : Settings) (x : Sighting) (a : Analysis) : Judged s [x] a (a.see s x) := by
  by_cases hseen : x.identity ∈ a.visited
  · have hfirsts : Sighting.firsts a.visited [x] = [] := by simp [Sighting.firsts, hseen]
    rw [see_of_mem hseen]
    constructor <;> simp [hfirsts]
  · have hfirsts : Sighting.firsts a.visited [x] = [x] := by simp [Sighting.firsts, hseen]
    rw [see_of_not_mem hseen]
    cases hlong : x.isLong s with
    | true =>
      refine ⟨by simp [hfirsts], by simp [hfirsts, Sighting.findings, hlong], ?_⟩
      simp only [if_true, report_tooLong, hfirsts, List.any_cons, List.any_nil, Bool.or_false]
      rfl
    | false =>
      have herror : x.isError s = false := by
        cases he : x.isError s with
        | false => rfl
        | true => rw [Sighting.isLong_of_isError he] at hlong; contradiction
      constructor <;> simp [hfirsts, Sighting.findings, hlong, herror]

end FunctionLength.Analysis
