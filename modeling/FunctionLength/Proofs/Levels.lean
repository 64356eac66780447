import FunctionLength.Syntax.Declaration
import Mathlib.Data.List.Lex
import Mathlib.Data.List.Nodup
import Mathlib.Data.Nat.Find

/-!
The walk through a file goes down level by level. The queue holds the rest of one level and the beginning of the
next one, so what is kept in a round is said of both together.
-/

namespace FunctionLength.Syntax
namespace Declaration

def level (row : List Declaration) : Nat → List Declaration
  | 0 => row
  | n + 1 => (level row n).flatMap body

theorem countAll_eq_zero_iff (row : List Declaration) : countAll row = 0 ↔ row = [] := by
  cases row <;> simp [countAll, count_eq]

theorem countAll_eq_length_add (row : List Declaration) :
    countAll row = row.length + countAll (row.flatMap body) := by
  induction row with
  | nil => rfl
  | cons d row ih =>
    rw [List.flatMap_cons, countAll_append, countAll, count_eq, ih, List.length_cons]
    omega

/-- All that waits is visited before anything that it holds. -/
theorem levelOrder_append (front back : List Declaration) :
    levelOrder (front ++ back) = front ++ levelOrder (back ++ front.flatMap body) := by
  induction front generalizing back with
  | nil => simp
  | cons d front ih =>
    rw [List.cons_append, levelOrder, List.append_assoc, ih, List.flatMap_cons, List.append_assoc,
      List.cons_append]

theorem levelOrder_eq_levels (row : List Declaration) (n : Nat) :
    levelOrder row = (List.range n).flatMap (level row) ++ levelOrder (level row n) := by
  induction n with
  | zero => simp [level]
  | succ n ih =>
    have hlevel := levelOrder_append (level row n) []
    rw [List.append_nil, List.nil_append] at hlevel
    rw [ih, hlevel, List.range_succ, List.flatMap_append, level]
    simp

theorem countAll_level_le (row : List Declaration) (n : Nat) : countAll (level row n) ≤ countAll row - n := by
  induction n with
  | zero => simp [level]
  | succ n ih =>
    have hcount := countAll_eq_length_add (level row n)
    rw [level]
    by_cases hempty : level row n = []
    · simp [hempty, countAll]
    · have hpos := List.length_pos_iff.mpr hempty
      omega

theorem level_eq_nil_of_le {row : List Declaration} {m n : Nat} (hm : level row m = []) (h : m ≤ n) :
    level row n = [] := by
  induction n, h using Nat.le_induction with
  | base => exact hm
  | succ n _ ih => simp [level, ih]

theorem exists_depth (row : List Declaration) : ∃ depth,
    (∀ n, level row n = [] ↔ depth ≤ n) ∧ levelOrder row = (List.range depth).flatMap (level row) := by
  -- Each level that is not empty leaves fewer declarations below it.
  have hends : ∃ n, level row n = [] := by
    have hle := countAll_level_le row (countAll row)
    exact ⟨countAll row, (countAll_eq_zero_iff _).mp (by omega)⟩
  classical
  refine ⟨Nat.find hends, fun n => ⟨Nat.find_min' hends, level_eq_nil_of_le (Nat.find_spec hends)⟩, ?_⟩
  have hlevels := levelOrder_eq_levels row (Nat.find hends)
  rw [Nat.find_spec hends, levelOrder, List.append_nil] at hlevels
  exact hlevels

end Declaration

open Declaration

structure Progress where
  visited : List Declaration := []
  waiting : List Declaration

namespace Progress

/-- One round: the first that waits is visited, and what it holds waits behind all others. -/
def next : Progress → Progress
  | ⟨visited, []⟩ => ⟨visited, []⟩
  | ⟨visited, d :: waiting⟩ => ⟨visited ++ [d], waiting ++ d.body⟩

def after (p : Progress) : Nat → Progress
  | 0 => p
  | n + 1 => (p.after n).next

theorem countAll_next (p : Progress) : countAll p.next.waiting = countAll p.waiting - 1 := by
  obtain ⟨visited, waiting⟩ := p
  cases waiting with
  | nil => rfl
  | cons d waiting =>
    simp only [next, countAll_append, countAll, count_eq]
    omega

theorem visited_append_next (p : Progress) :
    p.next.visited ++ levelOrder p.next.waiting = p.visited ++ levelOrder p.waiting := by
  obtain ⟨visited, waiting⟩ := p
  cases waiting with
  | nil => rfl
  | cons d waiting => simp [next, levelOrder]

theorem countAll_after (p : Progress) (n : Nat) : countAll (p.after n).waiting = countAll p.waiting - n := by
  induction n with
  | zero => rfl
  | succ n ih => rw [after, countAll_next, ih, Nat.sub_sub]

theorem visited_append_after (p : Progress) (n : Nat) :
    (p.after n).visited ++ levelOrder (p.after n).waiting = p.visited ++ levelOrder p.waiting := by
  induction n with
  | zero => rfl
  | succ n ih => rw [after, visited_append_next, ih]

theorem waiting_after_eq_nil_iff (p : Progress) (n : Nat) :
    (p.after n).waiting = [] ↔ countAll p.waiting ≤ n := by
  rw [← countAll_eq_zero_iff, countAll_after]
  omega

theorem visited_after {p : Progress} {n : Nat} (h : (p.after n).waiting = []) :
    (p.after n).visited = p.visited ++ levelOrder p.waiting := by
  have hkept := visited_append_after p n
  rw [h, levelOrder, List.append_nil] at hkept
  exact hkept

end Progress

/-- Where a declaration stands in a row: which one of the row it is in, which one of those that this holds, and so
on. -/
abbrev Address := List Nat

namespace Declaration

def at? (row : List Declaration) : Address → Option Declaration
  | [] => none
  | [i] => row[i]?
  | i :: j :: rest => row[i]?.bind fun d => at? d.body (j :: rest)

theorem at?_concat (row : List Declaration) {a : Address} (ha : a ≠ []) (i : Nat) :
    at? row (a ++ [i]) = (at? row a).bind fun d => d.body[i]? := by
  induction a generalizing row with
  | nil => contradiction
  | cons j a ih =>
    cases a with
    | nil => simp only [List.cons_append, List.nil_append, at?]
    | cons k a =>
      simp only [List.cons_append, at?, Option.bind_assoc] at ih ⊢
      congr 1
      funext d
      exact ih d.body (by simp)

theorem isSome_at?_of_lt {row : List Declaration} {a : Address} {i j : Nat} (hij : i < j)
    (h : (at? row (a ++ [j])).isSome) : (at? row (a ++ [i])).isSome := by
  have hshorter : ∀ ds : List Declaration, ds[j]?.isSome → ds[i]?.isSome := by
    intro ds hj
    simp only [isSome_getElem?] at hj ⊢
    omega
  by_cases ha : a = []
  · subst ha
    exact hshorter row h
  · rw [at?_concat row ha] at h ⊢
    cases hd : at? row a with
    | none => simp [hd] at h
    | some d =>
      rw [hd] at h
      exact hshorter d.body h

def located (a : Address) (row : List Declaration) : List (Address × Declaration) :=
  row.mapIdx fun i d => (a ++ [i], d)

def locatedLevel (row : List Declaration) : Nat → List (Address × Declaration)
  | 0 => located [] row
  | n + 1 => (locatedLevel row n).flatMap fun p => located p.1 p.2.body

@[simp] theorem map_snd_located (a : Address) (row : List Declaration) : (located a row).map (·.2) = row := by
  simp [located, List.mapIdx_eq_zipIdx_map, Function.comp_def]

theorem mem_located {a b : Address} {row : List Declaration} {c : Declaration} :
    (b, c) ∈ located a row ↔ ∃ i, b = a ++ [i] ∧ row[i]? = some c := by
  simp only [located, List.mem_mapIdx, Prod.mk.injEq]
  constructor
  · rintro ⟨i, hi, rfl, rfl⟩
    exact ⟨i, rfl, List.getElem?_eq_getElem hi⟩
  · rintro ⟨i, rfl, hc⟩
    obtain ⟨hi, rfl⟩ := List.getElem?_eq_some_iff.mp hc
    exact ⟨i, hi, rfl, rfl⟩

theorem pairwise_located (a : Address) (row : List Declaration) :
    (located a row).Pairwise fun p q => p.1 < q.1 := by
  rw [located, List.pairwise_iff_getElem]
  intro i j hi hj hij
  simp only [List.getElem_mapIdx]
  exact List.append_left_lt (List.Lex.rel hij)

theorem map_snd_locatedLevel (row : List Declaration) (n : Nat) :
    (locatedLevel row n).map (·.2) = level row n := by
  induction n with
  | zero => simp [locatedLevel, level]
  | succ n ih =>
    rw [locatedLevel, level, ← ih, List.map_flatMap, List.flatMap_map]
    simp

theorem mem_locatedLevel {row : List Declaration} {n : Nat} {a : Address} {d : Declaration} :
    (a, d) ∈ locatedLevel row n ↔ a.length = n + 1 ∧ at? row a = some d := by
  induction n generalizing a d with
  | zero =>
    rw [locatedLevel, mem_located, List.length_eq_one_iff]
    constructor
    · rintro ⟨i, rfl, hd⟩
      exact ⟨⟨i, rfl⟩, hd⟩
    · rintro ⟨⟨i, rfl⟩, hd⟩
      exact ⟨i, rfl, hd⟩
  | succ n ih =>
    rw [locatedLevel, List.mem_flatMap]
    constructor
    · rintro ⟨⟨b, c⟩, hb, hmem⟩
      obtain ⟨hlength, hc⟩ := ih.mp hb
      obtain ⟨i, rfl, hd⟩ := mem_located.mp hmem
      have hne : b ≠ [] := by rintro rfl; simp at hlength
      exact ⟨by simp [hlength], by rw [at?_concat row hne, hc]; exact hd⟩
    · rintro ⟨hlength, hd⟩
      obtain rfl | ⟨b, i, rfl⟩ := List.eq_nil_or_concat' a
      · simp at hlength
      · have hb : b.length = n + 1 := by simpa using hlength
        have hne : b ≠ [] := by rintro rfl; simp at hb
        rw [at?_concat row hne, Option.bind_eq_some_iff] at hd
        obtain ⟨c, hc, hd⟩ := hd
        exact ⟨(b, c), ih.mpr ⟨hb, hc⟩, mem_located.mpr ⟨i, rfl, hd⟩⟩

theorem append_lt_append {a b : Address} (h : a < b) (hlength : a.length = b.length) (s t : Address) :
    a ++ s < b ++ t := by
  induction h with
  | nil => simp at hlength
  | rel hij => exact List.Lex.rel hij
  | cons _ ih => exact List.Lex.cons (ih (by simpa using hlength))

/-- In one level, what stands further left has the smaller address. -/
theorem pairwise_locatedLevel (row : List Declaration) (n : Nat) :
    (locatedLevel row n).Pairwise fun p q => p.1 < q.1 := by
  induction n with
  | zero => exact pairwise_located [] row
  | succ n ih =>
    rw [locatedLevel, List.pairwise_flatMap]
    refine ⟨fun p _ => pairwise_located p.1 p.2.body, ih.imp_of_mem ?_⟩
    rintro ⟨a, d⟩ ⟨b, e⟩ ha hb hab ⟨a', d'⟩ hd ⟨b', e'⟩ he
    obtain ⟨i, rfl, -⟩ := mem_located.mp hd
    obtain ⟨j, rfl, -⟩ := mem_located.mp he
    -- No address in a level goes on from another one there, so what is put behind them does not matter.
    have hlength : a.length = b.length := by rw [(mem_locatedLevel.mp ha).1, (mem_locatedLevel.mp hb).1]
    exact append_lt_append hab hlength [i] [j]

end Declaration

/-- Upper levels come first, and in a level what stands further left. -/
def Address.Before (a b : Address) : Prop := a.length < b.length ∨ a.length = b.length ∧ a < b

theorem Address.Before.not_before {a b : Address} (h : a.Before b) : ¬ b.Before a := by
  rintro (hlength | ⟨hlength, hlt⟩) <;> rcases h with h | ⟨h, hlt'⟩ <;> try omega
  exact List.lt_asymm hlt hlt'

structure Itinerary (row : List Declaration) (visits : List Address) : Prop where
  mem_iff : ∀ a, a ∈ visits ↔ (at? row a).isSome
  pairwise : visits.Pairwise Address.Before

namespace Itinerary

variable {row : List Declaration} {visits : List Address}

theorem nodup (h : Itinerary row visits) : visits.Nodup := by
  refine h.pairwise.imp ?_
  rintro a b hab rfl
  exact hab.not_before hab

theorem idxOf_lt (h : Itinerary row visits) {a b : Address} (ha : a ∈ visits) (hb : b ∈ visits)
    (hab : a.Before b) : visits.idxOf a < visits.idxOf b := by
  have hia := List.idxOf_lt_length_of_mem ha
  have hib := List.idxOf_lt_length_of_mem hb
  rcases Nat.lt_trichotomy (visits.idxOf a) (visits.idxOf b) with hlt | heq | hgt
  · exact hlt
  · obtain rfl : a = b := by
      rw [← List.getElem_idxOf hia, ← List.getElem_idxOf hib]
      simp only [heq]
    exact absurd hab hab.not_before
  · have hba := List.pairwise_iff_getElem.mp h.pairwise _ _ hib hia hgt
    rw [List.getElem_idxOf hia, List.getElem_idxOf hib] at hba
    exact absurd hab hba.not_before

theorem idxOf_parent_lt (h : Itinerary row visits) {a : Address} {i : Nat} (ha : a ≠ [])
    (hi : a ++ [i] ∈ visits) : visits.idxOf a < visits.idxOf (a ++ [i]) := by
  have hsome := (h.mem_iff _).mp hi
  rw [at?_concat row ha] at hsome
  exact h.idxOf_lt ((h.mem_iff a).mpr (Option.isSome_of_isSome_bind hsome)) hi (Or.inl (by simp))

theorem idxOf_sibling_lt (h : Itinerary row visits) {a : Address} {i j : Nat} (hij : i < j)
    (hj : a ++ [j] ∈ visits) : visits.idxOf (a ++ [i]) < visits.idxOf (a ++ [j]) := by
  have hi := (h.mem_iff _).mpr (isSome_at?_of_lt hij ((h.mem_iff _).mp hj))
  exact h.idxOf_lt hi hj (Or.inr ⟨by simp, List.append_left_lt (List.Lex.rel hij)⟩)

end Itinerary

def stops (row : List Declaration) (depth : Nat) : List (Address × Declaration) :=
  (List.range depth).flatMap (locatedLevel row)

theorem map_snd_stops (row : List Declaration) (depth : Nat) :
    (stops row depth).map (·.2) = (List.range depth).flatMap (level row) := by
  rw [stops, List.map_flatMap]
  simp only [map_snd_locatedLevel]

theorem pairwise_stops (row : List Declaration) (depth : Nat) :
    (stops row depth).Pairwise fun p q => p.1.Before q.1 := by
  rw [stops, List.pairwise_flatMap]
  constructor
  · intro n _
    refine (pairwise_locatedLevel row n).imp_of_mem fun hp hq hlt => Or.inr ⟨?_, hlt⟩
    rw [(mem_locatedLevel.mp hp).1, (mem_locatedLevel.mp hq).1]
  · refine List.pairwise_lt_range.imp fun {m n} hmn p hp q hq => Or.inl ?_
    rw [(mem_locatedLevel.mp hp).1, (mem_locatedLevel.mp hq).1]
    omega

theorem mem_stops {row : List Declaration} {depth : Nat} (hdepth : ∀ n, level row n = [] ↔ depth ≤ n)
    {a : Address} {d : Declaration} : (a, d) ∈ stops row depth ↔ at? row a = some d := by
  simp only [stops, List.mem_flatMap, List.mem_range, mem_locatedLevel]
  constructor
  · rintro ⟨n, -, -, hd⟩
    exact hd
  · intro hd
    cases a with
    | nil => simp [at?] at hd
    | cons i a =>
      refine ⟨a.length, ?_, rfl, hd⟩
      by_contra hle
      have hempty := (hdepth a.length).mpr (Nat.le_of_not_lt hle)
      rw [← map_snd_locatedLevel, List.map_eq_nil_iff] at hempty
      have hstop : (i :: a, d) ∈ locatedLevel row a.length := mem_locatedLevel.mpr ⟨rfl, hd⟩
      simp [hempty] at hstop

theorem exists_itinerary (row : List Declaration) :
    ∃ visits, visits.map (at? row) = (levelOrder row).map some ∧ Itinerary row visits := by
  obtain ⟨depth, hdepth, hwalk⟩ := exists_depth row
  refine ⟨(stops row depth).map (·.1), ?_, fun a => ?_, ?_⟩
  · rw [hwalk, ← map_snd_stops, List.map_map, List.map_map]
    exact List.map_congr_left fun p hp => (mem_stops hdepth).mp hp
  · simp only [List.mem_map, Prod.exists, exists_and_right, exists_eq_right, mem_stops hdepth,
      Option.isSome_iff_exists]
  · exact List.pairwise_map.mpr (pairwise_stops row depth)

def SourceFile.rounds (f : SourceFile) (n : Nat) : Progress := ({ waiting := f.body } : Progress).after n

/-- The walk through a file ends after as many rounds as the file has declarations, and goes through the levels
one after another. So it comes to each place once, to a declaration before those that it holds, and to these in
their order. -/
theorem SourceFile.walk_by_levels (f : SourceFile) :
    (∀ n, (f.rounds n).waiting = [] ↔ countAll f.body ≤ n) ∧
    (f.rounds (countAll f.body)).visited = f.walk ∧
    (∃ depth, (∀ n, level f.body n = [] ↔ depth ≤ n) ∧
      f.walk = (List.range depth).flatMap (level f.body)) ∧
    ∃ visits : List Address,
      visits.map (at? f.body) = f.walk.map some ∧ visits.Nodup ∧
      (∀ a, a ∈ visits ↔ (at? f.body a).isSome) ∧
      (∀ a i, a ≠ [] → a ++ [i] ∈ visits → visits.idxOf a < visits.idxOf (a ++ [i])) ∧
      ∀ a i j, i < j → a ++ [j] ∈ visits → visits.idxOf (a ++ [i]) < visits.idxOf (a ++ [j]) := by
  have hends : ∀ n, (f.rounds n).waiting = [] ↔ countAll f.body ≤ n := Progress.waiting_after_eq_nil_iff _
  obtain ⟨visits, hvisits, hit⟩ := exists_itinerary f.body
  refine ⟨hends, ?_, exists_depth f.body, visits, hvisits, hit.nodup, hit.mem_iff, ?_, ?_⟩
  · exact Progress.visited_after ((hends _).mpr (Nat.le_refl _))
  · exact fun a i ha hi => hit.idxOf_parent_lt ha hi
  · exact fun a i j hij hj => hit.idxOf_sibling_lt hij hj

def layeredFile : SourceFile where
  path := "a.py"
  body := [
    .type "C" [.function "f" 2 5 [.function "g" 3 4 []], .function "h" 6 7 []],
    .other "if_statement" [.function "k" 9 10 []]]

theorem walk_by_levels_layeredFile :
    (layeredFile.rounds 6).waiting = [] ∧ (layeredFile.rounds 6).visited = layeredFile.walk ∧
    level layeredFile.body 2 ≠ [] ∧ level layeredFile.body 3 = [] ∧
    ∃ visits : List Address,
      visits.map (at? layeredFile.body) = layeredFile.walk.map some ∧ [0, 0, 0] ∈ visits ∧
      visits.idxOf [0, 0] < visits.idxOf [0, 0, 0] ∧ visits.idxOf [0, 0] < visits.idxOf [0, 1] := by
  obtain ⟨hends, hvisited, -, visits, hvisits, -, hmem, hparent, hsibling⟩ := layeredFile.walk_by_levels
  have hdeep : [0, 0, 0] ∈ visits := (hmem _).mpr rfl
  have hthird : level layeredFile.body 2 ≠ [] := by simp [level, layeredFile, body]
  refine ⟨(hends 6).mpr (by decide), hvisited, hthird, rfl, visits, hvisits, hdeep, ?_, ?_⟩
  · exact hparent [0, 0] 0 (by decide) hdeep
  · exact hsibling [0] 0 1 (by decide) ((hmem _).mpr rfl)

end FunctionLength.Syntax
