import FunctionLength.Path
import Mathlib.Data.List.Induction
import Mathlib.Data.List.Infix
import Mathlib.Data.List.TakeWhile

/-!
Laws of paths as text. A path is known by whether it is absolute and by its names, and all that is done to
paths is said in terms of these two.
-/

namespace FunctionLength.Path

theorem pieces_ne_nil (cs : List Char) : pieces cs ≠ [] := by
  cases cs with
  | nil => simp [pieces]
  | cons c cs =>
    rw [pieces]
    split
    · simp
    · split <;> simp

theorem pieces_append_slash (xs ys : List Char) : pieces (xs ++ '/' :: ys) = pieces xs ++ pieces ys := by
  induction xs with
  | nil => simp [pieces]
  | cons x xs ih =>
    by_cases hx : x = '/'
    · simp [pieces, hx, ih]
    · rw [List.cons_append, pieces, if_neg hx, ih, pieces, if_neg hx]
      cases hxs : pieces xs with
      | nil => exact absurd hxs (pieces_ne_nil xs)
      | cons p ps => rfl

theorem pieces_of_not_mem {xs : List Char} (h : '/' ∉ xs) : pieces xs = [xs] := by
  induction xs with
  | nil => rfl
  | cons x xs ih =>
    obtain ⟨hx, hxs⟩ := not_or.mp (List.mem_cons.not.mp h)
    rw [pieces, if_neg (Ne.symm hx), ih hxs]

theorem not_mem_of_mem_pieces {p cs : List Char} (h : p ∈ pieces cs) : '/' ∉ p := by
  induction cs generalizing p with
  | nil =>
    rw [List.mem_singleton.mp h]
    simp
  | cons c cs ih =>
    by_cases hc : c = '/'
    · rw [pieces, if_pos hc] at h
      rcases List.mem_cons.mp h with rfl | h
      · simp
      · exact ih h
    · rw [pieces, if_neg hc] at h
      cases hcs : pieces cs with
      | nil => exact absurd hcs (pieces_ne_nil cs)
      | cons q qs =>
        rw [hcs] at h ih
        rcases List.mem_cons.mp h with rfl | h
        · simp [Ne.symm hc, ih (p := q) (by simp)]
        · exact ih (by simp [h])

theorem mem_of_mem_pieces {p cs : List Char} (h : p ∈ pieces cs) {c : Char} (hc : c ∈ p) : c ∈ cs := by
  induction cs generalizing p with
  | nil =>
    rw [List.mem_singleton.mp h] at hc
    exact hc
  | cons d cs ih =>
    by_cases hd : d = '/'
    · rw [pieces, if_pos hd] at h
      rcases List.mem_cons.mp h with rfl | h
      · simp at hc
      · simp [ih h hc]
    · rw [pieces, if_neg hd] at h
      cases hcs : pieces cs with
      | nil => exact absurd hcs (pieces_ne_nil cs)
      | cons q qs =>
        rw [hcs] at h ih
        rcases List.mem_cons.mp h with rfl | h
        · rcases List.mem_cons.mp hc with rfl | hc
          · simp
          · simp [ih (p := q) (by simp) hc]
        · simp [ih (p := p) (by simp [h]) hc]

/-- A text that can stand between two slashes of a path and means something there. -/
structure IsName (name : String) : Prop where
  ne_empty : name ≠ ""
  ne_dot : name ≠ "."
  no_slash : '/' ∉ name.toList

theorem isName_of_mem_names {path name : String} (h : name ∈ names path) : IsName name := by
  obtain ⟨hmem, hkeep⟩ := List.mem_filter.mp h
  obtain ⟨p, hp, rfl⟩ := List.mem_map.mp hmem
  simp only [Bool.and_eq_true, decide_eq_true_eq] at hkeep
  exact ⟨hkeep.1, hkeep.2, by simpa using not_mem_of_mem_pieces hp⟩

theorem mem_of_mem_names {path name : String} (h : name ∈ names path) {c : Char} (hc : c ∈ name.toList) :
    c ∈ path.toList := by
  obtain ⟨hmem, -⟩ := List.mem_filter.mp h
  obtain ⟨p, hp, rfl⟩ := List.mem_map.mp hmem
  exact mem_of_mem_pieces hp (by simpa using hc)

theorem names_append_slash (a b : String) : names (a ++ "/" ++ b) = names a ++ names b := by
  have hchars : (a ++ "/" ++ b).toList = a.toList ++ '/' :: b.toList := by simp
  rw [names, hchars, pieces_append_slash, List.map_append, List.filter_append]
  rfl

@[simp] theorem names_empty : names "" = [] := rfl

@[simp] theorem names_dot : names "." = [] := by decide +kernel

theorem IsName.names_eq {name : String} (h : IsName name) : names name = [name] := by
  simp [names, pieces_of_not_mem h.no_slash, h.ne_empty, h.ne_dot]

theorem joinNames_cons (name : String) {ns : List String} (h : ns ≠ []) :
    joinNames (name :: ns) = name ++ "/" ++ joinNames ns := by
  cases ns with
  | nil => contradiction
  | cons m ms => exact String.intercalate_cons_cons

theorem joinNames_append {ns ms : List String} (hn : ns ≠ []) (hm : ms ≠ []) :
    joinNames (ns ++ ms) = joinNames ns ++ "/" ++ joinNames ms := by
  induction ns with
  | nil => contradiction
  | cons n ns ih =>
    cases ns with
    | nil => exact joinNames_cons n hm
    | cons m rest =>
      rw [List.cons_append, joinNames_cons n (by simp), ih (by simp), joinNames_cons n (by simp)]
      simp [String.append_assoc]

theorem names_joinNames {ns : List String} (h : ∀ n ∈ ns, IsName n) : names (joinNames ns) = ns := by
  induction ns with
  | nil => rfl
  | cons n ns ih =>
    have hn := (h n (by simp)).names_eq
    cases ns with
    | nil => simpa [joinNames] using hn
    | cons m rest =>
      rw [joinNames_cons n (by simp), names_append_slash, hn, ih fun m hm => h m (by simp [hm])]
      rfl

theorem isAbsolute_append {a : String} (b : String) (h : a ≠ "") : isAbsolute (a ++ b) = isAbsolute a := by
  cases ha : a.toList with
  | nil => exact absurd (String.toList_eq_nil_iff.mp ha) h
  | cons c cs => simp [isAbsolute, ha]

theorem isAbsolute_slash_append (b : String) : isAbsolute ("/" ++ b) = true := by simp [isAbsolute]

theorem IsName.isAbsolute_eq {name : String} (h : IsName name) : isAbsolute name = false := by
  cases hn : name.toList with
  | nil => simp [isAbsolute, hn]
  | cons c cs =>
    have hc : c ≠ '/' := fun heq => h.no_slash (by simp [hn, heq])
    simp [isAbsolute, hn, hc]

theorem isAbsolute_joinNames {ns : List String} (h : ∀ n ∈ ns, IsName n) :
    isAbsolute (joinNames ns) = false := by
  cases ns with
  | nil => rfl
  | cons n rest =>
    have hn := h n (by simp)
    by_cases hrest : rest = []
    · simpa [hrest, joinNames] using hn.isAbsolute_eq
    · rw [joinNames_cons n hrest, String.append_assoc, isAbsolute_append _ hn.ne_empty]
      exact hn.isAbsolute_eq

theorem joinNames_ne_empty {ns : List String} (hne : ns ≠ []) (h : ∀ n ∈ ns, IsName n) :
    joinNames ns ≠ "" := by
  intro heq
  have hnames := names_joinNames h
  rw [heq] at hnames
  exact hne hnames.symm

variable {absolute : Bool} {ns ms : List String}

theorem names_ofNames (h : ∀ n ∈ ns, IsName n) : names (ofNames absolute ns) = ns := by
  unfold ofNames
  cases absolute with
  | true => simpa [names_joinNames h] using names_append_slash "" (joinNames ns)
  | false =>
    cases ns with
    | nil => simp
    | cons n rest => simpa using names_joinNames h

theorem isAbsolute_ofNames (h : ∀ n ∈ ns, IsName n) : isAbsolute (ofNames absolute ns) = absolute := by
  unfold ofNames
  cases absolute with
  | true => exact isAbsolute_slash_append _
  | false =>
    cases ns with
    | nil => decide
    | cons n rest => simpa using isAbsolute_joinNames h

theorem ofNames_ne_empty (h : ∀ n ∈ ns, IsName n) : ofNames absolute ns ≠ "" := by
  unfold ofNames
  cases absolute with
  | true => simp
  | false =>
    cases ns with
    | nil => decide
    | cons n rest => simpa using joinNames_ne_empty (by simp) h

theorem not_mem_ofNames {c : Char} (hslash : c ≠ '/') (hdot : c ≠ '.') (h : ∀ n ∈ ns, c ∉ n.toList) :
    c ∉ (ofNames absolute ns).toList := by
  have hjoin : c ∉ (joinNames ns).toList := by
    induction ns with
    | nil => simp [joinNames]
    | cons n ns ih =>
      have hn := h n (by simp)
      by_cases hns : ns = []
      · simpa [hns, joinNames] using hn
      · simp [joinNames_cons n hns, hn, hslash, ih fun m hm => h m (by simp [hm])]
  cases absolute with
  | true => simp [ofNames, hslash, hjoin]
  | false =>
    by_cases hns : ns = []
    · simp [ofNames, hns, hdot]
    · simpa [ofNames, hns] using hjoin

theorem ofNames_concat (hne : ns ≠ []) (n : String) :
    ofNames absolute (ns ++ [n]) = ofNames absolute ns ++ "/" ++ n := by
  have hjoin : joinNames (ns ++ [n]) = joinNames ns ++ "/" ++ n := by
    rw [joinNames_append hne (by simp)]
    simp [joinNames]
  cases absolute <;> simp [ofNames, hjoin, hne, String.append_assoc]

/-- Names from which nothing can be cancelled: parents stand in front, and an absolute path has none. -/
def Normal (absolute : Bool) (ns : List String) : Prop :=
  ∃ k rest, ns = List.replicate k ".." ++ rest ∧ ".." ∉ rest ∧ (absolute = true → k = 0)

theorem descend_of_ne {n : String} (h : n ≠ "..") (above : List String) :
    descend absolute above n = n :: above := if_neg h

theorem foldl_descend_of_plain (above : List String) (h : ".." ∉ ms) :
    ms.foldl (descend absolute) above = ms.reverse ++ above := by
  induction ms generalizing above with
  | nil => rfl
  | cons m ms ih =>
    obtain ⟨hm, hms⟩ := not_or.mp (List.mem_cons.not.mp h)
    rw [List.foldl_cons, descend_of_ne (Ne.symm hm), ih _ hms]
    simp

theorem normalize_append_of_plain (ns : List String) (h : ".." ∉ ms) :
    normalize absolute (ns ++ ms) = normalize absolute ns ++ ms := by
  rw [normalize, List.foldl_append, foldl_descend_of_plain _ h, List.reverse_append, List.reverse_reverse]
  rfl

theorem mem_descend {above : List String} {n m : String} (h : n ∈ descend absolute above m) :
    n = m ∨ n ∈ above := by
  unfold descend at h
  by_cases hm : m = ".."
  · rw [if_pos hm] at h
    cases above with
    | nil =>
      cases absolute with
      | true => simp at h
      | false => exact Or.inl (by simpa [hm] using h)
    | cons last rest =>
      by_cases hlast : last = ".."
      · simpa [hlast, hm] using h
      · simp only [hlast, if_false] at h
        simp [h]
  · simpa [hm] using h

theorem mem_of_mem_normalize {n : String} (h : n ∈ normalize absolute ns) : n ∈ ns := by
  induction ns using List.reverseRecOn with
  | nil => exact h
  | append_singleton ns m ih =>
    have hlast : n ∈ descend absolute (ns.foldl (descend absolute) []) m := by simpa [normalize] using h
    rcases mem_descend hlast with rfl | hmem
    · simp
    · simp [ih (List.mem_reverse.mpr hmem)]

theorem Normal.append (h : Normal absolute ns) (hms : ".." ∉ ms) : Normal absolute (ns ++ ms) := by
  obtain ⟨k, rest, rfl, hrest, hk⟩ := h
  exact ⟨k, rest ++ ms, by simp, by simp [hrest, hms], hk⟩

theorem Normal.dropLast {n : String} (h : Normal absolute (ns ++ [n])) : Normal absolute ns := by
  obtain ⟨k, rest, heq, hrest, hk⟩ := h
  cases rest using List.reverseRecOn with
  | nil =>
    cases k with
    | zero => simp at heq
    | succ k =>
      rw [List.append_nil, List.replicate_succ'] at heq
      refine ⟨k, [], by simpa using (List.append_inj' heq rfl).1, by simp, fun ha => ?_⟩
      have := hk ha
      omega
  | append_singleton front last _ =>
    rw [← List.append_assoc] at heq
    exact ⟨k, front, (List.append_inj' heq rfl).1, fun hmem => hrest (by simp [hmem]), hk⟩

theorem Normal.parents (h : Normal absolute (ns ++ [".."])) :
    absolute = false ∧ ∃ k, ns ++ [".."] = List.replicate k ".." := by
  obtain ⟨k, rest, heq, hrest, hk⟩ := h
  cases rest using List.reverseRecOn with
  | nil =>
    refine ⟨?_, k, by simpa using heq⟩
    cases absolute with
    | true => simp [hk rfl] at heq
    | false => rfl
  | append_singleton front last _ =>
    rw [← List.append_assoc] at heq
    have hlast : [".."] = [last] := (List.append_inj' heq rfl).2
    exact absurd (by simp [← List.cons.inj hlast]) hrest

theorem normal_descend {above : List String} (h : Normal absolute above.reverse) (n : String) :
    Normal absolute (descend absolute above n).reverse := by
  by_cases hn : n = ".."
  · unfold descend
    rw [if_pos hn]
    cases above with
    | nil =>
      cases absolute with
      | true => exact h
      | false => exact ⟨1, [], rfl, by simp, fun ha => by simp at ha⟩
    | cons last rest =>
      rw [List.reverse_cons] at h
      by_cases hlast : last = ".."
      · subst hlast
        obtain ⟨rfl, k, hk⟩ := h.parents
        refine ⟨k + 1, [], ?_, by simp, fun ha => by simp at ha⟩
        simp [hk, List.replicate_succ']
      · simpa [hlast] using h.dropLast
  · rw [descend_of_ne hn, List.reverse_cons]
    exact h.append (by simpa using Ne.symm hn)

theorem normal_normalize (absolute : Bool) (ns : List String) : Normal absolute (normalize absolute ns) := by
  induction ns using List.reverseRecOn with
  | nil => exact ⟨0, [], rfl, by simp, fun _ => rfl⟩
  | append_singleton ns n ih =>
    have hstep : Normal absolute (descend absolute (ns.foldl (descend absolute) []) n).reverse :=
      normal_descend ih n
    simpa [normalize] using hstep

theorem foldl_descend_parents (k : Nat) (j : Nat) :
    (List.replicate k "..").foldl (descend false) (List.replicate j "..") = List.replicate (k + j) ".." := by
  induction k generalizing j with
  | zero => simp
  | succ k ih =>
    have hstep : descend false (List.replicate j "..") ".." = List.replicate (j + 1) ".." := by
      cases j <;> simp [descend, List.replicate_succ]
    rw [List.replicate_succ, List.foldl_cons, hstep, ih]
    congr 1
    omega

theorem Normal.not_mem (h : Normal true ns) : ".." ∉ ns := by
  obtain ⟨k, rest, rfl, hrest, hk⟩ := h
  simpa [hk rfl] using hrest

theorem normalize_concat_parent (ns : List String) :
    normalize true (ns ++ [".."]) = (normalize true ns).dropLast := by
  have hplain : ".." ∉ ns.foldl (descend true) [] := by
    simpa [normalize] using (normal_normalize true ns).not_mem
  rw [normalize, normalize, List.foldl_append, List.foldl_cons, List.foldl_nil]
  cases hfold : ns.foldl (descend true) [] with
  | nil => rfl
  | cons last rest =>
    have hlast : last ≠ ".." := fun heq => hplain (by simp [hfold, heq])
    simp [descend, hlast]

theorem normalize_parents (h : ".." ∉ ns) (k : Nat) :
    normalize true (ns ++ List.replicate k "..") = ns.take (ns.length - k) := by
  have hup : ∀ above : List String, ".." ∉ above →
      (List.replicate k "..").foldl (descend true) above = above.drop k := by
    induction k with
    | zero => simp
    | succ k ih =>
      intro above habove
      have hstep : descend true above ".." = above.tail := by
        cases above with
        | nil => rfl
        | cons last rest =>
          have hlast : last ≠ ".." := fun heq => habove (by simp [heq])
          simp [descend, hlast]
      rw [List.replicate_succ, List.foldl_cons, hstep, ih _ fun hmem => habove (List.mem_of_mem_tail hmem),
        List.drop_tail]
  rw [normalize, List.foldl_append, foldl_descend_of_plain [] h, List.append_nil,
    hup _ (by simpa using h), List.drop_reverse, List.reverse_reverse]

theorem Normal.normalize_eq (h : Normal absolute ns) : normalize absolute ns = ns := by
  obtain ⟨k, rest, rfl, hrest, hk⟩ := h
  rw [normalize_append_of_plain _ hrest]
  cases absolute with
  | true => simp [hk rfl, normalize]
  | false =>
    have hparents := foldl_descend_parents k 0
    simp only [List.replicate_zero, Nat.add_zero] at hparents
    simp [normalize, hparents]

theorem foldl_descend_reverse (start above : List String) (n : String) :
    (descend false above n).reverse.foldl (descend true) start =
      descend true (above.reverse.foldl (descend true) start) n := by
  by_cases hn : n = ".."
  · subst hn
    cases above with
    | nil => simp [descend]
    | cons last rest =>
      by_cases hlast : last = ".."
      · simp [descend, hlast]
      · simp [descend, hlast]
  · simp [descend, hn]

/-- Below an absolute path it does not matter whether a path was normalized before. -/
theorem foldl_descend_normalize (above ns : List String) :
    (normalize false ns).foldl (descend true) above = ns.foldl (descend true) above := by
  induction ns using List.reverseRecOn with
  | nil => rfl
  | append_singleton ns n ih =>
    rw [List.foldl_append, ← ih, normalize, List.foldl_append]
    exact foldl_descend_reverse above _ n

theorem normalize_append_normalize (above ns : List String) :
    normalize true (above ++ normalize false ns) = normalize true (above ++ ns) := by
  simp only [normalize, List.foldl_append]
  have hfold := foldl_descend_normalize (above.foldl (descend true) []) ns
  simp only [normalize] at hfold
  rw [hfold]

structure Canonical (absolute : Bool) (ns : List String) : Prop where
  isName : ∀ n ∈ ns, IsName n
  normal : Normal absolute ns

theorem Canonical.append (h : Canonical absolute ns) (hms : ∀ m ∈ ms, IsName m) (hplain : ".." ∉ ms) :
    Canonical absolute (ns ++ ms) where
  isName n hn := by
    rcases List.mem_append.mp hn with hn | hn
    · exact h.isName n hn
    · exact hms n hn
  normal := h.normal.append hplain

theorem isName_of_mem_normalize {path n : String} (h : n ∈ normalize absolute (names path)) : IsName n :=
  isName_of_mem_names (mem_of_mem_normalize h)

theorem names_clean (path : String) : names (clean path) = normalize (isAbsolute path) (names path) :=
  names_ofNames fun _ h => isName_of_mem_normalize h

theorem clean_ne_empty (path : String) : clean path ≠ "" :=
  ofNames_ne_empty fun _ h => isName_of_mem_normalize h

theorem normal_of_clean {path : String} (h : clean path = path) : Normal (isAbsolute path) (names path) := by
  have hnames := names_clean path
  rw [h] at hnames
  rw [hnames]
  exact normal_normalize _ _

theorem eq_ofNames_of_clean {path : String} (h : clean path = path) :
    path = ofNames (isAbsolute path) (names path) := by
  have hnames := names_clean path
  rw [h] at hnames
  rw [hnames]
  exact h.symm

theorem clean_ofNames (h : ∀ n ∈ ns, IsName n) (hn : Normal absolute ns) :
    clean (ofNames absolute ns) = ofNames absolute ns := by
  rw [clean, isAbsolute_ofNames h, names_ofNames h, hn.normalize_eq]

theorem clean_clean (path : String) : clean (clean path) = clean path :=
  clean_ofNames (fun _ h => isName_of_mem_normalize h) (normal_normalize _ _)

theorem join_pair {a : String} (b : String) (h : a ≠ "") :
    join [a, b] = ofNames (isAbsolute a) (normalize (isAbsolute a) (names a ++ names b)) := by
  have hjoin : join [a, b] = clean (a ++ "/" ++ b) := by simp [join, h]
  rw [hjoin, clean, names_append_slash, String.append_assoc, isAbsolute_append _ h]

/-- The shortest path of what some names lead to from a path. -/
def below (path : String) (ms : List String) : String :=
  ofNames (isAbsolute path) (normalize (isAbsolute path) (names path) ++ ms)

theorem below_nil (path : String) : below path [] = clean path := by simp [below, clean]

theorem join_joinNames {a : String} (h : a ≠ "") (hm : ∀ m ∈ ms, IsName m) (hplain : ".." ∉ ms) :
    join [a, joinNames ms] = below a ms := by
  rw [join_pair _ h, names_joinNames hm, normalize_append_of_plain _ hplain, below]

theorem canonical_normalize (path : String) :
    Canonical (isAbsolute path) (normalize (isAbsolute path) (names path)) :=
  ⟨fun _ h => isName_of_mem_normalize h, normal_normalize _ _⟩

theorem Canonical.below_ofNames (h : Canonical absolute ns) (ms : List String) :
    below (ofNames absolute ns) ms = ofNames absolute (ns ++ ms) := by
  rw [below, isAbsolute_ofNames h.isName, names_ofNames h.isName, h.normal.normalize_eq]

theorem canonical_of_clean {path : String} (h : clean path = path) : Canonical (isAbsolute path) (names path) :=
  ⟨fun _ hn => isName_of_mem_names hn, normal_of_clean h⟩

theorem below_of_clean {path : String} (h : clean path = path) (ms : List String) :
    below path ms = ofNames (isAbsolute path) (names path ++ ms) := by
  rw [below, (normal_of_clean h).normalize_eq]

theorem absolute_eq {workingDirectory : String} (h : isAbsolute workingDirectory = true) (path : String) :
    Path.absolute workingDirectory path = ofNames true
      (normalize true (if isAbsolute path then names path else names workingDirectory ++ names path)) := by
  have hne : workingDirectory ≠ "" := by
    rintro rfl
    contradiction
  unfold Path.absolute
  split
  · rename_i hp
    rw [clean, hp]
  · rw [join_pair _ hne, h]

theorem isName_of_mem_absolute {workingDirectory path n : String} (hn : n ∈ normalize true
    (if isAbsolute path then names path else names workingDirectory ++ names path)) : IsName n := by
  have hmem := mem_of_mem_normalize hn
  split at hmem
  · exact isName_of_mem_names hmem
  · rcases List.mem_append.mp hmem with hmem | hmem <;> exact isName_of_mem_names hmem

section Absolute

variable {workingDirectory : String} (h : isAbsolute workingDirectory = true)
include h

theorem names_absolute (path : String) :
    names (Path.absolute workingDirectory path) = normalize true
      (if isAbsolute path then names path else names workingDirectory ++ names path) := by
  rw [absolute_eq h]
  exact names_ofNames fun _ hn => isName_of_mem_absolute hn

theorem isAbsolute_absolute (path : String) : isAbsolute (Path.absolute workingDirectory path) = true := by
  rw [absolute_eq h]
  exact isAbsolute_ofNames fun _ hn => isName_of_mem_absolute hn

theorem clean_absolute (path : String) :
    clean (Path.absolute workingDirectory path) = Path.absolute workingDirectory path := by
  rw [absolute_eq h]
  exact clean_ofNames (fun _ hn => isName_of_mem_absolute hn) (normal_normalize _ _)

/-- An absolute path depends on the meaning of a path only. -/
theorem absolute_below (path : String) (hm : ∀ m ∈ ms, IsName m) (hplain : ".." ∉ ms) :
    Path.absolute workingDirectory (below path ms) = below (Path.absolute workingDirectory path) ms := by
  have hnames := ((canonical_normalize path).append hm hplain).isName
  have hcanonical := canonical_normalize (Path.absolute workingDirectory path)
  rw [below, below, absolute_eq h, isAbsolute_ofNames hnames, names_ofNames hnames, isAbsolute_absolute h,
    names_absolute h, (normal_normalize true _).normalize_eq]
  cases isAbsolute path with
  | true =>
    simp only [if_true]
    rw [normalize_append_of_plain _ hplain, (normal_normalize true _).normalize_eq]
  | false =>
    simp only [Bool.false_eq_true, if_false]
    rw [← List.append_assoc, normalize_append_of_plain _ hplain, normalize_append_normalize]

theorem absolute_clean (path : String) :
    Path.absolute workingDirectory (clean path) = Path.absolute workingDirectory path := by
  have hbelow : Path.absolute workingDirectory (below path []) =
      below (Path.absolute workingDirectory path) [] := absolute_below h path (by simp) (by simp)
  rwa [below_nil, below_nil, clean_absolute h] at hbelow

end Absolute

theorem directory_append_slash (a : String) {n : String} (h : '/' ∉ n.toList) :
    directory (a ++ "/" ++ n) = clean (a ++ "/") := by
  have hslash : ∀ c ∈ n.toList.reverse, decide (c ≠ '/') = true := by
    intro c hc
    apply decide_eq_true
    rintro rfl
    exact h (by simpa using hc)
  have hchars : (a ++ "/" ++ n).toList.reverse = n.toList.reverse ++ '/' :: a.toList.reverse := by simp
  have htext : String.ofList (a.toList ++ ['/']) = a ++ "/" := by simp [String.ofList_append]
  rw [directory, hchars, List.dropWhile_append_of_pos hslash]
  simp [htext]

theorem clean_append_slash {a : String} (h : a ≠ "") : clean (a ++ "/") = clean a := by
  have hnames : names (a ++ "/") = names a := by simpa using names_append_slash a ""
  rw [clean, clean, isAbsolute_append _ h, hnames]

theorem directory_of_no_slash {n : String} (h : '/' ∉ n.toList) : directory n = "." := by
  have hall : n.toList.reverse.dropWhile (· ≠ '/') = [] := by
    refine List.dropWhile_eq_nil_iff.mpr fun c hc => decide_eq_true ?_
    rintro rfl
    exact h (by simpa using hc)
  rw [directory, hall]
  decide +kernel

theorem directory_ofNames {n : String} (hns : Canonical absolute ns) (hn : IsName n) :
    directory (ofNames absolute (ns ++ [n])) = ofNames absolute ns := by
  by_cases hnil : ns = []
  · subst hnil
    cases absolute with
    | true =>
      have htext : ofNames true ([] ++ [n]) = "" ++ "/" ++ n := by simp [ofNames, joinNames]
      rw [htext, directory_append_slash _ hn.no_slash]
      decide +kernel
    | false =>
      have htext : ofNames false ([] ++ [n]) = n := by simp [ofNames, joinNames]
      rw [htext, directory_of_no_slash hn.no_slash]
      decide +kernel
  · rw [ofNames_concat hnil, directory_append_slash _ hn.no_slash,
      clean_append_slash (ofNames_ne_empty hns.isName), clean_ofNames hns.isName hns.normal]

theorem directory_ne_empty (path : String) : directory path ≠ "" := by
  rw [directory]
  exact clean_ne_empty _

/-- A path is the text up to its last slash and a last piece. -/
structure Split (path front last : String) : Prop where
  eq_append : path = front ++ last
  no_slash : '/' ∉ last.toList
  directory_eq : directory path = clean front
  front_eq : front = "" ∨ ∃ text, front = text ++ "/"

theorem exists_split (path : String) : ∃ front last, Split path front last := by
  have hchars : path.toList = (path.toList.reverse.dropWhile (· ≠ '/')).reverse ++
      (path.toList.reverse.takeWhile (· ≠ '/')).reverse := by
    rw [← List.reverse_append, List.takeWhile_append_dropWhile, List.reverse_reverse]
  refine ⟨.ofList (path.toList.reverse.dropWhile (· ≠ '/')).reverse,
    .ofList (path.toList.reverse.takeWhile (· ≠ '/')).reverse, ?_, ?_, rfl, ?_⟩
  · apply String.toList_inj.mp
    simpa using hchars
  · intro hmem
    have hslash := List.mem_takeWhile_imp (by simpa using hmem : '/' ∈ path.toList.reverse.takeWhile (· ≠ '/'))
    simp at hslash
  · cases hdrop : path.toList.reverse.dropWhile (· ≠ '/') with
    | nil => exact .inl rfl
    | cons c cs =>
      have hc : c = '/' := by
        have hhead := List.head_dropWhile_not (· ≠ '/') (l := path.toList.reverse) (by rw [hdrop]; simp)
        simp only [hdrop, List.head_cons] at hhead
        simpa using hhead
      exact .inr ⟨.ofList cs.reverse, by simp [hc, String.ofList_append]⟩

theorem Split.isAbsolute_eq {path front last : String} (h : Split path front last) :
    isAbsolute path = isAbsolute front := by
  rw [h.eq_append]
  by_cases hfront : front = ""
  · subst hfront
    cases hlast : last.toList with
    | nil => simp [isAbsolute, hlast]
    | cons c cs =>
      have hc : c ≠ '/' := fun heq => h.no_slash (by simp [hlast, heq])
      simp [isAbsolute, hlast, hc]
  · exact isAbsolute_append last hfront

theorem isAbsolute_clean (path : String) : isAbsolute (clean path) = isAbsolute path :=
  isAbsolute_ofNames (canonical_normalize path).isName

theorem isAbsolute_directory (path : String) : isAbsolute (directory path) = isAbsolute path := by
  obtain ⟨front, last, h⟩ := exists_split path
  rw [h.directory_eq, isAbsolute_clean, h.isAbsolute_eq]

theorem Split.names_eq {path front last : String} (h : Split path front last) :
    names path = names front ++ names last := by
  rw [h.eq_append]
  rcases h.front_eq with rfl | ⟨text, rfl⟩
  · simp
  · have hfront := names_append_slash text ""
    rw [String.append_empty] at hfront
    rw [names_append_slash, hfront]
    simp

theorem Split.last_cases {path front last : String} (h : Split path front last) :
    names last = [] ∨ names last = [".."] ∨ IsName last ∧ last ≠ ".." := by
  by_cases hempty : last = ""
  · exact .inl (by rw [hempty]; rfl)
  by_cases hdot : last = "."
  · exact .inl (by rw [hdot]; exact names_dot)
  have hname : IsName last := ⟨hempty, hdot, h.no_slash⟩
  by_cases hparent : last = ".."
  · exact .inr (.inl (by rw [hname.names_eq, hparent]))
  · exact .inr (.inr ⟨hname, hparent⟩)

theorem extension_append_slash (a : String) {n : String} (h : '/' ∉ n.toList) :
    extension (a ++ "/" ++ n) = extension n := by
  have hchars : (a ++ "/" ++ n).toList = a.toList ++ '/' :: n.toList := by simp
  have hlast : (pieces (a ++ "/" ++ n).toList).getLastD [] = n.toList := by
    rw [hchars, pieces_append_slash, pieces_of_not_mem h]
    simp
  have hself : (pieces n.toList).getLastD [] = n.toList := by
    rw [pieces_of_not_mem h]
    rfl
  simp only [extension, hlast, hself]

theorem extension_ofNames {n : String} (hn : IsName n) :
    extension (ofNames absolute (ns ++ [n])) = extension n := by
  by_cases hnil : ns = []
  · subst hnil
    cases absolute with
    | true => simpa [ofNames, joinNames] using extension_append_slash "" hn.no_slash
    | false => simp [ofNames, joinNames]
  · rw [ofNames_concat hnil, extension_append_slash _ hn.no_slash]

theorem extension_append_joinNames (a : String) {n : String} (hn : IsName n) :
    extension (a ++ "/" ++ joinNames (ns ++ [n])) = extension n := by
  by_cases hnil : ns = []
  · subst hnil
    simpa [joinNames] using extension_append_slash a hn.no_slash
  · have hjoin : joinNames (ns ++ [n]) = joinNames ns ++ "/" ++ n := by
      rw [joinNames_append hnil (by simp)]
      simp [joinNames]
    rw [hjoin, ← String.append_assoc, ← String.append_assoc, extension_append_slash _ hn.no_slash]

theorem takeWhile_zip_append (ns ms : List String) :
    ((ns.zip (ns ++ ms)).takeWhile fun (x, y) => x = y).length = ns.length := by
  induction ns with
  | nil => simp
  | cons n ns ih => simpa using ih

theorem relative?_eq {source target : String} (hs : isAbsolute source = true) (ht : isAbsolute target = true)
    (hclean : clean source = source) (htarget : names target = names source ++ ms) (hplain : ".." ∉ ms) :
    relative? source target = some (ofNames false ms) := by
  have hnormal := normal_of_clean hclean
  rw [hs] at hnormal
  have hsource : normalize true (names source) = names source := hnormal.normalize_eq
  have hboth : normalize true (names target) = names source ++ ms := by
    rw [htarget, normalize_append_of_plain _ hplain, hsource]
  simp only [relative?, hs, ht, hsource, hboth, takeWhile_zip_append]
  simp

theorem isPart_eq_true_iff {part cs : List Char} : isPart part cs = true ↔ part <:+: cs := by
  induction cs with
  | nil => simp [isPart]
  | cons c cs ih => rw [isPart, Bool.or_eq_true, List.isPrefixOf_iff_prefix, ih, List.infix_cons_iff]

theorem mentions_eq_true_iff {ignored : List String} {path : String} :
    mentions ignored path = true ↔ ∃ name ∈ ignored, name ≠ "" ∧ name.toList <:+: path.toList := by
  simp [mentions, isPart_eq_true_iff]

theorem mentions_of_isPrefix {ignored : List String} {path longer : String}
    (h : path.toList <+: longer.toList) (hpath : mentions ignored path = true) :
    mentions ignored longer = true := by
  obtain ⟨name, hname, hne, hpart⟩ := mentions_eq_true_iff.mp hpath
  exact mentions_eq_true_iff.mpr ⟨name, hname, hne, hpart.trans h.isInfix⟩

theorem mentions_dot {ignored : List String} : mentions ignored "." = true ↔ "." ∈ ignored := by
  rw [mentions_eq_true_iff]
  constructor
  · rintro ⟨name, hname, hne, hpart⟩
    have hchars : name.toList <:+: ['.'] := hpart
    rcases (List.infix_singleton_iff _ _).mp hchars with hnil | hone
    · exact absurd (by simpa using hnil) hne
    · have heq : name = "." := String.toList_inj.mp hone
      rwa [← heq]
  · exact fun hmem => ⟨".", hmem, by decide, List.infix_rfl⟩

/-- The text of a path begins with the text of any path above it. The path of the working directory itself is
the exception. -/
theorem ofNames_isPrefix (ms : List String) (h : absolute = true ∨ ns ≠ []) :
    (ofNames absolute ns).toList <+: (ofNames absolute (ns ++ ms)).toList := by
  by_cases hms : ms = []
  · simp [hms]
  by_cases hns : ns = []
  · subst hns
    have habs : absolute = true := by simpa using h
    subst habs
    simp [ofNames, joinNames]
  · have hjoin : (joinNames ns).toList <+: (joinNames (ns ++ ms)).toList := by
      rw [joinNames_append hns hms]
      simp
    cases absolute with
    | true => simpa [ofNames, List.cons_prefix_cons] using hjoin
    | false => simpa [ofNames, hns] using hjoin

theorem prefix_below {path : String} (h : clean path = path) (hdot : path ≠ ".") (ms : List String) :
    path.toList <+: (below path ms).toList := by
  have hpath : path = ofNames (isAbsolute path) (normalize (isAbsolute path) (names path)) := h.symm
  have hne : isAbsolute path = true ∨ normalize (isAbsolute path) (names path) ≠ [] := by
    cases habs : isAbsolute path with
    | true => exact .inl rfl
    | false =>
      refine .inr fun hnil => hdot ?_
      rw [hpath, habs, hnil]
      rfl
  have hpre := ofNames_isPrefix ms hne
  rwa [← hpath] at hpre

theorem utf8ByteSize_le_of_isPrefix {a b : String} (h : a.toList <+: b.toList) :
    a.utf8ByteSize ≤ b.utf8ByteSize := by
  obtain ⟨rest, hrest⟩ := h
  have hb : b = a ++ String.ofList rest := by
    apply String.toList_inj.mp
    simp [← hrest]
  rw [hb, String.utf8ByteSize_append]
  omega

end FunctionLength.Path
