import FunctionLength.Proofs.Agreement
import FunctionLength.Proofs.Independence
import FunctionLength.Watch.Watcher
import Mathlib.Data.Set.Basic

/-!
The roots that are watched for path arguments. They depend on which arguments there are, but not on how often and in
which order they are given, except for the names by which roots are called and the order of the roots. What is of
interest in a root lies right inside of it, since a path that leads to something other than a directory ends with its
name.
-/

namespace FunctionLength.Path

theorem base_append_slash (a : String) {n : String} (hn : IsName n) : base (a ++ "/" ++ n) = n := by
  have hchars : (a ++ "/" ++ n).toList = a.toList ++ '/' :: n.toList := by simp
  have hne : a ++ "/" ++ n ≠ "" := by simp
  have hlast : n.toList ≠ [] := by simpa using hn.ne_empty
  rw [base, if_neg hne, hchars, pieces_append_slash, pieces_of_not_mem hn.no_slash]
  simp [hlast]

/-- A path lies right inside of a directory. An entry of the directory is reported by the text made of both, which
is the path itself unless the directory is the root of the file system. -/
structure RightInside (directory file : String) : Prop where
  directory_eq : Path.directory file = directory
  join_eq : join [directory, base file] = file
  append_eq : directory ++ "/" ++ base file = if directory = "/" then "/" ++ file else file

theorem rightInside_below {directory name : String} (hclean : clean directory = directory)
    (habsolute : isAbsolute directory = true) (hname : IsName name) (hne : name ≠ "..") :
    RightInside directory (below directory [name]) := by
  have hcanonical := canonical_of_clean hclean
  have hself := eq_ofNames_of_clean hclean
  rw [habsolute] at hcanonical hself
  have hfile : below directory [name] = ofNames true (names directory ++ [name]) := by
    rw [below_of_clean hclean, habsolute]
  have hempty : directory ≠ "" := by
    rintro rfl
    contradiction
  have happend : directory ≠ "/" → below directory [name] = directory ++ "/" ++ name := by
    intro hroot
    have hnil : names directory ≠ [] := by
      intro hnil
      rw [hnil] at hself
      exact hroot hself
    rw [hfile, ofNames_concat hnil, ← hself]
  have htop : directory = "/" → below directory [name] = "/" ++ name := by
    rintro rfl
    rw [hfile]
    rfl
  have hbase : base (below directory [name]) = name := by
    by_cases hroot : directory = "/"
    · have htext : below directory [name] = "" ++ "/" ++ name := by
        rw [htop hroot, String.empty_append]
      rw [htext, base_append_slash _ hname]
    · rw [happend hroot, base_append_slash _ hname]
  refine ⟨?_, ?_, ?_⟩
  · rw [hfile, directory_ofNames hcanonical hname, ← hself]
  · have hjoin : join [directory, joinNames [name]] = below directory [name] :=
      join_joinNames hempty (by simpa using hname) (by simpa using Ne.symm hne)
    rw [hbase]
    exact hjoin
  · rw [hbase]
    by_cases hroot : directory = "/"
    · rw [if_pos hroot, htop hroot, hroot, String.append_assoc]
    · rw [if_neg hroot, happend hroot]

theorem Split.clean_eq {path front last : String} (h : Split path front last) (hname : IsName last)
    (hne : last ≠ "..") : clean path = below front [last] := by
  rw [clean, below, h.isAbsolute_eq, h.names_eq, hname.names_eq,
    normalize_append_of_plain _ (by simpa using Ne.symm hne)]

end FunctionLength.Path

namespace FunctionLength.FileSystem

variable {fs : FileSystem} {l : Location}

/-- Names that can only lead to a directory: none, or such that end with a directory itself or its parent. -/
def EndsUp (ns : List String) : Prop := ∀ last ∈ ns.getLast?, last = "." ∨ last = ".."

theorem EndsUp.tail {name : String} {rest : List String} (h : EndsUp (name :: rest)) : EndsUp rest := by
  cases rest with
  | nil => exact fun last hlast => by simp at hlast
  | cons n rest => exact fun last hlast => h last (by simpa using hlast)

theorem EndsUp.ne_nil {name : String} {rest : List String} (h : EndsUp (name :: rest)) (hdot : name ≠ ".")
    (hparent : name ≠ "..") : rest ≠ [] := by
  rintro rfl
  rcases h name rfl with rfl | rfl
  · exact hdot rfl
  · exact hparent rfl

theorem EndsUp.append {rest : List String} (h : EndsUp rest) (hne : rest ≠ []) (front : List String) :
    EndsUp (front ++ rest) := by
  intro last hlast
  rw [List.getLast?_append_of_ne_nil front hne] at hlast
  exact h last hlast

theorem exists_directory_dropLast {entries : Entries} (h : fs.at? l = some (.directory entries)) :
    ∃ above, fs.at? l.dropLast = some (.directory above) := by
  rcases List.eq_nil_or_concat l with rfl | ⟨front, name, rfl⟩
  · exact ⟨entries, h⟩
  · rw [List.concat_eq_append] at h ⊢
    rw [List.dropLast_concat]
    exact exists_directory_of_append h

/-- What comes of such names: a directory, or such names to follow from a directory. -/
def Progress.EndsUp (fs : FileSystem) : Progress → Prop
  | .arrived _ e => e.isDirectory = true
  | .detour l names => (∃ entries, fs.at? l = some (.directory entries)) ∧ FileSystem.EndsUp names
  | .failed _ => True

theorem endsUp_advance {ns : List String} (hns : EndsUp ns) {entries : Entries}
    (hl : fs.at? l = some (.directory entries)) : (fs.advance true l ns).EndsUp fs := by
  induction ns generalizing l entries with
  | nil =>
    rw [advance, hl]
    rfl
  | cons name rest ih =>
    rw [advance]
    by_cases hdot : name = "."
    · rw [if_pos hdot]
      exact ih hns.tail hl
    rw [if_neg hdot]
    by_cases hparent : name = ".."
    · rw [if_pos hparent]
      obtain ⟨above, habove⟩ := exists_directory_dropLast hl
      exact ih hns.tail habove
    rw [if_neg hparent]
    -- A proper name is not the last one, so that it has to be that of a directory or of a link.
    have hne := hns.ne_nil hdot hparent
    have hrest : rest.isEmpty = false := List.isEmpty_eq_false_iff.mpr hne
    by_cases hsize : 255 < name.utf8ByteSize
    · rw [if_pos hsize]
      trivial
    rw [if_neg hsize, lookup_eq_at?]
    cases hat : fs.at? (l ++ [name]) with
    | none => trivial
    | some e =>
      cases e with
      | directory inner => exact ih hns.tail hat
      | link target =>
        simp only [hrest, Bool.false_and, Bool.false_eq_true, if_false]
        refine ⟨?_, hns.tail.append hne _⟩
        split
        · exact ⟨fs.root, rfl⟩
        · exact ⟨entries, hl⟩
      | file content =>
        simp only [hrest, Bool.false_eq_true, if_false]
        trivial
      | special reading =>
        simp only [hrest, Bool.false_eq_true, if_false]
        trivial

theorem isDirectory_of_endsUp {k : Nat} {ns : List String} {l' : Location} {e : Entry} (hns : EndsUp ns)
    (hl : ∃ entries, fs.at? l = some (.directory entries)) (h : fs.resolveFrom true k l ns = .ok (l', e)) :
    e.isDirectory = true := by
  refine resolveFrom_induction (motive := fun _ l ns => EndsUp ns →
    (∃ entries, fs.at? l = some (.directory entries)) → e.isDirectory = true) ?_ ?_ h hns hl
  · rintro k l ns harrived hns ⟨entries, hl⟩
    have hup := endsUp_advance hns hl
    rw [harrived] at hup
    exact hup
  · rintro k l ns l₁ ms hdetour ih hns ⟨entries, hl⟩
    have hup := endsUp_advance hns hl
    rw [hdetour] at hup
    exact ih hup.2 hup.1

theorem chunks_of_no_slash {last : String} (hne : last ≠ "") (h : '/' ∉ last.toList) : chunks last = [last] := by
  simp [chunks, Path.pieces_of_not_mem h, hne]

theorem chunks_split {path front last : String} (h : Path.Split path front last) :
    chunks path = chunks front ++ chunks last := by
  rw [h.eq_append]
  rcases h.front_eq with rfl | ⟨text, rfl⟩
  · simp
  · have hfront := chunks_append_slash text ""
    rw [String.append_empty, chunks_empty, List.append_nil] at hfront
    rw [chunks_append_slash, hfront]

theorem getLast?_steps {path front last : String} (h : Path.Split path front last) (hpath : path ≠ "") :
    (steps path).getLast? = some (if last = "" then "." else last) := by
  by_cases hlast : last = ""
  · rw [if_pos hlast]
    have hfront : path = front := by rw [h.eq_append, hlast, String.append_empty]
    rcases h.front_eq with hempty | ⟨text, htext⟩
    · exact absurd (hfront.trans hempty) hpath
    · have hslash : path.toList.getLast? = some '/' := by simp [hfront, htext]
      rw [steps, if_pos hslash]
      simp
  · rw [if_neg hlast]
    have hslash : path.toList.getLast? ≠ some '/' := by
      rw [h.eq_append, String.toList_append, List.getLast?_append]
      cases hend : last.toList.getLast? with
      | none => exact absurd (by simpa using hend) hlast
      | some c =>
        rintro hc
        cases hc
        exact h.no_slash (List.mem_of_getLast? hend)
    rw [steps_of_last hslash, chunks_split h, chunks_of_no_slash hlast h.no_slash]
    simp

/-- A path that leads to something other than a directory ends with a name. -/
theorem Proper.exists_split (hs : fs.Proper) {path : String} {e : Entry} (h : fs.status path = .ok e)
    (hnot : e.isDirectory = false) :
    ∃ front last, Path.Split path front last ∧ Path.IsName last ∧ last ≠ ".." := by
  obtain ⟨l', hl'⟩ := status_eq_ok_iff.mp h
  obtain ⟨husable, hreach⟩ := resolve_eq_ok_iff.mp hl'
  obtain ⟨front, last, hsplit⟩ := Path.exists_split path
  have horigin : ∃ entries, fs.at? (fs.origin (Path.isAbsolute path)) = some (.directory entries) := by
    rw [origin]
    split
    · exact ⟨fs.root, rfl⟩
    · exact hs.directory
  have hup : ¬ EndsUp (steps path) := by
    intro hup
    rw [isDirectory_of_endsUp hup horigin hreach] at hnot
    contradiction
  rw [EndsUp, getLast?_steps hsplit husable.ne_empty] at hup
  have hlast : last ≠ "" ∧ last ≠ "." ∧ last ≠ ".." := by
    refine ⟨?_, ?_, ?_⟩
    · rintro rfl
      exact hup (by simp)
    · rintro rfl
      exact hup (by simp)
    · rintro rfl
      exact hup (by simp)
  exact ⟨front, last, hsplit, ⟨hlast.1, hlast.2.1, hsplit.no_slash⟩, hlast.2.2⟩

theorem Proper.absolute_split (hs : fs.Proper) {path front last : String} (h : Path.Split path front last)
    (hname : Path.IsName last) (hne : last ≠ "..") :
    fs.absolute path = Path.below (fs.absolute front) [last] := by
  calc fs.absolute path
    _ = fs.absolute (Path.clean path) := (hs.absolute_clean path).symm
    _ = fs.absolute (Path.below front [last]) := by rw [h.clean_eq hname hne]
    _ = Path.below (fs.absolute front) [last] :=
      Path.absolute_below hs.isAbsolute front (by simpa using hname) (by simpa using Ne.symm hne)

theorem Proper.rightInside_absolute (hs : fs.Proper) {path : String} {e : Entry} (h : fs.status path = .ok e)
    (hnot : e.isDirectory = false) :
    Path.RightInside (fs.absolute (Path.directory path)) (fs.absolute path) := by
  obtain ⟨front, last, hsplit, hname, hne⟩ := hs.exists_split h hnot
  rw [hsplit.directory_eq, hs.absolute_clean, hs.absolute_split hsplit hname hne]
  exact Path.rightInside_below (hs.clean_absolute front) (hs.isAbsolute_absolute front) hname hne

end FunctionLength.FileSystem

namespace FunctionLength.Watch
open FunctionLength.FileSystem

/-- A root that stands for all of the given ones with its directory: it is called as the first of them, is of
interest as a whole if one of them is, and has their files otherwise. -/
structure Root.Collects (given : List Root) (r : Root) : Prop where
  display : (given.find? (·.absolute = r.absolute)).map (·.display) = some r.display
  whole : r.only = none ↔ ∃ g ∈ given, g.absolute = r.absolute ∧ g.only = none
  files : ∀ files, r.only = some files → ∀ file, file ∈ files ↔
    ∃ g ∈ given, g.absolute = r.absolute ∧ ∃ own, g.only = some own ∧ file ∈ own

theorem merge_cases (new : Root) (rs : List Root) :
    (new.absolute ∉ rs.map (·.absolute) ∧ merge new rs = rs ++ [new]) ∨
      ∃ front r back only, rs = front ++ r :: back ∧ r.absolute = new.absolute ∧
        merge new rs = front ++ { r with only } :: back ∧
        (only = none ↔ r.only = none ∨ new.only = none) ∧
        ∀ files, only = some files → ∃ a b, r.only = some a ∧ new.only = some b ∧ files = a ++ b := by
  induction rs with
  | nil => exact .inl ⟨by simp, rfl⟩
  | cons first rest ih =>
    rw [merge]
    by_cases hsame : first.absolute = new.absolute
    · rw [if_pos hsame]
      refine .inr ⟨[], first, rest, _, rfl, hsame, rfl, ?_, ?_⟩
      · cases first.only <;> cases new.only <;> simp
      · cases first.only <;> cases new.only <;> simp
    · rw [if_neg hsame]
      rcases ih with ⟨hfresh, heq⟩ | ⟨front, r, back, only, rfl, hr, heq, hnone, hsome⟩
      · exact .inl ⟨by simpa using ⟨Ne.symm hsame, by simpa using hfresh⟩, by rw [heq]; rfl⟩
      · exact .inr ⟨first :: front, r, back, only, rfl, hr, by rw [heq]; rfl, hnone, hsome⟩

theorem Root.Collects.of_ne {given : List Root} {r new : Root} (h : r.Collects given)
    (hne : new.absolute ≠ r.absolute) : r.Collects (given ++ [new]) where
  display := by simp [h.display, hne]
  whole := by simpa [or_and_right, exists_or, hne] using h.whole
  files files hfiles file := by simpa [or_and_right, exists_or, hne] using h.files files hfiles file

theorem Root.Collects.of_fresh {given : List Root} {new : Root} (h : new.absolute ∉ given.map (·.absolute)) :
    new.Collects (given ++ [new]) := by
  have hnot : ∀ g ∈ given, g.absolute ≠ new.absolute := fun g hg heq => h (List.mem_map.mpr ⟨g, hg, heq⟩)
  have hone (P : Root → Prop) : (∃ g ∈ given ++ [new], g.absolute = new.absolute ∧ P g) ↔ P new := by
    constructor
    · rintro ⟨g, hg, heq, hP⟩
      rcases List.mem_append.mp hg with hg | hg
      · exact absurd heq (hnot g hg)
      · rwa [← List.mem_singleton.mp hg]
    · exact fun hP => ⟨new, by simp, rfl, hP⟩
  have hfind : given.find? (·.absolute = new.absolute) = none := by simpa using hnot
  refine ⟨by simp [hfind], (hone (·.only = none)).symm, fun files hfiles file => ?_⟩
  rw [hone fun g => ∃ own, g.only = some own ∧ file ∈ own]
  simp [hfiles]

theorem Root.Collects.joined {given : List Root} {r new : Root} {only : Option (List String)}
    (h : r.Collects given) (hsame : r.absolute = new.absolute)
    (hnone : only = none ↔ r.only = none ∨ new.only = none)
    (hsome : ∀ files, only = some files → ∃ a b, r.only = some a ∧ new.only = some b ∧ files = a ++ b) :
    Root.Collects (given ++ [new]) { r with only } where
  display := by
    have hdisplay := h.display
    obtain ⟨g, hg, hgd⟩ := Option.map_eq_some_iff.mp hdisplay
    simp [hg, hgd]
  whole := by
    show only = none ↔ _
    rw [hnone, h.whole]
    simp [or_and_right, exists_or, hsame]
  files files hfiles file := by
    obtain ⟨a, b, ha, hb, rfl⟩ := hsome files hfiles
    rw [List.mem_append, h.files a ha file]
    simp [or_and_right, exists_or, hsame, hb]

/-- Roots that stand for the given ones, each directory once, in the order in which they were given first. -/
structure Joined (given rs : List Root) : Prop where
  absolutes : rs.map (·.absolute) = (given.map (·.absolute)).eraseDups
  collects : ∀ r ∈ rs, r.Collects given

theorem Joined.merge {given rs : List Root} (h : Joined given rs) (new : Root) :
    Joined (given ++ [new]) (merge new rs) := by
  have hmem : new.absolute ∈ rs.map (·.absolute) ↔ new.absolute ∈ given.map (·.absolute) := by
    rw [h.absolutes, List.mem_eraseDups]
  have hnodup : (rs.map (·.absolute)).Nodup := h.absolutes ▸ Analysis.nodup_eraseDups _
  rcases merge_cases new rs with ⟨hfresh, heq⟩ | ⟨front, r, back, only, rfl, hsame, heq, hnone, hsome⟩
  · have hgiven := mt hmem.mpr hfresh
    rw [heq]
    constructor
    · have hremove : [new.absolute].removeAll (given.map (·.absolute)) = [new.absolute] := by
        simpa [List.removeAll] using hgiven
      simp only [List.map_append, List.map_cons, List.map_nil]
      rw [List.eraseDups_append, hremove, h.absolutes]
      rfl
    · intro r hr
      rcases List.mem_append.mp hr with hr | hr
      · refine (h.collects r hr).of_ne fun hr' => hfresh ?_
        exact List.mem_map.mpr ⟨r, hr, hr'.symm⟩
      · rw [List.mem_singleton.mp hr]
        exact .of_fresh hgiven
  · have hgiven : new.absolute ∈ given.map (·.absolute) := hmem.mp (by simp [← hsame])
    rw [heq]
    constructor
    · have hremove : [new.absolute].removeAll (given.map (·.absolute)) = [] := by
        simpa [List.removeAll] using hgiven
      have habsolutes := h.absolutes
      simp only [List.map_append, List.map_cons, List.map_nil] at habsolutes ⊢
      rw [List.eraseDups_append, hremove, ← habsolutes]
      simp
    · intro s hs
      -- The directories are distinct, so that the other roots are not those that the new one is joined to.
      have hother : ∀ t ∈ front ++ back, t.Collects (given ++ [new]) := by
        intro t ht
        refine (h.collects t ?_).of_ne fun ht' => ?_
        · simp only [List.mem_append, List.mem_cons] at ht ⊢
          tauto
        · rw [List.map_append, List.map_cons, List.nodup_middle, ← List.map_append] at hnodup
          exact (List.nodup_cons.mp hnodup).1 (List.mem_map.mpr ⟨t, ht, by rw [hsame, ht']⟩)
      rcases List.mem_append.mp hs with hs | hs
      · exact hother s (List.mem_append_left _ hs)
      · rcases List.mem_cons.mp hs with rfl | hs
        · exact (h.collects r (by simp)).joined hsame hnone hsome
        · exact hother s (List.mem_append_right _ hs)

theorem Joined.foldl_merge {given rs : List Root} (h : Joined given rs) (new : List Root) :
    Joined (given ++ new) (new.foldl (fun rs r => Watch.merge r rs) rs) := by
  induction new generalizing given rs with
  | nil => simpa using h
  | cons r new ih => simpa using ih (h.merge r)

theorem joined_roots (fs : FileSystem) (paths : List String) :
    Joined (paths.filterMap (root? fs)) (roots fs paths) := by
  have hnil : Joined [] [] := ⟨rfl, by simp⟩
  simpa [roots] using hnil.foldl_merge (paths.filterMap (root? fs))

def DirectoryArgument (fs : FileSystem) (path : String) : Prop := ∃ entries, fs.status path = .ok (.directory entries)

def FileArgument (fs : FileSystem) (path : String) : Prop := ∃ e, fs.status path = .ok e ∧ e.isDirectory = false

theorem only_of_map {fs : FileSystem} {path : String} {r : Root}
    (h : (fs.absolute? (Path.directory path)).map (fun absolute =>
      (⟨absolute, Path.directory path, some [(fs.absolute? path).getD ""]⟩ : Root)) = some r) :
    fs.absolute? (Path.directory path) = some r.absolute ∧ r.display = Path.directory path ∧
      ∃ file, fs.absolute? path = some file ∧ r.only = some [file] := by
  obtain ⟨full, hfull, rfl⟩ := Option.map_eq_some_iff.mp h
  cases hfile : fs.absolute? path with
  | none =>
    rw [absolute?_directory_eq_none_iff.mpr hfile] at hfull
    cases hfull
  | some file => exact ⟨hfull, rfl, file, rfl, rfl⟩

theorem root?_cases {fs : FileSystem} {path : String} {r : Root} (h : root? fs path = some r) :
    (DirectoryArgument fs path ∧ fs.absolute? path = some r.absolute ∧ r.display = path ∧ r.only = none) ∨
      FileArgument fs path ∧ fs.absolute? (Path.directory path) = some r.absolute ∧
        r.display = Path.directory path ∧ ∃ file, fs.absolute? path = some file ∧ r.only = some [file] := by
  unfold root? at h
  cases hstatus : fs.status path with
  | error e => simp [hstatus] at h
  | ok e =>
    simp only [hstatus] at h
    cases e with
    | directory entries =>
      obtain ⟨full, hfull, rfl⟩ := Option.map_eq_some_iff.mp h
      exact .inl ⟨⟨entries, hstatus⟩, hfull, rfl, rfl⟩
    | file content => exact .inr ⟨⟨_, hstatus, rfl⟩, only_of_map h⟩
    | link target => exact .inr ⟨⟨_, hstatus, rfl⟩, only_of_map h⟩
    | special reading => exact .inr ⟨⟨_, hstatus, rfl⟩, only_of_map h⟩

theorem root?_of_directoryArgument {fs : FileSystem} {path full : String} (h : DirectoryArgument fs path)
    (hfull : fs.absolute? path = some full) : root? fs path = some ⟨full, path, none⟩ := by
  obtain ⟨entries, hstatus⟩ := h
  simp [root?, hstatus, hfull]

theorem root?_of_fileArgument {fs : FileSystem} {path full file : String} (h : FileArgument fs path)
    (hfull : fs.absolute? (Path.directory path) = some full) (hfile : fs.absolute? path = some file) :
    root? fs path = some ⟨full, Path.directory path, some [file]⟩ := by
  obtain ⟨e, hstatus, hnot⟩ := h
  cases e with
  | directory entries => simp [Entry.isDirectory] at hnot
  | file content => simp [root?, hstatus, hfull, hfile]
  | link target => simp [root?, hstatus, hfull, hfile]
  | special reading => simp [root?, hstatus, hfull, hfile]

def watched? (fs : FileSystem) (path : String) : Option String :=
  match fs.status path with
  | .ok (.directory _) => some path
  | .ok _ => some (Path.directory path)
  | .error _ => none

theorem map_root? (fs : FileSystem) (path : String) :
    (root? fs path).map (fun r => (r.absolute, r.display)) =
      (watched? fs path).bind fun directory => (fs.absolute? directory).map (·, directory) := by
  unfold root? watched?
  split <;> simp_all [Function.comp_def]

theorem absolute_root? (fs : FileSystem) (paths : List String) :
    (paths.filterMap (root? fs)).map (·.absolute) = (paths.filterMap (watched? fs)).filterMap fs.absolute? := by
  rw [List.map_filterMap, List.filterMap_filterMap]
  refine congrArg (List.filterMap · paths) (funext fun path => ?_)
  have hmap := congrArg (Option.map Prod.fst) (map_root? fs path)
  simpa [Option.map_bind, Function.comp_def] using hmap

theorem find?_root? (fs : FileSystem) (paths : List String) (absolute : String) :
    ((paths.filterMap (root? fs)).find? (·.absolute = absolute)).map (·.display) =
      (paths.filterMap (watched? fs)).find? (fs.absolute? · = some absolute) := by
  induction paths with
  | nil => rfl
  | cons path paths ih =>
    have hone := map_root? fs path
    cases hwatched : watched? fs path with
    | none =>
      have hroot : root? fs path = none := by simpa [hwatched] using hone
      rw [List.filterMap_cons_none hroot, List.filterMap_cons_none hwatched, ih]
    | some directory =>
      rw [List.filterMap_cons_some hwatched, List.find?_cons]
      cases hfull : fs.absolute? directory with
      | none =>
        have hroot : root? fs path = none := by simpa [hwatched, hfull] using hone
        rw [List.filterMap_cons_none hroot, ih]
        rfl
      | some full =>
        obtain ⟨r, hroot, hr⟩ : ∃ r, root? fs path = some r ∧ (r.absolute, r.display) = (full, directory) := by
          simpa [hwatched, hfull] using hone
        obtain ⟨rfl, rfl⟩ := Prod.mk.inj hr
        rw [List.filterMap_cons_some hroot, List.find?_cons]
        by_cases heq : r.absolute = absolute
        · simp [heq]
        · simpa [heq] using ih

structure Root.Gathers (fs : FileSystem) (paths : List String) (r : Root) : Prop where
  display : (paths.filterMap (watched? fs)).find? (fs.absolute? · = some r.absolute) = some r.display
  whole : r.only = none ↔ ∃ path ∈ paths, DirectoryArgument fs path ∧ fs.absolute? path = some r.absolute
  files : ∀ files, r.only = some files → ∀ file, file ∈ files ↔ ∃ path ∈ paths, FileArgument fs path ∧
    fs.absolute? (Path.directory path) = some r.absolute ∧ fs.absolute? path = some file
  inside : ∀ files, r.only = some files → ∀ file ∈ files, Path.RightInside r.absolute file

theorem whole_root?_iff {fs : FileSystem} {paths : List String} {absolute : String} :
    (∃ g ∈ paths.filterMap (root? fs), g.absolute = absolute ∧ g.only = none) ↔
      ∃ path ∈ paths, DirectoryArgument fs path ∧ fs.absolute? path = some absolute := by
  constructor
  · rintro ⟨g, hg, rfl, hnone⟩
    obtain ⟨path, hpath, hroot⟩ := List.mem_filterMap.mp hg
    rcases root?_cases hroot with ⟨hdirectory, habsolute, -, -⟩ | ⟨-, -, -, file, -, honly⟩
    · exact ⟨path, hpath, hdirectory, habsolute⟩
    · rw [hnone] at honly
      contradiction
  · rintro ⟨path, hpath, hdirectory, habsolute⟩
    have hmem := List.mem_filterMap.mpr ⟨path, hpath, root?_of_directoryArgument hdirectory habsolute⟩
    exact ⟨_, hmem, rfl, rfl⟩

theorem files_root?_iff {fs : FileSystem} {paths : List String} {absolute file : String} :
    (∃ g ∈ paths.filterMap (root? fs), g.absolute = absolute ∧ ∃ own, g.only = some own ∧ file ∈ own) ↔
      ∃ path ∈ paths, FileArgument fs path ∧ fs.absolute? (Path.directory path) = some absolute ∧
        fs.absolute? path = some file := by
  constructor
  · rintro ⟨g, hg, rfl, own, hown, hmem⟩
    obtain ⟨path, hpath, hroot⟩ := List.mem_filterMap.mp hg
    rcases root?_cases hroot with ⟨-, -, -, honly⟩ | ⟨hargument, habsolute, -, file', hfile, honly⟩
    · rw [hown] at honly
      contradiction
    · obtain rfl : own = [file'] := Option.some.inj (hown.symm.trans honly)
      rw [List.mem_singleton.mp hmem]
      exact ⟨path, hpath, hargument, habsolute, hfile⟩
  · rintro ⟨path, hpath, hargument, habsolute, hfile⟩
    refine ⟨_, List.mem_filterMap.mpr ⟨path, hpath, root?_of_fileArgument hargument habsolute hfile⟩, ?_⟩
    simp

theorem gathers_of_mem_roots {fs : FileSystem} (hs : fs.Proper) {paths : List String} {r : Root}
    (hr : r ∈ roots fs paths) : r.Gathers fs paths := by
  have hcollects := (joined_roots fs paths).collects r hr
  have hfiles : ∀ files, r.only = some files → ∀ file, file ∈ files ↔ ∃ path ∈ paths, FileArgument fs path ∧
      fs.absolute? (Path.directory path) = some r.absolute ∧ fs.absolute? path = some file :=
    fun files hsome file => (hcollects.files files hsome file).trans files_root?_iff
  refine ⟨?_, hcollects.whole.trans whole_root?_iff, hfiles, fun files hsome file hfile => ?_⟩
  · rw [← find?_root?]
    exact hcollects.display
  · obtain ⟨path, -, ⟨e, hstatus, hnot⟩, habsolute, hown⟩ := (hfiles files hsome file).mp hfile
    rw [absolute?_eq_some habsolute, absolute?_eq_some hown]
    exact hs.rightInside_absolute hstatus hnot

/-- What is watched for a root, whatever it is called: a directory, with the files if only some are of interest. -/
def Root.scope (r : Root) : String × Option (Set String) :=
  (r.absolute, r.only.map fun files => {file | file ∈ files})

def scopes (rs : List Root) : Set (String × Option (Set String)) := {x | ∃ r ∈ rs, r.scope = x}

theorem Root.Gathers.scope_eq {fs : FileSystem} {paths others : List String} {r s : Root}
    (hr : r.Gathers fs paths) (hs : s.Gathers fs others) (hsame : ∀ path, path ∈ paths ↔ path ∈ others)
    (habsolute : r.absolute = s.absolute) : r.scope = s.scope := by
  have hwhole : r.only = none ↔ s.only = none := by
    rw [hr.whole, hs.whole, habsolute]
    simp only [hsame]
  have honly : (r.only.map fun files => {file | file ∈ files}) = s.only.map fun files => {file | file ∈ files} := by
    cases hfiles : r.only with
    | none => rw [hwhole.mp hfiles]
    | some files =>
      cases hfiles' : s.only with
      | none =>
        rw [hwhole.mpr hfiles'] at hfiles
        contradiction
      | some files' =>
        refine congrArg some (Set.ext fun file => ?_)
        rw [Set.mem_ofPred_eq, Set.mem_ofPred_eq, hr.files files hfiles, hs.files files' hfiles', habsolute]
        simp only [hsame]
  rw [scope, scope, habsolute, honly]

theorem absolutes_roots (fs : FileSystem) (paths : List String) :
    (roots fs paths).map (·.absolute) = ((paths.filterMap (watched? fs)).filterMap fs.absolute?).eraseDups := by
  rw [(joined_roots fs paths).absolutes, absolute_root?]

theorem scopes_subset {fs : FileSystem} (hs : fs.Proper) {paths others : List String}
    (hsame : ∀ path, path ∈ paths ↔ path ∈ others) : scopes (roots fs paths) ⊆ scopes (roots fs others) := by
  rintro x ⟨r, hr, rfl⟩
  have hmem : r.absolute ∈ (roots fs others).map (·.absolute) := by
    have hr' : r.absolute ∈ (roots fs paths).map (·.absolute) := List.mem_map.mpr ⟨r, hr, rfl⟩
    rw [absolutes_roots, List.mem_eraseDups] at hr' ⊢
    simpa [hsame] using hr'
  obtain ⟨s, hs', habsolute⟩ := List.mem_map.mp hmem
  exact ⟨s, hs', (gathers_of_mem_roots hs hs').scope_eq (gathers_of_mem_roots hs hr)
    (fun path => (hsame path).symm) habsolute⟩

/-- The roots for arguments are the directories of those that are there and have an absolute path, each once, in the
order in which they come first and by the name that comes first. A root is of interest as a whole if its directory was
given itself, and else for the files that were given, which lie right inside of it. So it does not matter for what is
watched how often and in which order the arguments are given. -/
theorem roots_gather_arguments {fs : FileSystem} (hs : fs.Proper) (paths : List String) :
    ((roots fs paths).map (·.absolute)).Nodup ∧
      (roots fs paths).map (·.absolute) = ((paths.filterMap (watched? fs)).filterMap fs.absolute?).eraseDups ∧
      (∀ r ∈ roots fs paths, r.Gathers fs paths) ∧
      ∀ others, (∀ path, path ∈ others ↔ path ∈ paths) → scopes (roots fs others) = scopes (roots fs paths) := by
  refine ⟨?_, absolutes_roots fs paths, fun r hr => gathers_of_mem_roots hs hr, fun others hsame => ?_⟩
  · rw [absolutes_roots]
    exact Analysis.nodup_eraseDups _
  · exact (scopes_subset hs hsame).antisymm (scopes_subset hs fun path => (hsame path).symm)

def linkedFiles : FileSystem where
  root := [("w", .directory [
    ("d", .directory [("x.py", .file ByteArray.empty), ("y.py", .file ByteArray.empty)]),
    ("e", .directory [("z.py", .link "../d/y.py")]),
    ("f", .link "d")])]
  workingDirectory := "/w"

def linkedPaths : List String := ["./d//x.py", "e/z.py", "gone", "f/../d", "/w/e/./z.py", "f/y.py", "d/y.py"]

theorem roots_gather_arguments_linkedFiles :
    linkedFiles.Proper ∧
      roots linkedFiles linkedPaths = [⟨"/w/d", "d", none⟩, ⟨"/w/e", "e", some ["/w/e/z.py", "/w/e/z.py"]⟩,
        ⟨"/w/f", "f", some ["/w/f/y.py"]⟩] ∧
      (∀ r ∈ roots linkedFiles linkedPaths, r.Gathers linkedFiles linkedPaths) ∧
      scopes (roots linkedFiles linkedPaths.reverse) = scopes (roots linkedFiles linkedPaths) := by
  have hproper : linkedFiles.Proper := ⟨by decide +kernel, ⟨_, by rfl⟩, by decide +kernel⟩
  obtain ⟨-, -, hgathers, hscopes⟩ := roots_gather_arguments hproper linkedPaths
  exact ⟨hproper, by decide +kernel, hgathers, hscopes _ (by simp)⟩

def topFile : FileSystem where
  root := [("x.py", .file ByteArray.empty)]
  workingDirectory := "/"

/-- In the root of the file system, a report has one slash more than the file of interest. -/
theorem reports_topFile :
    let r : Root := ⟨"/", "/", some ["/x.py"]⟩
    let c : Change := .write "/x.py" (.file ⟨#[10]⟩)
    roots topFile ["/x.py"] = [r] ∧
      (({ ignored := [] } : Watcher).start topFile r.absolute).toOption.map
        (fun w => (w.observe topFile pause c).2) = some ["//x.py"] ∧
      (Job.plainJob.onChange (topFile.apply c) r "//x.py").log = [] :=
  ⟨by decide +kernel, by decide +kernel, by decide +kernel⟩

end FunctionLength.Watch
