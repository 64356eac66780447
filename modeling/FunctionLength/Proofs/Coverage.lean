import FunctionLength.Proofs.Roots
import FunctionLength.Proofs.Subscriptions

/-!
Which files are watched. What a run analyzes is analyzed anew when it is written, unless an ignored name is
part of the real path of its directory: a run goes by the names that were given, a watcher by absolute paths.
-/

namespace FunctionLength.Watch
open FunctionLength.FileSystem

/-- A root that stands in for another one: it has the same directory, and is interested in no fewer files. -/
structure Root.Includes (r other : Root) : Prop where
  absolute_eq : r.absolute = other.absolute
  only : ∀ files, r.only = some files → ∃ own, other.only = some own ∧ own ⊆ files

theorem exists_includes {fs : FileSystem} {paths : List String} {path : String} {r : Root}
    (hpath : path ∈ paths) (hr : root? fs path = some r) : ∃ s ∈ roots fs paths, s.Includes r := by
  have hjoined := joined_roots fs paths
  have hgiven : r ∈ paths.filterMap (root? fs) := List.mem_filterMap.mpr ⟨path, hpath, hr⟩
  have hmem : r.absolute ∈ (roots fs paths).map (·.absolute) := by
    rw [hjoined.absolutes, List.mem_eraseDups]
    exact List.mem_map.mpr ⟨r, hgiven, rfl⟩
  obtain ⟨s, hs, habsolute⟩ := List.mem_map.mp hmem
  refine ⟨s, hs, habsolute, fun files hfiles => ?_⟩
  have hcollects := hjoined.collects s hs
  cases hown : r.only with
  | none =>
    rw [hcollects.whole.mpr ⟨r, hgiven, habsolute.symm, hown⟩] at hfiles
    contradiction
  | some own =>
    exact ⟨own, rfl, fun file hfile => (hcollects.files files hfiles file).mpr
      ⟨r, hgiven, habsolute.symm, own, hown, hfile⟩⟩

structure Root.Named (fs : FileSystem) (r : Root) : Prop where
  absolute?_eq : fs.absolute? r.display = some r.absolute
  ne_empty : r.display ≠ ""
  no_null : '\x00' ∉ r.display.toList

theorem no_null_directory {path : String} (h : '\x00' ∉ path.toList) : '\x00' ∉ (Path.directory path).toList := by
  obtain ⟨front, last, hsplit⟩ := Path.exists_split path
  rw [hsplit.directory_eq]
  refine Path.not_mem_ofNames (by decide) (by decide) fun n hn hnull => h ?_
  rw [hsplit.eq_append, String.toList_append]
  exact List.mem_append_left _ (Path.mem_of_mem_names (Path.mem_of_mem_normalize hn) hnull)

theorem named_of_root? {fs : FileSystem} {path : String} {r : Root} (h : root? fs path = some r) :
    r.Named fs := by
  have husable : ∀ {e}, fs.status path = .ok e → Usable path := by
    intro e hstatus
    obtain ⟨l, hl⟩ := status_eq_ok_iff.mp hstatus
    exact (resolve_eq_ok_iff.mp hl).1
  rcases root?_cases h with ⟨⟨entries, hstatus⟩, habsolute, hdisplay, -⟩ | ⟨⟨e, hstatus, -⟩, habsolute, hdisplay, -⟩
  · refine ⟨by rw [hdisplay, habsolute], ?_, ?_⟩
    · rw [hdisplay]
      exact (husable hstatus).ne_empty
    · rw [hdisplay]
      exact (husable hstatus).no_null
  · refine ⟨by rw [hdisplay, habsolute], ?_, ?_⟩
    · rw [hdisplay]
      exact Path.directory_ne_empty path
    · rw [hdisplay]
      exact no_null_directory (husable hstatus).no_null

theorem Root.Named.absolute_eq {fs : FileSystem} {r : Root} (h : r.Named fs) (hs : fs.Sound) :
    r.absolute = fs.absolute r.display :=
  Option.some.inj (h.absolute?_eq.symm.trans (hs.absolute?_eq r.display))

theorem named_of_mem_roots {fs : FileSystem} {paths : List String} {r : Root} (h : r ∈ roots fs paths) :
    r.Named fs := by
  obtain ⟨g, hg, hdisplay⟩ := Option.map_eq_some_iff.mp ((joined_roots fs paths).collects r h).display
  have habsolute : g.absolute = r.absolute := by simpa using List.find?_some hg
  obtain ⟨path, -, hroot⟩ := List.mem_filterMap.mp (List.mem_of_find?_eq_some hg)
  have hnamed := named_of_root? hroot
  exact ⟨habsolute ▸ hdisplay ▸ hnamed.absolute?_eq, hdisplay ▸ hnamed.ne_empty, hdisplay ▸ hnamed.no_null⟩

section Absolute

variable {fs : FileSystem} (hs : fs.Sound)
include hs

theorem reach_absolute_eq (path : String) (follow : Bool) :
    fs.reach follow (fs.absolute path) =
      fs.resolveFrom follow linkLimit [] (Path.names (fs.absolute path)) := by
  have hpath := Path.eq_ofNames_of_clean (hs.clean_absolute path)
  rw [hs.isAbsolute_absolute] at hpath
  rw [hpath, reach_ofNames fun n hn => Path.isName_of_mem_names hn,
    Path.names_ofNames fun n hn => Path.isName_of_mem_names hn]
  rfl

theorem names_absolute_eq {path : String} :
    Path.names (fs.absolute path) = Path.normalize true
      (if Path.isAbsolute path then Path.names path else Path.names fs.home ++ Path.names path) :=
  Path.names_absolute hs.isAbsolute path

/-- A file lies in the directory of its path: the last piece of a path that leads to a file is its name. -/
theorem exists_name_of_file {path : String} {l base : Location} {content : ByteArray} {entries : Entries}
    (hfile : fs.reach false (fs.absolute path) = .ok (l, .file content))
    (hdirectory : fs.reach false (fs.absolute (Path.directory path)) = .ok (base, .directory entries)) :
    ∃ name, l = base ++ [name] ∧
      fs.absolute path = Path.below (fs.absolute (Path.directory path)) [name] := by
  obtain ⟨front, last, hsplit⟩ := Path.exists_split path
  have hfront : fs.absolute (Path.directory path) = fs.absolute front := by
    rw [hsplit.directory_eq, hs.absolute_clean]
  rw [hfront] at hdirectory ⊢
  rw [reach_absolute_eq hs] at hfile hdirectory
  obtain ⟨above, habove⟩ : ∃ above, Path.names (fs.absolute front) = Path.normalize true above ∧
      Path.names (fs.absolute path) = Path.normalize true (above ++ Path.names last) := by
    rw [names_absolute_eq hs, names_absolute_eq hs, hsplit.isAbsolute_eq, hsplit.names_eq]
    split
    · exact ⟨_, rfl, rfl⟩
    · exact ⟨_, rfl, by simp⟩
  rcases hsplit.last_cases with hnil | hparent | ⟨hname, hne⟩
  -- After a last slash or dot the path would lead to the directory itself.
  · rw [habove.2, hnil, List.append_nil, ← habove.1, hdirectory] at hfile
    cases hfile
  -- A step up at the end is taken off the path by name, so that the directory would lie below the file.
  · rw [habove.2, hparent, Path.normalize_concat_parent, ← habove.1] at hfile
    rcases List.eq_nil_or_concat (Path.names (fs.absolute front)) with hroot | ⟨upper, name, hupper⟩
    · rw [hroot] at hfile hdirectory
      rw [List.dropLast_nil, hdirectory] at hfile
      cases hfile
    · have hmem : name ∈ Path.names (fs.absolute front) := by simp [hupper]
      have hplain : ".." ∉ Path.names (fs.absolute front) := by
        rw [habove.1]
        exact (Path.normal_normalize true above).not_mem
      rw [hupper, List.concat_eq_append, List.dropLast_concat] at hfile
      obtain ⟨c, hc⟩ : ∃ c, fs.resolveFrom false linkLimit [] (upper ++ [name]) = .error c :=
        resolveFrom_concat_of_file hfile (Path.isName_of_mem_names hmem) fun heq => hplain (heq ▸ hmem)
      rw [hupper, List.concat_eq_append, hc] at hdirectory
      cases hdirectory
  · have hnames : Path.names (fs.absolute path) = Path.names (fs.absolute front) ++ [last] := by
      rw [habove.2, hname.names_eq, Path.normalize_append_of_plain _ (by simpa using Ne.symm hne), habove.1]
    obtain ⟨k, hk⟩ := resolveFrom_append hdirectory
    rw [hnames, hk] at hfile
    exact ⟨last, resolveFrom_singleton hfile hname hne, hs.absolute_split hsplit hname hne⟩

end Absolute

/-- Where a file lies that is analyzed for an argument: below the directory that is watched for it. -/
structure Located (fs : FileSystem) (root q : String) (l base : Location) (entries inner : Entries)
    (way : List String) (name : String) : Prop where
  isAbsolute : Path.isAbsolute root = true
  clean : Path.clean root = root
  start : Start fs root base entries
  parent : Entries.at? entries way = some (.directory inner)
  free : fs.isLocked base = false
  passable : Passable fs.isLocked base way
  entryName : ∀ n ∈ way ++ [name], EntryName n
  location_eq : l = base ++ way ++ [name]
  absolute_eq : fs.absolute q = Path.below root (way ++ [name])

theorem exists_parent {entries : Entries} {way : List String} {name : String} {e : Entry}
    (h : Entries.at? entries (way ++ [name]) = some e) :
    ∃ inner, Entries.at? entries way = some (.directory inner) := by
  have hbelow := Entry.below?_append (.directory entries) way [name]
  obtain ⟨d, hd, hname⟩ := Option.bind_eq_some_iff.mp (hbelow.symm.trans h)
  obtain ⟨inner, rfl⟩ := Entry.exists_directory (Entry.isDirectory_of_below? hname)
  exact ⟨inner, hd⟩

theorem eq_of_mem_filesAt {j : Job} {fs : FileSystem} {path q : String} {e : Entry}
    (hstatus : fs.status path = .ok e) (hnot : e.isDirectory = false) (hq : q ∈ j.filesAt fs path) :
    q = path := by
  cases e with
  | file content => simpa [Job.filesAt, hstatus] using hq
  | directory entries => simp [Entry.isDirectory] at hnot
  | link target => simp [Job.filesAt, hstatus] at hq
  | special reading => simp [Job.filesAt, hstatus] at hq

theorem exists_located (j : Job) {fs : FileSystem} (hs : fs.Sound) {path q : String} {r : Root}
    (hr : root? fs path = some r) (hq : q ∈ j.filesAt fs path) {l : Location} {content : ByteArray}
    (hfile : fs.resolve false q = .ok (l, .file content))
    (hsame : fs.resolve false (fs.absolute path) = fs.resolve false path) {base : Location} {entries : Entries}
    (hbase : fs.resolve false r.absolute = .ok (base, .directory entries)) (hfree : fs.isLocked base = false) :
    ∃ inner way name, Located fs r.absolute q l base entries inner way name ∧
      ∀ own, r.only = some own → own = [fs.absolute q] ∧ way = [] := by
  have hself := (named_of_root? hr).absolute_eq hs
  have hclean : Path.clean r.absolute = r.absolute := hself ▸ hs.clean_absolute r.display
  have hisAbsolute : Path.isAbsolute r.absolute = true := hself ▸ hs.isAbsolute_absolute r.display
  have hstart := start_of_clean hclean hbase
  rcases root?_cases hr with ⟨⟨entries₀, hstatus⟩, habs, -, honly⟩ | ⟨⟨e, hstatus, hnot⟩, habs, -, file, hown, honly⟩
  -- A directory is walked from the path that was given, and watched from its absolute path.
  · have habs : r.absolute = fs.absolute path := absolute?_eq_some habs
    rw [habs] at hbase
    have hpath := hsame.symm.trans hbase
    have hwalk : Start fs path base entries := by
      refine ⟨(resolve_eq_ok_iff.mp hpath).1, ?_⟩
      rw [← hs.reach_absolute (Path.clean_clean path), hs.absolute_clean]
      exact (resolve_eq_ok_iff.mp hbase).2
    have hbelow : q ∈ j.checker.filesBelow fs path := by simpa [Job.filesAt, hstatus] using hq
    obtain ⟨hfound, -⟩ := Job.mem_filesBelow_iff.mp hbelow
    obtain ⟨-, -, way, name, e, hleaf, rfl, -, hpass⟩ := (hwalk.found_mem_walk_iff hs hpath).mp hfound
    have hentryName := hwalk.entryName hs hleaf.at?_eq
    have hreach := (resolve_eq_ok_iff.mp hfile).2
    rw [hwalk.reach_below hs hleaf.at?_eq (by simp)] at hreach
    obtain ⟨inner, hinner⟩ := exists_parent hleaf.at?_eq
    refine ⟨inner, way, name, ⟨hisAbsolute, hclean, hstart, hinner, hfree, hpass, hentryName, ?_, ?_⟩, ?_⟩
    · rw [List.append_assoc]
      exact (Prod.mk.inj (Except.ok.inj hreach)).1.symm
    · rw [habs]
      exact Path.absolute_below hs.isAbsolute path (fun n hn => (hentryName n hn).toIsName)
        fun hmem => (hentryName _ hmem).ne_parent rfl
    · simp [honly]
  · have habs : r.absolute = fs.absolute (Path.directory path) := absolute?_eq_some habs
    rw [habs] at hbase
    obtain rfl := eq_of_mem_filesAt hstatus hnot hq
    have hreach := (resolve_eq_ok_iff.mp (hsame.trans hfile)).2
    obtain ⟨name, rfl, habsolute⟩ := exists_name_of_file hs hreach (resolve_eq_ok_iff.mp hbase).2
    have hat : fs.at? (base ++ [name]) = some (.file content) := at?_of_resolveFrom hreach
    refine ⟨entries, [], name, ⟨hisAbsolute, hclean, hstart, rfl, hfree, passable_nil, ?_, by simp, ?_⟩, ?_⟩
    · exact fun n hn => hs.entryName hat n (List.mem_append_right _ (by simpa using hn))
    · rwa [habs]
    · intro own hsome
      rw [honly, absolute?_eq_some hown] at hsome
      exact ⟨(Option.some.inj hsome).symm, rfl⟩

/-- Content is written to files, one after the other, with a pause between notices. -/
inductive Written (w₀ : Watcher) (fs₀ : FileSystem) : Watcher → FileSystem → Nat → Prop
  | start (time : Nat) : Written w₀ fs₀ w₀ fs₀ time
  | write {w : Watcher} {fs : FileSystem} {time time' : Nat} {c : Change} {l : Location} {content : ByteArray}
      (before : Written w₀ fs₀ w fs time) (apart : time + pause ≤ time')
      (effects : fs.effects c = [.write l content]) :
      Written w₀ fs₀ (w.observe fs time' c).1 (fs.apply c) time'

/-- Through all writes a watcher keeps watching and paths keep their meaning. -/
theorem Written.invariant {ignored : List String} {locked : Location → Bool} {root : String} {base : Location}
    {entries : Entries} {w₀ w : Watcher} {fs₀ fs : FileSystem} {time : Nat}
    (hw : Watching ignored locked root base entries w₀) (hresting : w₀.Resting [])
    (h : Written w₀ fs₀ w fs time) :
    Watching ignored locked root base entries w ∧ Alike fs₀ fs ∧
      ∃ seen, w.Resting seen ∧ ∀ x ∈ seen, x.2 ≤ time := by
  induction h with
  | start time => exact ⟨hw, .refl fs₀, [], hresting, by simp⟩
  | @write w fs time time' c l content before apart effects ih =>
    obtain ⟨hwatching, halike, seen, hrests, htimes⟩ := ih
    obtain ⟨later, hlater, hseen⟩ := Watcher.exists_resting_observe hrests fs time' c
    obtain ⟨old, hold⟩ := exists_file_of_effects effects
    refine ⟨hwatching.observe hrests effects, ?_, later, hlater, fun x hx => ?_⟩
    · rw [apply_of_effects effects]
      exact halike.trans (alike_put hold)
    · rcases hseen x hx with hx | hx
      · have := htimes x hx
        omega
      · omega

namespace Located

variable {fs : FileSystem} {root q : String} {l base : Location} {entries inner : Entries}
  {way : List String} {name : String} (h : Located fs root q l base entries inner way name)
include h

theorem directory_absolute : Path.directory (fs.absolute q) = Path.below root way := by
  rw [h.absolute_eq, directory_below root h.entryName]

theorem extension_absolute : Path.extension (fs.absolute q) = Path.extension name := by
  rw [h.absolute_eq, extension_below root (h.entryName name (by simp))]

theorem canonical : Path.Canonical true (Path.names root ++ way) := by
  have hroot := Path.canonical_of_clean h.clean
  rw [h.isAbsolute] at hroot
  exact hroot.append (fun n hmem => (h.entryName n (List.mem_append_left _ hmem)).toIsName)
    fun hmem => (h.entryName _ (List.mem_append_left _ hmem)).ne_parent rfl

theorem below_eq (ms : List String) : Path.below root ms = Path.ofNames true (Path.names root ++ ms) := by
  rw [Path.below_of_clean h.clean, h.isAbsolute]

/-- The path by which the file is reported, and the shortest one. Only directly below the root directory of
the file system they differ. -/
theorem reported_eq (hne : Path.names root ++ way ≠ []) :
    Path.below root way ++ "/" ++ name = fs.absolute q := by
  rw [h.absolute_eq, h.below_eq, h.below_eq, ← List.append_assoc, Path.ofNames_concat hne]

theorem directory_reported : Path.directory (Path.below root way ++ "/" ++ name) =
    Path.below root way := by
  have hcanonical := h.canonical
  have hname := h.entryName name (by simp)
  rw [h.below_eq, Path.directory_append_slash _ hname.no_slash,
    Path.clean_append_slash (Path.ofNames_ne_empty hcanonical.isName),
    Path.clean_ofNames hcanonical.isName hcanonical.normal]

theorem extension_reported : Path.extension (Path.below root way ++ "/" ++ name) =
    Path.extension name :=
  Path.extension_append_slash _ (h.entryName name (by simp)).no_slash

theorem reported_absolute : Path.isAbsolute (Path.below root way ++ "/" ++ name) = true := by
  have hcanonical := h.canonical
  rw [h.below_eq, String.append_assoc, Path.isAbsolute_append _ (Path.ofNames_ne_empty hcanonical.isName),
    Path.isAbsolute_ofNames hcanonical.isName]

theorem names_reported : Path.names (Path.below root way ++ "/" ++ name) =
    Path.names root ++ (way ++ [name]) := by
  rw [Path.names_append_slash, h.below_eq, Path.names_ofNames h.canonical.isName,
    (h.entryName name (by simp)).toIsName.names_eq, List.append_assoc]

theorem usable_reported (hsize : (fs.absolute q).utf8ByteSize < pathLimit) :
    Usable (Path.below root way ++ "/" ++ name) where
  no_null := by
    have hname := h.entryName name (by simp)
    have hbelow := no_null_below h.start.usable.no_null
      fun n hmem => h.entryName n (List.mem_append_left [name] hmem)
    simp [hbelow, hname.no_null]
  ne_empty := by simp
  size_lt := by
    by_cases hne : Path.names root ++ way = []
    · have hname := (h.entryName name (by simp)).size_le
      have hroot : Path.below root way = "/" := by
        rw [h.below_eq, hne]
        rfl
      have hslash : ("/" : String).utf8ByteSize = 1 := rfl
      rw [hroot, String.utf8ByteSize_append, String.utf8ByteSize_append, hslash, pathLimit]
      omega
    · rwa [h.reported_eq hne]

theorem reach_below (hs : fs.Sound) {content : ByteArray} (hfile : fs.at? l = some (.file content)) :
    fs.reach true (Path.below root (way ++ [name])) = .ok (l, .file content) := by
  have hat : Entries.at? entries (way ++ [name]) = some (.file content) := by
    rw [← h.start.at?_append, ← List.append_assoc, ← h.location_eq, hfile]
  rw [h.start.reach_below hs hat (by simp), h.location_eq, List.append_assoc]

theorem resolve_reported (hs : fs.Sound) (hsize : (fs.absolute q).utf8ByteSize < pathLimit) {content : ByteArray}
    (hfile : fs.at? l = some (.file content)) :
    fs.resolve true (Path.below root way ++ "/" ++ name) = .ok (l, .file content) := by
  refine resolve_eq_ok_iff.mpr ⟨h.usable_reported hsize, ?_⟩
  have hname := h.entryName name (by simp)
  have hjoin : name = Path.joinNames [name] := by simp [Path.joinNames]
  have hreach := h.reach_below hs hfile
  rw [h.below_eq, ← List.append_assoc] at hreach
  rw [h.below_eq, hjoin, reach_append_slash h.canonical.isName (by simp) (by simpa using hname.toIsName), hreach]

theorem mem_observe_iff {ignored : List String} {w : Watcher} {seen : List (String × Nat)}
    (hw : Watching ignored fs.isLocked root base entries w) (hresting : w.Resting seen)
    (hsize : (fs.absolute q).utf8ByteSize < pathLimit) {time : Nat} (hseen : ∀ x ∈ seen, x.2 + pause ≤ time)
    {fs' : FileSystem} {c : Change} {content : ByteArray} (heffects : fs'.effects c = [.write l content])
    {changed : String} :
    changed ∈ (w.observe fs' time c).2 ↔
      changed = Path.below root way ++ "/" ++ name ∧
        Path.mentions ignored (Path.directory (fs.absolute q)) = false := by
  rw [h.location_eq] at heffects
  rw [hw.mem_reports_iff hresting hseen h.parent heffects, h.directory_absolute]
  constructor
  · rintro ⟨rfl, hignored, -⟩
    rw [h.directory_reported] at hignored
    exact ⟨rfl, hignored⟩
  · rintro ⟨rfl, hignored⟩
    refine ⟨rfl, by rwa [h.directory_reported], ?_, h.free, h.passable⟩
    by_cases hne : way = []
    · exact .inl hne
    · rw [h.absolute_eq] at hsize
      exact .inr ⟨hignored, Nat.lt_of_le_of_lt (size_below_le root hne name) hsize⟩

section Displayed

variable {s : Root} (hroot : s.absolute = root) (hn : s.Named fs)
include hroot hn

theorem displayName_reported :
    Job.displayName s (Path.below root way ++ "/" ++ name) = Path.below s.display (way ++ [name]) := by
  refine Job.displayName_eq ?_ ?_ hn.ne_empty h.reported_absolute ?_ h.entryName
  · rw [hroot, h.isAbsolute]
  · rw [hroot, h.clean]
  · rw [hroot, h.names_reported]

theorem displayName_absolute (hs : fs.Sound) :
    Job.displayName s (fs.absolute q) = Path.below s.display (way ++ [name]) := by
  refine Job.displayName_eq ?_ ?_ hn.ne_empty (hs.isAbsolute_absolute q) ?_ h.entryName
  · rw [hroot, h.isAbsolute]
  · rw [hroot, h.clean]
  · have hclean := Path.normal_of_clean h.clean
    rw [hroot, h.absolute_eq, names_below root h.entryName, hclean.normalize_eq]

theorem absolute_displayed (hs : fs.Sound) : fs.absolute (Path.below s.display (way ++ [name])) = fs.absolute q := by
  rw [h.absolute_eq, ← hroot, hn.absolute_eq hs]
  exact Path.absolute_below hs.isAbsolute s.display (fun n hmem => (h.entryName n hmem).toIsName)
    fun hmem => (h.entryName _ hmem).ne_parent rfl

theorem resolve_displayed (hs : fs.Sound) {content : ByteArray} (hfile : fs.at? l = some (.file content))
    (hsize : (Path.below s.display (way ++ [name])).utf8ByteSize < pathLimit) :
    fs.resolve true (Path.below s.display (way ++ [name])) = .ok (l, .file content) := by
  refine resolve_eq_ok_iff.mpr ⟨⟨no_null_below hn.no_null h.entryName,
    below_ne_empty s.display h.entryName, hsize⟩, ?_⟩
  rw [← hs.reach_absolute (clean_below s.display h.entryName), h.absolute_displayed hroot hn hs, h.absolute_eq]
  exact h.reach_below hs hfile

end Displayed

end Located

/-- An argument that a watcher can follow: it leads where its absolute path leads, and the directory that is to
be watched for it is no link and can be listed. -/
structure Watchable (fs : FileSystem) (path : String) (r : Root) : Prop where
  root : root? fs path = some r
  direct : fs.resolve false (fs.absolute path) = fs.resolve false path
  directory : ∃ l entries, fs.resolve false r.absolute = .ok (l, .directory entries) ∧ fs.isLocked l = false

end FunctionLength.Watch

namespace FunctionLength.Job
open FunctionLength.FileSystem FunctionLength.Watch

theorem reanalysis_ne_empty (j : Job) (fs : FileSystem) (path : String) : j.reanalysis fs path ≠ {} := by
  intro heq
  have hlog := congrArg Analysis.log heq
  simp [reanalysis, Analysis.record] at hlog

/-- Whether a file is followed at a root: by the real path of its directory, and, if the whole directory is
watched, by its extension and the name under which it is known there. -/
def Follows (j : Job) (r : Root) (absolute : String) : Prop :=
  Path.mentions j.checker.settings.ignoredDirectories (Path.directory absolute) = false ∧
    (r.only = none → j.checker.parser.supports (Path.extension absolute) = true ∧
      j.checker.ignoresPath (displayName r absolute) = false)

section Located

variable {fs : FileSystem} {q : String} {l base : Location} {entries inner : Entries} {way : List String}
  {name : String} {s : Root} (h : Located fs s.absolute q l base entries inner way name) (hn : s.Named fs)
include h hn

theorem wants_reported_iff (j : Job) (hs : fs.Sound)
    (honly : ∀ files, s.only = some files → Path.below s.absolute way ++ "/" ++ name ∈ files) :
    j.wants s (Path.below s.absolute way ++ "/" ++ name) = true ↔
      (s.only = none → j.checker.parser.supports (Path.extension (fs.absolute q)) = true ∧
        j.checker.ignoresPath (displayName s (fs.absolute q)) = false) := by
  rw [wants, h.displayName_reported rfl hn, h.displayName_absolute rfl hn hs, h.extension_reported,
    h.extension_absolute]
  cases hcases : s.only with
  | none => simp
  | some files => simp [honly files hcases]

theorem onChange_reported (j : Job) (hs : fs.Sound) (hsize : (fs.absolute q).utf8ByteSize < pathLimit)
    {content : ByteArray} (hfile : fs.at? l = some (.file content)) {fs' : FileSystem} (halike : Alike fs fs')
    (honly : ∀ files, s.only = some files → Path.below s.absolute way ++ "/" ++ name ∈ files) :
    j.onChange fs' s (Path.below s.absolute way ++ "/" ++ name) =
        j.reanalysis fs' (displayName s (fs.absolute q)) ↔
      (s.only = none → j.checker.parser.supports (Path.extension (fs.absolute q)) = true ∧
        j.checker.ignoresPath (displayName s (fs.absolute q)) = false) := by
  obtain ⟨e, he, hshape⟩ := halike.resolve_eq_ok (h.resolve_reported hs hsize hfile)
  obtain ⟨content', rfl⟩ := Entry.shape_eq_file_iff.mp hshape
  have hregular : fs'.IsRegular (Path.below s.absolute way ++ "/" ++ name) :=
    ⟨content', status_eq_ok_iff.mpr ⟨l, he⟩⟩
  rw [← wants_reported_iff h hn j hs honly, onChange_of_isRegular hregular j s, h.displayName_reported rfl hn,
    h.displayName_absolute rfl hn hs]
  cases j.wants s (Path.below s.absolute way ++ "/" ++ name) with
  | true => simp
  | false => simp [(j.reanalysis_ne_empty fs' _).symm]

end Located

def answers (j : Job) (fs : FileSystem) (paths : List String) (c : Change) : List Analysis :=
  (roots fs paths).flatMap fun r =>
    match ({ ignored := j.checker.settings.ignoredDirectories } : Watcher).start fs r.absolute with
    | .ok w => (w.observe fs pause c).2.map (j.onChange (fs.apply c) r)
    | .error _ => []

/-- A run analyzes a file, but nothing is analyzed when content is written to it. -/
structure Misses (j : Job) (fs : FileSystem) (paths : List String) (q : String) (l : Location)
    (content : ByteArray) : Prop where
  analyzed : q ∈ j.files fs paths
  written : fs.effects (.write q (.file content)) = [.write l content]
  unanswered : (j.answers fs paths (.write q (.file content))).all (·.log.isEmpty) = true

def oddFiles : FileSystem where
  root := [("top.py", .file ByteArray.empty), ("w", .directory [
    (".venv", .directory [("x.py", .file ByteArray.empty)]),
    ("d", .directory [("e", .directory []), ("y.py", .file ByteArray.empty)]),
    ("deep", .link "d/e"),
    ("link", .link "d"),
    ("script", .file ByteArray.empty),
    ("z.py", .link "d/y.py")])]
  workingDirectory := "/w"

end FunctionLength.Job
