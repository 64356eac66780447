import FunctionLength.Proofs.Changes
import FunctionLength.Proofs.Lifecycle
import FunctionLength.Proofs.Walks

/-!
Watching agrees with runs. A run prunes from the top, by the path of each directory on the way down, whereas a
report is judged by the directory of the reported file alone, under a name that is put together anew. Both come
to the same.
-/

namespace FunctionLength.FileSystem

def IsRegular (fs : FileSystem) (path : String) : Prop := ∃ content, fs.status path = .ok (.file content)

theorem status_eq_ok_iff {fs : FileSystem} {path : String} {e : Entry} :
    fs.status path = .ok e ↔ ∃ l, fs.resolve true path = .ok (l, e) := by
  unfold status
  cases fs.resolve true path with
  | ok x => simp [Prod.ext_iff]
  | error cause => simp

theorem IsRegular.exists_reach {fs : FileSystem} {path : String} (h : fs.IsRegular path) :
    Usable path ∧ ∃ l content, fs.reach true path = .ok (l, .file content) := by
  obtain ⟨content, hcontent⟩ := h
  obtain ⟨l, hl⟩ := status_eq_ok_iff.mp hcontent
  obtain ⟨husable, hreach⟩ := resolve_eq_ok_iff.mp hl
  exact ⟨husable, l, content, hreach⟩

theorem linkStatus_eq_ok_iff {fs : FileSystem} {path : String} {e : Entry} :
    fs.linkStatus path = .ok e ↔ ∃ l, fs.resolve false path = .ok (l, e) := by
  unfold linkStatus
  cases fs.resolve false path with
  | ok x => simp [Prod.ext_iff]
  | error cause => simp

theorem start_of_clean {fs : FileSystem} {path : String} {l : Location} {entries : Entries}
    (hclean : Path.clean path = path) (h : fs.resolve false path = .ok (l, .directory entries)) :
    Start fs path l entries := by
  obtain ⟨husable, hreach⟩ := resolve_eq_ok_iff.mp h
  exact ⟨husable, by rwa [hclean]⟩

end FunctionLength.FileSystem

namespace FunctionLength.Watch
open FunctionLength.FileSystem

def after (fs : FileSystem) (steps : List Step) : FileSystem :=
  steps.foldl (fun fs step =>
    match step with
    | .change c => fs.apply c
    | .report _ _ => fs) fs

theorem workingPath_after (fs : FileSystem) (steps : List Step) :
    (after fs steps).workingPath = fs.workingPath := by
  induction steps generalizing fs with
  | nil => rfl
  | cons step steps ih =>
    cases step with
    | change c => exact (ih (fs.apply c)).trans (workingPath_apply fs c)
    | report i path => exact ih fs

end FunctionLength.Watch

namespace FunctionLength.Job
open FunctionLength.FileSystem FunctionLength.Watch FunctionLength.Checker

def answersAll (j : Job) (roots : List Root) : List Step → FileSystem → Bool
  | [], _ => true
  | .change c :: rest, fs => answersAll j roots rest (fs.apply c)
  | .report i path :: rest, fs => (roots[i]?).all (!j.hangs fs · path) && answersAll j roots rest fs

/-- A report is answered by what the file system is then, and by nothing else that came before. -/
theorem getElem?_respond (j : Job) {roots : List Root} {before : List Step} {fs : FileSystem}
    (hbefore : j.answersAll roots before fs = true) {i : Nat} {r : Root} (hr : roots[i]? = some r)
    {changed : String} (hends : j.hangs (after fs before) r changed = false) (later : List Step) :
    (j.respond roots (before ++ .report i changed :: later) fs)[before.length]? =
      some (j.onChange (after fs before) r changed) := by
  induction before generalizing fs with
  | nil =>
    have hhangs : j.hangs fs r changed = false := hends
    simp [respond, hr, hhangs, after]
  | cons step before ih =>
    cases step with
    | change c =>
      rw [List.cons_append, respond, List.length_cons, List.getElem?_cons_succ]
      exact ih hbefore hends
    | report k path =>
      obtain ⟨hfirst, hrest⟩ := Bool.and_eq_true_iff.mp hbefore
      rw [List.cons_append, respond, List.length_cons]
      cases hk : roots[k]? with
      | none =>
        rw [List.getElem?_cons_succ]
        exact ih hrest hends
      | some r' =>
        have hhangs : j.hangs fs r' path = false := by simpa [hk] using hfirst
        simp only [hhangs, Bool.false_eq_true, if_false, List.getElem?_cons_succ]
        exact ih hrest hends

def reanalysis (j : Job) (fs : FileSystem) (path : String) : Analysis :=
  let a := j.checker.addFile fs j.ignoreTests path {}
  a.record .debug "re-analyzed" [("file", .text path), ("too_long", .flag a.tooLong)]

def wants (j : Job) (r : Root) (changed : String) : Bool :=
  match r.only with
  | some files => files.contains changed
  | none => j.checker.parser.supports (Path.extension changed) &&
      !j.checker.ignoresPath (displayName r changed)

section Regular

variable {fs : FileSystem} {changed : String} (h : fs.IsRegular changed)
include h

theorem answer_of_isRegular (j : Job) (r : Root) :
    j.answer fs r changed = if j.wants r changed then .analyze (displayName r changed) else .ignore := by
  obtain ⟨content, hcontent⟩ := h
  unfold answer wants
  rw [hcontent]
  cases r.only with
  | some files => cases hmem : files.contains changed <;> simp
  | none =>
    cases hsupports : j.checker.parser.supports (Path.extension changed) with
    | false => simp
    | true => cases hignored : j.checker.ignoresPath (displayName r changed) <;> simp [hignored]

theorem onChange_of_isRegular (j : Job) (r : Root) :
    j.onChange fs r changed = if j.wants r changed then j.reanalysis fs (displayName r changed) else {} := by
  rw [onChange, answer_of_isRegular h]
  cases j.wants r changed <;> rfl

theorem hangs_of_isRegular (j : Job) (r : Root) :
    j.hangs fs r changed = (j.wants r changed && j.checker.waits fs j.ignoreTests (displayName r changed)) := by
  rw [hangs, answer_of_isRegular h]
  cases j.wants r changed <;> rfl

end Regular

theorem answer_of_long (j : Job) (fs : FileSystem) {r : Root} (hr : r.only = none) {changed : String}
    (h : pathLimit ≤ changed.utf8ByteSize) :
    j.answer fs r changed =
      if j.checker.parser.supports (Path.extension changed) then .tellGone else .ignore := by
  have hstatus : ∀ e, fs.status changed ≠ .ok e := by
    intro e he
    obtain ⟨l, hl⟩ := status_eq_ok_iff.mp he
    exact absurd (resolve_eq_ok_iff.mp hl).1.size_lt (Nat.not_lt.mpr h)
  unfold answer
  cases hsupports : j.checker.parser.supports (Path.extension changed) with
  | false => simp [hr]
  | true =>
    cases hcases : fs.status changed with
    | error e => simp [hr]
    | ok e => exact absurd hcases (hstatus e)

/-- What lies below a root is called by the name that was given for the root. -/
theorem displayName_eq {r : Root} {changed : String} {way : List String}
    (habsolute : Path.isAbsolute r.absolute = true) (hclean : Path.clean r.absolute = r.absolute)
    (hdisplay : r.display ≠ "") (hchanged : Path.isAbsolute changed = true)
    (hnames : Path.names changed = Path.names r.absolute ++ way) (hway : ∀ n ∈ way, EntryName n) :
    displayName r changed = Path.below r.display way := by
  have hplain : ".." ∉ way := fun hmem => (hway _ hmem).ne_parent rfl
  have hisName : ∀ n ∈ way, Path.IsName n := fun n hn => (hway n hn).toIsName
  rw [displayName, Path.relative?_eq habsolute hchanged hclean hnames hplain]
  simp only
  rw [Path.join_pair _ hdisplay, Path.names_ofNames hisName, Path.normalize_append_of_plain _ hplain, Path.below]

theorem mem_filesBelow_iff {c : Checker} {fs : FileSystem} {path q : String} :
    q ∈ c.filesBelow fs path ↔
      .found q ∈ fs.walk (Path.mentions c.settings.ignoredDirectories) path ∧
        c.parser.supports (Path.extension q) = true := by
  rw [Checker.filesBelow, List.mem_filterMap]
  constructor
  · rintro ⟨visit, hvisit, hq⟩
    cases visit with
    | found path =>
      rw [Checker.file?] at hq
      split at hq
      · cases hq
        exact ⟨hvisit, by assumption⟩
      · contradiction
    | pruned path => contradiction
    | unreadable path error => contradiction
  · rintro ⟨hfound, hsupports⟩
    exact ⟨_, hfound, by simp [Checker.file?, hsupports]⟩

/-- A run over a directory analyzes the supported files that lie in no ignored directory, if all directories can
be listed. The directories further up are ignored only if that one is, except for the working directory as the
start. -/
theorem below_mem_files_iff (j : Job) {fs : FileSystem} (hs : fs.Sound) {path : String} {l : Location}
    {entries : Entries} (hclean : Path.clean path = path)
    (hp : fs.resolve false path = .ok (l, .directory entries))
    (hdot : ¬ (path = "." ∧ "." ∈ j.checker.settings.ignoredDirectories)) {way : List String} {name : String}
    {e : Entry} (hleaf : Leaf entries way name e) (hfree : fs.isLocked l = false)
    (hpass : Passable fs.isLocked l way) (hsize : (Path.below path (way ++ [name])).utf8ByteSize < pathLimit) :
    Path.below path (way ++ [name]) ∈ j.files fs [path] ↔
      j.checker.parser.supports (Path.extension name) = true ∧
        j.checker.ignoresPath (Path.below path (way ++ [name])) = false := by
  have h := start_of_clean hclean hp
  have hway := h.entryName hs hleaf.at?_eq
  have hself : Path.below path [] = path := (Path.below_nil path).trans hclean
  have hstatus : fs.status path = .ok (.directory entries) :=
    status_eq_ok_iff.mpr ⟨l, resolve_follow hp (by simp)⟩
  have hfiles : j.files fs [path] = j.checker.filesBelow fs path := by simp [files, filesAt, hstatus]
  have hignores : j.checker.ignoresPath (Path.below path (way ++ [name])) =
      Path.mentions j.checker.settings.ignoredDirectories (Path.below path way) := by
    rw [Checker.ignoresPath, directory_below path hway, Checker.ignoresDirectory]
  rw [hfiles, mem_filesBelow_iff, extension_below path (hway name (by simp)), and_comm, hignores,
    h.found_mem_walk_iff hs hp]
  refine and_congr_right fun _ => ⟨?_, fun hnot => ?_⟩
  · rintro ⟨hstart, -, way', name', e', hleaf', heq, hopen, -⟩
    have hnames := congrArg Path.names heq
    rw [names_below path hway, names_below path (h.entryName hs hleaf'.at?_eq)] at hnames
    obtain ⟨rfl, -⟩ := List.append_inj' (List.append_cancel_left hnames) rfl
    by_cases hnil : way = []
    · rw [hnil, hself, hstart]
    · exact (hopen hnil).not_ignored
  · have hopen : way ≠ [] → Open j.checker.settings.ignoredDirectories (Path.below path way) :=
      fun hne => ⟨hnot, Nat.lt_of_le_of_lt (size_below_le path hne name) hsize⟩
    refine ⟨?_, hfree, way, name, e, hleaf, rfl, hopen, hpass⟩
    -- The path of the start begins all others, except that a dot is left out of them.
    cases hstart : Path.mentions j.checker.settings.ignoredDirectories path with
    | false => rfl
    | true =>
      by_cases hpath : path = "."
      · rw [hpath, Path.mentions_dot] at hstart
        exact absurd ⟨hpath, hstart⟩ hdot
      · rw [Path.mentions_of_isPrefix (Path.prefix_below hclean hpath way) hstart] at hnot
        contradiction

theorem reported_below {root changed : String} {way : List String} {name : String}
    (habsolute : Path.isAbsolute root = true) (hclean : Path.clean root = root)
    (hway : ∀ n ∈ way ++ [name], EntryName n)
    (hchanged : changed = root ++ "/" ++ Path.joinNames (way ++ [name]) ∨
      changed = Path.join [root, Path.joinNames (way ++ [name])]) :
    Path.isAbsolute changed = true ∧ Path.names changed = Path.names root ++ (way ++ [name]) ∧
      Path.extension changed = Path.extension name := by
  have hisName : ∀ n ∈ way ++ [name], Path.IsName n := fun n hn => (hway n hn).toIsName
  have hname := hway name (by simp)
  have hne : root ≠ "" := by
    rintro rfl
    contradiction
  rcases hchanged with rfl | rfl
  · refine ⟨?_, ?_, Path.extension_append_joinNames root hname.toIsName⟩
    · rw [String.append_assoc, Path.isAbsolute_append _ hne, habsolute]
    · rw [Path.names_append_slash, Path.names_joinNames hisName]
  · rw [Path.join_joinNames hne hisName fun hmem => (hway _ hmem).ne_parent rfl]
    refine ⟨?_, ?_, extension_below root hname⟩
    · rw [Path.below, Path.isAbsolute_ofNames (canonical_below root hway).isName, habsolute]
    · rw [names_below root hway, (Path.normal_of_clean hclean).normalize_eq]

theorem reach_reported {fs : FileSystem} {root changed : String} {way : List String}
    (habsolute : Path.isAbsolute root = true) (hclean : Path.clean root = root) (hne : way ≠ [])
    (hway : ∀ n ∈ way, EntryName n)
    (hchanged : changed = root ++ "/" ++ Path.joinNames way ∨ changed = Path.join [root, Path.joinNames way])
    (follow : Bool) : fs.reach follow changed = fs.reach follow (Path.below root way) := by
  have hisName : ∀ n ∈ way, Path.IsName n := fun n hn => (hway n hn).toIsName
  have hself := Path.eq_ofNames_of_clean hclean
  have hroot : root ≠ "" := by
    rintro rfl
    contradiction
  rw [habsolute] at hself
  rcases hchanged with rfl | rfl
  · have hnames : ∀ n ∈ Path.names root, Path.IsName n := fun _ hn => Path.isName_of_mem_names hn
    have hslash : fs.reach follow (root ++ "/" ++ Path.joinNames way) =
        fs.reach follow (Path.ofNames true (Path.names root ++ way)) := by
      nth_rewrite 1 [hself]
      exact reach_append_slash hnames hne hisName
    rw [hslash, Path.below_of_clean hclean, habsolute]
  · rw [Path.join_joinNames hroot hisName fun hmem => (hway _ hmem).ne_parent rfl]

theorem no_null_absolute {fs : FileSystem} (hs : fs.Sound) {path : String} (h : '\x00' ∉ path.toList) :
    '\x00' ∉ (fs.absolute path).toList := by
  rw [FileSystem.absolute, Path.absolute_eq hs.isAbsolute, hs.home_eq]
  refine Path.not_mem_ofNames (by decide) (by decide) fun n hn => ?_
  replace hn := Path.mem_of_mem_normalize hn
  have hown : n ∈ Path.names path → '\x00' ∉ n.toList := fun hmem hnull => h (Path.mem_of_mem_names hmem hnull)
  split at hn
  · exact hown hn
  · exact (List.mem_append.mp hn).elim (fun hn => (hs.entryName_workingDirectory n hn).no_null) hown

theorem no_null_reported {root changed : String} {way : List String} (hroot : '\x00' ∉ root.toList)
    (hne : root ≠ "") (hway : ∀ n ∈ way, EntryName n)
    (hchanged : changed = root ++ "/" ++ Path.joinNames way ∨ changed = Path.join [root, Path.joinNames way]) :
    '\x00' ∉ changed.toList := by
  have hisName : ∀ n ∈ way, Path.IsName n := fun n hn => (hway n hn).toIsName
  rcases hchanged with rfl | rfl
  · have hjoined : '\x00' ∉ (Path.ofNames true way).toList :=
      Path.not_mem_ofNames (by decide) (by decide) fun n hn => (hway n hn).no_null
    rw [String.append_assoc, String.toList_append]
    exact fun hmem => (List.mem_append.mp hmem).elim hroot hjoined
  · rw [Path.join_joinNames hne hisName fun hmem => (hway _ hmem).ne_parent rfl]
    exact no_null_below hroot hway

theorem isRegular_reported {fs : FileSystem} (hs : fs.Sound) {path changed : String} {way : List String}
    (hpath : Usable path) (hne : way ≠ []) (hway : ∀ n ∈ way, EntryName n)
    (hregular : fs.IsRegular (Path.below path way))
    (hchanged : changed = fs.absolute path ++ "/" ++ Path.joinNames way ∨
      changed = Path.join [fs.absolute path, Path.joinNames way])
    (hsize : changed.utf8ByteSize < pathLimit) : fs.IsRegular changed := by
  obtain ⟨-, l, content, hreach⟩ := hregular.exists_reach
  have habsolute := hs.isAbsolute_absolute path
  have hroot : fs.absolute path ≠ "" := by
    intro hempty
    rw [hempty] at habsolute
    contradiction
  have hlong : Path.below (fs.absolute path) way = fs.absolute (Path.below path way) :=
    (Path.absolute_below hs.isAbsolute path (fun n hn => (hway n hn).toIsName)
      fun hmem => (hway _ hmem).ne_parent rfl).symm
  have hnull := no_null_reported (no_null_absolute hs hpath.no_null) hroot hway hchanged
  have hempty : changed ≠ "" := by
    rintro rfl
    rcases hchanged with heq | heq
    · simpa using congrArg String.toList heq
    · rw [Path.join_joinNames hroot (fun n hn => (hway n hn).toIsName) fun hmem => (hway _ hmem).ne_parent rfl]
        at heq
      exact below_ne_empty _ hway heq.symm
  refine ⟨content, status_eq_ok_iff.mpr ⟨l, resolve_eq_ok_iff.mpr ⟨⟨hnull, hempty, hsize⟩, ?_⟩⟩⟩
  rw [reach_reported habsolute (hs.clean_absolute path) hne hway hchanged, hlong,
    hs.reach_absolute (clean_below path hway), hreach]

theorem roots_of_directory {fs : FileSystem} {path full : String} {entries : Entries}
    (hstatus : fs.status path = .ok (.directory entries)) (hfull : fs.absolute? path = some full) :
    roots fs [path] = [⟨full, path, none⟩] := by
  simp [roots, root?, hstatus, hfull, merge]

theorem getElem?_responses (j : Job) {fs : FileSystem} {supply : Supply} {path : String} {r : Root}
    (hroots : roots fs [path] = [r]) (hworks : supply.Works 0)
    (hbegins : ∀ file ∈ j.files fs [path], j.checker.waits fs j.ignoreTests file = false) {before : List Step}
    (hanswers : j.answersAll (roots fs [path]) before fs = true) {changed : String}
    (hends : j.hangs (after fs before) r changed = false) (later : List Step) :
    (j.watch fs supply [path] (before ++ .report 0 changed :: later)).responses[before.length]? =
      some (j.onChange (after fs before) r changed) := by
  rw [watch_of_execute (execute_eq_run_iff.mpr hbegins),
    j.responses_watchAfter _ _ (by simpa [hroots] using hworks) (by simp [hroots])]
  exact j.getElem?_respond hanswers (by rw [hroots]; rfl) hends later

def nestedFiles : FileSystem where
  root := [("w", .directory [("d", .directory [
    (".git", .directory [("y.py", .file ByteArray.empty)]),
    ("sub", .directory [("x.py", .file ByteArray.empty)])])])]
  workingDirectory := "/w"

def nestedSteps : List Step := [.report 0 "/w/d/z.py", .change (.write "d/sub/x.py" (.file ⟨#[10]⟩))]

def lockedFiles : FileSystem where
  root := [("w", .directory [("d", .directory [("s", .directory [("x.py", .file ByteArray.empty)])])])]
  workingDirectory := "/w"
  locked := [["w", "d", "s"]]

end FunctionLength.Job
