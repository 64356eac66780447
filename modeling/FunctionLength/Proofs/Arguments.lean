import FunctionLength.Proofs.Selection

namespace FunctionLength.Checker
open FunctionLength.FileSystem

variable {c : Checker} {fs : FileSystem} {path : String} {l : Location} {entries : Entries}

theorem filesBelow_of_link {target : String} (h : fs.linkStatus path = .ok (.link target)) :
    c.filesBelow fs path = if c.parser.supports (Path.extension path) then [path] else [] := by
  have hwalk : fs.walk c.ignoresDirectory path = [.found path] := by rw [walk, h]
  rw [filesBelow_eq_filter, hwalk]
  exact List.filter_singleton.trans (Bool.cond_eq_ite ..)

section Below

variable (hclean : fs.resolve true (Path.clean path) = .ok (l, .directory entries))
include hclean

theorem below_mem_filesBelow (hfs : fs.Tidy) (h : fs.resolve false path = .ok (l, .directory entries))
    (hfree : fs.isLocked l = false) {above : List String} {name : String} {e : Entry}
    (hsel : c.Selected path entries above name e) (hpass : Passable fs.isLocked l above) :
    Path.below path (above ++ [name]) ∈ c.filesBelow fs path := by
  refine (mem_filesBelow_iff_selected hfs h hfree).mpr ⟨above, name, e, ?_, rfl⟩
  exact (selected_seen_iff_of_reach hfs h (resolve_eq_ok_iff.mp hclean).2).mpr ⟨hsel, hpass⟩

theorem resolve_selected (hnull : '\x00' ∉ path.toList) {above : List String} {name : String}
    {content : ByteArray} (hleaf : Leaf entries above name (.file content))
    (hnames : ∀ n ∈ above ++ [name], EntryName n)
    (hsize : (Path.below path (above ++ [name])).utf8ByteSize < pathLimit) :
    fs.resolve true (Path.below path (above ++ [name])) = .ok (l ++ (above ++ [name]), .file content) := by
  refine resolve_eq_ok_iff.mpr ⟨⟨no_null_below hnull hnames, below_ne_empty path hnames, hsize⟩, ?_⟩
  exact reach_along_of (resolve_eq_ok_iff.mp hclean).2 hnames (by simp) hleaf.at?_eq (by simp)

end Below

end FunctionLength.Checker

namespace FunctionLength.Job
open FunctionLength.FileSystem FunctionLength.Checker

/-- An argument leads to a directory, and what comes of the run is the analysis of its files in turn, up to the first
that is waited for. If the argument is a link, nothing below the directory is analyzed. Otherwise, if the shortest path
leads to the same directory, every file below it is among the files that has an extension of interest and lies below
directories with paths that have nothing to be ignored in them and can be opened. -/
theorem directory_argument_walked {fs : FileSystem} (hfs : fs.Tidy) (j : Job) {path : String} {l : Location}
    {entries : Entries} (hpath : fs.resolve true path = .ok (l, .directory entries)) :
    Reaches j.checker fs j.ignoreTests (j.files fs [path]) {} (j.execute fs [path]) ∧
      Analyzes j.checker fs j.ignoreTests (j.files fs [path]) {} (j.run fs [path]) ∧
      ((∃ target, fs.linkStatus path = .ok (.link target)) →
        j.files fs [path] = if j.checker.parser.supports (Path.extension path) then [path] else []) ∧
      ((¬ ∃ target, fs.linkStatus path = .ok (.link target)) →
        fs.resolve true (Path.clean path) = .ok (l, .directory entries) → fs.isLocked l = false →
        ∀ above name content file, j.checker.Selected path entries above name (.file content) →
          Passable fs.isLocked l above → file = Path.join [path, Path.joinNames (above ++ [name])] →
          file ∈ j.files fs [path] ∧ (file.utf8ByteSize < pathLimit →
            fs.resolve true file = .ok (l ++ (above ++ [name]), .file content))) := by
  have hfiles : j.files fs [path] = j.checker.filesBelow fs path := by
    simp [files, filesAt, status_eq_ok_iff.mpr ⟨l, hpath⟩]
  have husable := (resolve_eq_ok_iff.mp hpath).1
  refine ⟨j.reaches_execute fs [path], j.analyzes_run fs [path], ?_, ?_⟩
  · rintro ⟨target, hlink⟩
    rw [hfiles, filesBelow_of_link hlink]
  · intro hnot hclean hfree above name content file hsel hpass hfile
    have hself : fs.resolve false path = .ok (l, .directory entries) := by
      rcases resolve_of_follow hpath with hl | ⟨l₁, target, hl⟩
      · exact hl
      · exact absurd ⟨target, linkStatus_eq_ok_iff.mpr ⟨l₁, hl⟩⟩ hnot
    have hnames := hsel.entryName (hfs.isSound_of_resolve hself)
    rw [Path.join_joinNames husable.ne_empty (fun n hn => (hnames n hn).toIsName)
      fun hparent => (hnames _ hparent).ne_parent rfl] at hfile
    rw [hfiles, hfile]
    exact ⟨below_mem_filesBelow hclean hfs hself hfree hsel hpass,
      resolve_selected hclean husable.no_null hsel.toLeaf hnames⟩

def linkedDirectory : FileSystem where
  root := [("d", .directory [("s", .directory [("x.py", .file ByteArray.empty)])]), ("link", .link "d")]
  workingDirectory := "/"

/-- With a slash at its end, a link is followed. -/
theorem directory_argument_walked_linkedDirectory :
    let entries : Entries := [("s", .directory [("x.py", .file ByteArray.empty)])]
    linkedDirectory.Tidy ∧ linkedDirectory.resolve true "link/" = .ok (["d"], .directory entries) ∧
      linkedDirectory.resolve true (Path.clean "link/") = .ok (["d"], .directory entries) ∧
      (¬ ∃ target, linkedDirectory.linkStatus "link/" = .ok (.link target)) ∧
      plainJob.checker.Selected "link/" entries ["s"] "x.py" (.file ByteArray.empty) ∧
      "link/s/x.py" ∈ plainJob.files linkedDirectory ["link/"] := by
  intro entries
  have htidy : linkedDirectory.Tidy := ⟨by decide +kernel, by decide +kernel⟩
  have hpath : linkedDirectory.resolve true "link/" = .ok (["d"], .directory entries) := by rfl
  have hclean : linkedDirectory.resolve true (Path.clean "link/") = .ok (["d"], .directory entries) := by rfl
  have hself : linkedDirectory.linkStatus "link/" = .ok (.directory entries) := by rfl
  have hnot : ¬ ∃ target, linkedDirectory.linkStatus "link/" = .ok (.link target) := by simp [hself]
  have hsel : plainJob.checker.Selected "link/" entries ["s"] "x.py" (.file ByteArray.empty) :=
    .of_single ⟨by rfl, rfl⟩ (by decide +kernel) (by decide +kernel) ⟨by decide +kernel, by decide +kernel⟩
  obtain ⟨-, -, -, hwalked⟩ := directory_argument_walked htidy plainJob hpath
  have hpass : Passable linkedDirectory.isLocked ["d"] ["s"] := fun _ _ _ => rfl
  exact ⟨htidy, hpath, hclean, hnot, hsel, (hwalked hnot hclean rfl _ _ _ _ hsel hpass (by decide +kernel)).1⟩

/-- Without it, nothing is analyzed. -/
theorem files_linkedDirectory :
    let entries : Entries := [("s", .directory [("x.py", .file ByteArray.empty)])]
    linkedDirectory.status "link" = .ok (.directory entries) ∧
      plainJob.checker.Selected "link" entries ["s"] "x.py" (.file ByteArray.empty) ∧
      plainJob.files linkedDirectory ["link"] = [] :=
  ⟨by rfl, .of_single ⟨by rfl, rfl⟩ (by decide +kernel) (by decide +kernel) ⟨by decide +kernel, by decide +kernel⟩,
    by decide +kernel⟩

end FunctionLength.Job
