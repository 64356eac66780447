import FunctionLength.Proofs.Coverage
import Mathlib.Data.List.Perm.Subperm

namespace FunctionLength.FileSystem

theorem isAbsolute_below (path : String) {way : List String} (hway : ∀ n ∈ way, EntryName n) :
    Path.isAbsolute (Path.below path way) = Path.isAbsolute path :=
  Path.isAbsolute_ofNames (canonical_below path hway).isName

theorem below_below (path : String) {way : List String} (hway : ∀ n ∈ way, EntryName n) (rest : List String) :
    Path.below (Path.below path way) rest = Path.below path (way ++ rest) := by
  rw [Path.below.eq_def path way, (canonical_below path hway).below_ofNames, List.append_assoc, ← Path.below]

section Slash

variable {fs : FileSystem} {path name : String}

theorem clean_slash (hne : path ≠ "") (hname : EntryName name) :
    Path.clean (path ++ "/" ++ name) = Path.below path [name] := by
  have habs : Path.isAbsolute (path ++ "/" ++ name) = Path.isAbsolute path := by
    rw [String.append_assoc, Path.isAbsolute_append _ hne]
  rw [Path.clean, habs, Path.names_append_slash, hname.toIsName.names_eq,
    Path.normalize_append_of_plain _ (by simpa using Ne.symm hname.ne_parent), Path.below]

theorem directory_slash (hclean : Path.clean path = path) (hne : path ≠ "") (hname : EntryName name) :
    Path.directory (path ++ "/" ++ name) = path := by
  rw [Path.directory_append_slash path hname.no_slash, Path.clean_append_slash hne, hclean]

variable (habsolute : Path.isAbsolute path = true) (hclean : Path.clean path = path) (hname : EntryName name)
include habsolute hclean

/-- The path of an entry is what its directory and its name make, but for one slash too many in the root. -/
theorem slash_cases (name : String) : path ++ "/" ++ name = Path.below path [name] ∨
    path ++ "/" ++ name = "/" ++ Path.below path [name] := by
  have hpath := Path.eq_ofNames_of_clean hclean
  rw [habsolute] at hpath
  rw [Path.below_of_clean hclean, habsolute]
  by_cases hnil : Path.names path = []
  · right
    rw [hnil] at hpath ⊢
    rw [hpath]
    apply String.toList_inj.mp
    simp [Path.ofNames, Path.joinNames]
  · left
    rw [Path.ofNames_concat hnil, ← hpath]

theorem mentions_below_of_slash {ignored : List String}
    (h : Path.mentions ignored (path ++ "/" ++ name) = false) :
    Path.mentions ignored (Path.below path [name]) = false := by
  rcases slash_cases habsolute hclean name with heq | heq
  · rwa [← heq]
  · by_contra hnot
    obtain ⟨part, hpart, hne, hinfix⟩ := Path.mentions_eq_true_iff.mp (Bool.not_eq_false _ ▸ hnot)
    have hlong : part.toList <:+: (path ++ "/" ++ name).toList := by
      rw [heq, String.toList_append]
      exact hinfix.trans (List.suffix_append _ _).isInfix
    simp [Path.mentions_eq_true_iff.mpr ⟨part, hpart, hne, hlong⟩] at h

include hname

theorem reach_slash (follow : Bool) :
    fs.reach follow (path ++ "/" ++ name) = fs.reach follow (Path.below path [name]) := by
  have hpath := Path.eq_ofNames_of_clean hclean
  rw [habsolute] at hpath
  have hslash : fs.reach follow (Path.ofNames true (Path.names path) ++ "/" ++ Path.joinNames [name]) =
      fs.reach follow (Path.ofNames true (Path.names path ++ [name])) :=
    reach_append_slash (Path.canonical_of_clean hclean).isName (by simp) (by simpa using hname.toIsName)
  rw [← hpath] at hslash
  simpa [Path.below_of_clean hclean, habsolute, Path.joinNames] using hslash

theorem resolve_below_of_slash {follow : Bool} {x : Location × Entry}
    (h : fs.resolve follow (path ++ "/" ++ name) = .ok x) :
    fs.resolve follow (Path.below path [name]) = .ok x := by
  obtain ⟨husable, hreach⟩ := resolve_eq_ok_iff.mp h
  rw [reach_slash habsolute hclean hname] at hreach
  refine resolve_eq_ok_iff.mpr ⟨?_, hreach⟩
  rcases slash_cases habsolute hclean name with heq | heq
  · rwa [← heq]
  · rw [heq] at husable
    have hsize := husable.size_lt
    rw [String.utf8ByteSize_append] at hsize
    refine ⟨fun hnull => husable.no_null (by simp [hnull]), below_ne_empty path (by simpa using hname), by omega⟩

end Slash

end FunctionLength.FileSystem

namespace FunctionLength.Watch
open FunctionLength.FileSystem

namespace Watcher

section Start

variable {w : Watcher} {fs : FileSystem} {root full : String}

theorem start_of_running (h : w.stopped = false) (hfull : fs.absolute? root = some full) :
    w.start fs root = .ok { w with
      subscriptions := subscribeAll (w.targets fs full) w.subscriptions
      loops := w.loops ++ [{}] } := by
  simp [start, hfull, h]

theorem start_of_stopped (h : w.stopped = true) (hfull : fs.absolute? root = some full) :
    w.start fs root =
      if w.targets fs full = [] then .ok { w with loops := w.loops ++ [{}] } else .error closedError := by
  cases hts : w.targets fs full <;> simp [start, hfull, h, hts, subscribeAll]

theorem start_of_unknown (hfull : fs.absolute? root = none) : w.start fs root = .error noDirectoryError := by
  simp [start, hfull]

end Start

section Targets

variable {fs : FileSystem} {w : Watcher} {root : String}

theorem exists_directory_of_targets {t : Location × String} (h : t ∈ w.targets fs root) :
    ∃ l entries, fs.resolve false root = .ok (l, .directory entries) := by
  simp only [targets] at h
  split at h
  · rename_i l e hroot
    cases e with
    | directory entries => exact ⟨l, entries, hroot⟩
    | file content => simp [directories] at h
    | link target => simp [directories] at h
    | special reading => simp [directories] at h
  · simp at h

variable (hclean : Path.clean root = root) {l : Location} {entries inner : Entries} {way : List String}
  (hroot : fs.resolve false root = .ok (l, .directory entries))
include hclean hroot

theorem resolve_target {ignored : List String} (hway : ∀ n ∈ way, EntryName n)
    (hat : Entries.at? entries way = some (.directory inner))
    (hopen : way = [] ∨ Open ignored (Path.below root way)) :
    fs.resolve true (Path.below root way) = .ok (l ++ way, .directory inner) := by
  have hstart := start_of_clean hclean hroot
  have hsize : (Path.below root way).utf8ByteSize < pathLimit := by
    rcases hopen with rfl | hopen
    · rw [Path.below_nil, hclean]
      exact hstart.usable.size_lt
    · exact hopen.size_lt
  exact resolve_eq_ok_iff.mpr ⟨⟨no_null_below hstart.usable.no_null hway, below_ne_empty _ hway, hsize⟩,
    hstart.reach_along hway hat (by simp)⟩

theorem target_cases (habsolute : Path.isAbsolute root = true) (hsound : entriesSound entries = true)
    {path : String} (hpath : path ∈ (w.targets fs root).map (·.2)) :
    (∃ l entries, fs.resolve true path = .ok (l, .directory entries)) ∧
      (path = root ∨ Path.mentions w.ignored path = false ∧
        ∃ way name, (∀ n ∈ way ++ [name], EntryName n) ∧ path = Path.below root (way ++ [name]) ∧
          Path.below root way ∈ (w.targets fs root).map (·.2)) := by
  obtain ⟨t, ht, rfl⟩ := List.mem_map.mp hpath
  obtain ⟨hfree, way, inner, hat, rfl, hopen, hpass⟩ := (mem_targets_iff hsound hroot hclean).mp ht
  have hway : ∀ n ∈ way, EntryName n := (Entry.below?_sound (e := .directory entries) hsound hat).2
  refine ⟨⟨l ++ way, inner, resolve_target hclean hroot hway hat hopen⟩, ?_⟩
  cases way using List.reverseRecOn with
  | nil => exact .inl ((Path.below_nil _).trans hclean)
  | append_singleton front name _ =>
    -- Ignore names and the limit apply to all of a path, so a directory above an open one is open.
    have hopen := hopen.resolve_left (by simp)
    have hprefix : (Path.below root front).toList <+: (Path.below root (front ++ [name])).toList := by
      rw [Path.below, Path.below, ← List.append_assoc]
      exact Path.ofNames_isPrefix [name] (.inl habsolute)
    obtain ⟨above, habove⟩ := exists_parent hat
    have hparent : (l ++ front, Path.below root front) ∈ w.targets fs root :=
      (mem_targets_iff hsound hroot hclean).mpr ⟨hfree, front, above, habove, rfl,
        .inr (hopen.of_isPrefix hprefix), fun part hne hpre => hpass part hne (hpre.trans (List.prefix_append _ _))⟩
    exact .inr ⟨hopen.not_ignored, front, name, hway, rfl, List.mem_map_of_mem hparent⟩

end Targets

def heldAt? (w : Watcher) (i : Nat) : Option Notice := w.loops[i]?.bind (·.held)

def heard (w : Watcher) : List Notice := w.pending ++ w.loops.filterMap (·.held)

section Loops

variable {w : Watcher} {i : Nat} {n : Notice}

theorem exists_perm_set {loops : List Loop} {loop : Loop} (h : loops[i]? = some loop) :
    ∃ rest, (loops.filterMap (·.held)).Perm (loop.held.toList ++ rest) ∧
      ∀ loop' : Loop, ((loops.set i loop').filterMap (·.held)).Perm (loop'.held.toList ++ rest) := by
  obtain ⟨hi, rfl⟩ := List.getElem?_eq_some_iff.mp h
  have hsplit : ∀ loop' : Loop, ((loops.set i loop').filterMap (·.held)).Perm
      (loop'.held.toList ++ ((loops.take i).filterMap (·.held) ++ (loops.drop (i + 1)).filterMap (·.held))) := by
    intro loop'
    rw [List.set_eq_take_append_cons_drop, if_pos hi, List.filterMap_append, List.filterMap_cons]
    cases loop'.held with
    | none => exact .refl _
    | some n => exact List.perm_middle
  have hself := hsplit loops[i]
  rw [List.set_getElem_self] at hself
  exact ⟨_, hself, hsplit⟩

/-- Taking a notice loses none. -/
theorem perm_heard_take (w : Watcher) (i : Nat) : (w.take i).heard.Perm w.heard := by
  unfold take
  split
  · rename_i seen n rest hloop hpending
    obtain ⟨others, hbefore, hafter⟩ := exists_perm_set hloop
    have hnext := (hafter ⟨seen, some n⟩).append_left rest
    have hlast := hbefore.symm.append_left (n :: rest)
    rw [heard, heard, hpending]
    refine hnext.trans (List.Perm.trans ?_ hlast)
    exact List.perm_middle
  · exact .refl _

theorem deal_of_free (h : w.heldAt? i = none) (fs : FileSystem) (time : Nat) : w.deal fs time i = (w, none) := by
  unfold deal
  split
  · rename_i hloop
    simp [heldAt?, hloop] at h
  · rfl

theorem deal_of_held (h : w.heldAt? i = some n) (fs : FileSystem) (time : Nat) : ∃ seen,
    w.loops[i]? = some ⟨seen, some n⟩ ∧
    w.deal fs time i = ({ w with
      subscriptions := subscribeAll (if w.stopped then [] else (addition? w.ignored fs n).toList) w.subscriptions
      loops := w.loops.set i (Loop.receive w.ignored fs time n ⟨seen, none⟩).1 },
      (Loop.receive w.ignored fs time n ⟨seen, none⟩).2) := by
  obtain ⟨⟨seen, held⟩, hloop, hheld⟩ := Option.bind_eq_some_iff.mp h
  obtain rfl : held = some n := hheld
  exact ⟨seen, hloop, by simp [deal, hloop]⟩

theorem perm_heard_deal (h : w.heldAt? i = some n) (fs : FileSystem) (time : Nat) :
    w.heard.Perm (n :: (w.deal fs time i).1.heard) := by
  obtain ⟨seen, hloop, hdeal⟩ := deal_of_held h fs time
  obtain ⟨others, hbefore, hafter⟩ := exists_perm_set hloop
  have hfree := hafter (Loop.receive w.ignored fs time n ⟨seen, none⟩).1
  rw [Loop.held_receive] at hfree
  rw [hdeal, heard, heard]
  exact (hbefore.append_left w.pending).trans (List.perm_middle.trans ((hfree.symm.append_left w.pending).cons n))

theorem mem_heard_of_heldAt? (h : w.heldAt? i = some n) : n ∈ w.heard := by
  obtain ⟨loop, hloop, hheld⟩ := Option.bind_eq_some_iff.mp h
  exact List.mem_append_right _ (List.mem_filterMap.mpr ⟨loop, List.mem_of_getElem? hloop, hheld⟩)

end Loops

end Watcher

theorem allNotices_nil (effects : List Effect) : allNotices [] effects = ([], []) := by
  have hone : ∀ effect, notices [] effect = ([], []) := by
    have habout : ∀ op l, aboutEntry [] op l = [] := fun op l => by
      unfold aboutEntry
      split <;> rfl
    intro effect
    cases effect with
    | create l e => cases e <;> simp [notices, habout]
    | write l content => simp [notices, habout]
    | delete l => simp [notices, habout, aboutSelf]
    | move source target => simp [notices, habout, aboutSelf]
    | setAttributes l => simp [notices, habout, aboutSelf]
  induction effects with
  | nil => rfl
  | cons effect rest ih => rw [allNotices_cons, hone, ih, List.nil_append]

/-- What can happen: the file system changes, a loop takes a notice or deals with it at a time, or the watcher
is told to begin or to end. The end of all subscriptions may have an error to say. -/
inductive Action where
  | change (c : Change)
  | take (loop : Nat)
  | deal (time : Nat) (loop : Nat)
  | start (root : String)
  | stop (closing : Option String)

structure Scene where
  fs : FileSystem
  watcher : Watcher

namespace Scene

def reports (s : Scene) : Action → List String
  | .deal time i => (s.watcher.deal s.fs time i).2.toList
  | _ => []

def error? (s : Scene) : Action → Option String
  | .start root =>
    match s.watcher.start s.fs root with
    | .ok _ => none
    | .error e => some e
  | .stop closing => s.watcher.stopError closing
  | _ => none

def added (s : Scene) (a : Action) : List String :=
  if s.watcher.stopped then []
  else
    match a with
    | .deal _ i => ((s.watcher.heldAt? i).bind (Watcher.addition? s.watcher.ignored s.fs)).toList.map (·.2)
    | .start root => (s.fs.absolute? root).elim [] fun full => (s.watcher.targets s.fs full).map (·.2)
    | _ => []

def act (s : Scene) : Action → Scene
  | .change c => ⟨s.fs.apply c, s.watcher.notify (s.fs.effects c)⟩
  | .take i => { s with watcher := s.watcher.take i }
  | .deal time i => { s with watcher := (s.watcher.deal s.fs time i).1 }
  | .start root =>
    match s.watcher.start s.fs root with
    | .ok watcher => { s with watcher }
    | .error _ => s
  | .stop _ => { s with watcher := s.watcher.stop }

def after (s : Scene) (actions : List Action) : Scene := actions.foldl act s

def reported (s : Scene) : List Action → List String
  | [] => []
  | a :: rest => s.reports a ++ (s.act a).reported rest

def everAdded (s : Scene) : List Action → List String
  | [] => []
  | a :: rest => s.added a ++ (s.act a).everAdded rest

def watched (s : Scene) : List String := paths s.watcher.subscriptions

variable {s : Scene}

theorem after_append (s : Scene) (before later : List Action) :
    s.after (before ++ later) = (s.after before).after later := List.foldl_append ..

theorem after_concat (s : Scene) (before : List Action) (a : Action) :
    s.after (before ++ [a]) = (s.after before).act a := List.foldl_concat ..

theorem everAdded_concat (s : Scene) (before : List Action) (a : Action) :
    s.everAdded (before ++ [a]) = s.everAdded before ++ (s.after before).added a := by
  induction before generalizing s with
  | nil => simp [everAdded, after]
  | cons b rest ih => simp [everAdded, ih, after]

section Step

theorem act_start (s : Scene) (root : String) : ∃ w, s.act (.start root) = ⟨s.fs, w⟩ ∧
    w.ignored = s.watcher.ignored ∧ w.stopped = s.watcher.stopped ∧ w.heard = s.watcher.heard ∧
    paths w.subscriptions ⊆ s.watched ++ s.added (.start root) := by
  cases hfull : s.fs.absolute? root with
  | none =>
    simp only [act, Watcher.start_of_unknown hfull]
    exact ⟨s.watcher, rfl, rfl, rfl, rfl, List.subset_append_left _ _⟩
  | some full =>
    cases hstopped : s.watcher.stopped with
    | true =>
      simp only [act, Watcher.start_of_stopped hstopped hfull]
      split
      · rename_i w hw
        split at hw
        · obtain rfl := Except.ok.inj hw
          exact ⟨_, rfl, rfl, hstopped, by simp [Watcher.heard], List.subset_append_left _ _⟩
        · cases hw
      · exact ⟨s.watcher, rfl, rfl, hstopped, rfl, List.subset_append_left _ _⟩
    | false =>
      simp only [act, Watcher.start_of_running hstopped hfull]
      refine ⟨_, rfl, rfl, hstopped, by simp [Watcher.heard], ?_⟩
      simp only [added, hstopped, hfull]
      exact paths_subscribeAll_subset _ _

theorem act_deal (s : Scene) (time i : Nat) : ∃ w, s.act (.deal time i) = ⟨s.fs, w⟩ ∧
    w.ignored = s.watcher.ignored ∧ w.stopped = s.watcher.stopped ∧ w.heard ⊆ s.watcher.heard ∧
    paths w.subscriptions ⊆ s.watched ++ s.added (.deal time i) := by
  refine ⟨_, rfl, ?_⟩
  cases hheld : s.watcher.heldAt? i with
  | none =>
    rw [Watcher.deal_of_free hheld]
    exact ⟨rfl, rfl, List.Subset.refl _, List.subset_append_left _ _⟩
  | some n =>
    have hheard := (Watcher.perm_heard_deal hheld s.fs time).symm.subset
    obtain ⟨seen, -, hdeal⟩ := Watcher.deal_of_held hheld s.fs time
    refine ⟨by rw [hdeal], by rw [hdeal], fun m hm => hheard (List.mem_cons_of_mem _ hm), ?_⟩
    rw [hdeal]
    refine List.Subset.trans (paths_subscribeAll_subset _ _) ?_
    rw [added, hheld]
    cases s.watcher.stopped <;> exact List.Subset.refl _

theorem ignored_act (s : Scene) (a : Action) : (s.act a).watcher.ignored = s.watcher.ignored := by
  cases a with
  | change c => rfl
  | take i =>
    simp only [act, Watcher.take]
    split <;> rfl
  | deal time i =>
    obtain ⟨w, hact, hignored, -⟩ := s.act_deal time i
    rw [hact, hignored]
  | start root =>
    obtain ⟨w, hact, hignored, -⟩ := s.act_start root
    rw [hact, hignored]
  | stop closing => rfl

theorem stopped_act_iff (s : Scene) (a : Action) :
    (s.act a).watcher.stopped = true ↔ s.watcher.stopped = true ∨ ∃ closing, a = .stop closing := by
  cases a with
  | change c => simp [act, Watcher.notify]
  | take i =>
    simp only [act, Watcher.take]
    split <;> simp
  | deal time i =>
    obtain ⟨w, hact, -, hstopped, -⟩ := s.act_deal time i
    simp [hact, hstopped]
  | start root =>
    obtain ⟨w, hact, -, hstopped, -⟩ := s.act_start root
    simp [hact, hstopped]
  | stop closing => simp [act, Watcher.stop]

theorem fs_act (s : Scene) (a : Action) : (s.act a).fs = s.fs ∨ ∃ c, a = .change c ∧ (s.act a).fs = s.fs.apply c := by
  cases a with
  | change c => exact .inr ⟨c, rfl, rfl⟩
  | take i => exact .inl rfl
  | deal time i => exact .inl rfl
  | start root =>
    obtain ⟨w, hact, -⟩ := s.act_start root
    exact .inl (by rw [hact])
  | stop closing => exact .inl rfl

theorem workingPath_act (s : Scene) (a : Action) : (s.act a).fs.workingPath = s.fs.workingPath := by
  rcases fs_act s a with hfs | ⟨c, -, hfs⟩ <;> rw [hfs]
  exact workingPath_apply s.fs c

theorem tidy_act (h : s.fs.Tidy) (a : Action) : (s.act a).fs.Tidy := by
  rcases fs_act s a with hfs | ⟨c, -, hfs⟩ <;> rw [hfs]
  · exact h
  · exact h.apply c

theorem watched_act_subset (s : Scene) (a : Action) : (s.act a).watched ⊆ s.watched ++ s.added a := by
  cases a with
  | change c => exact fun path hpath => List.mem_append_left _ (paths_allNotices_subset _ _ hpath)
  | take i =>
    simp only [act, watched, Watcher.take]
    split <;> exact List.subset_append_left _ _
  | deal time i =>
    obtain ⟨w, hact, -, -, -, hpaths⟩ := s.act_deal time i
    rw [hact]
    exact hpaths
  | start root =>
    obtain ⟨w, hact, -, -, -, hpaths⟩ := s.act_start root
    rw [hact]
    exact hpaths
  | stop closing => simp [watched, act, Watcher.stop, paths]

theorem mem_heard_act (h : s.fs.Tidy) {a : Action} {n : Notice} (hn : n ∈ (s.act a).watcher.heard) :
    n ∈ s.watcher.heard ∨ ∃ path ∈ s.watched, n.About path := by
  cases a with
  | change c =>
    simp only [act, Watcher.notify, Watcher.heard, List.mem_append] at hn
    rcases hn with (hn | hn) | hn
    · exact .inl (List.mem_append_left _ hn)
    · exact .inr (about_of_mem_allNotices (fun _ => proper_of_mem_effects h.entries) hn)
    · exact .inl (List.mem_append_right _ hn)
  | take i => exact .inl ((s.watcher.perm_heard_take i).subset hn)
  | deal time i =>
    obtain ⟨w, hact, -, -, hheard, -⟩ := s.act_deal time i
    rw [hact] at hn
    exact .inl (hheard hn)
  | start root =>
    obtain ⟨w, hact, -, -, hheard, -⟩ := s.act_start root
    rw [hact] at hn
    exact .inl (hheard ▸ hn)
  | stop closing => exact .inl (List.mem_append_right _ hn)

theorem exists_of_mem_reports {a : Action} {path : String} (h : path ∈ s.reports a) :
    ∃ time i n, a = .deal time i ∧ s.watcher.heldAt? i = some n ∧ n.path = path ∧
      n.Reportable s.watcher.ignored s.fs := by
  cases a with
  | deal time i =>
    cases hheld : s.watcher.heldAt? i with
    | none => simp [reports, Watcher.deal_of_free hheld] at h
    | some n =>
      obtain ⟨seen, -, hdeal⟩ := Watcher.deal_of_held hheld s.fs time
      rw [reports, hdeal] at h
      obtain ⟨hpath, hreportable⟩ := Loop.reportable_of_receive (Option.mem_toList.mp h)
      exact ⟨time, i, n, rfl, hheld, hpath, hreportable⟩
  | change c => simp [reports] at h
  | take i => simp [reports] at h
  | start root => simp [reports] at h
  | stop closing => simp [reports] at h

/-- A root that has an absolute path is watched if it is a directory that can be listed. -/
theorem mem_added_start_iff (h : s.fs.Tidy) {root full : String} (hfull : s.fs.absolute? root = some full) :
    full ∈ s.added (.start root) ↔ s.watcher.stopped = false ∧
      ∃ l entries, s.fs.resolve false full = .ok (l, .directory entries) ∧ s.fs.isLocked l = false := by
  have hclean : Path.clean full = full := absolute?_eq_some hfull ▸ h.clean_absolute root
  cases hstopped : s.watcher.stopped with
  | true => simp [added, hstopped]
  | false =>
    simp only [added, hstopped, hfull, Option.elim_some, Bool.false_eq_true, if_false, true_and]
    constructor
    · intro hmem
      obtain ⟨t, ht, -⟩ := List.mem_map.mp hmem
      obtain ⟨l, entries, hroot⟩ := Watcher.exists_directory_of_targets ht
      exact ⟨l, entries, hroot, ((mem_targets_iff (h.isSound_of_resolve hroot) hroot hclean).mp ht).1⟩
    · rintro ⟨l, entries, hroot, hfree⟩
      refine List.mem_map.mpr ⟨(l, full), (mem_targets_iff (h.isSound_of_resolve hroot) hroot hclean).mpr ?_, rfl⟩
      exact ⟨hfree, [], entries, rfl, by rw [Path.below_nil, hclean, List.append_nil], .inl rfl, passable_nil⟩

theorem error?_start_of_stopped (h : s.watcher.stopped = true) {root full : String} {l : Location}
    {entries : Entries} (hfull : s.fs.absolute? root = some full)
    (hroot : s.fs.resolve false full = .ok (l, .directory entries)) (hfree : s.fs.isLocked l = false) :
    s.error? (.start root) = some Watcher.closedError := by
  have htargets : s.watcher.targets s.fs full ≠ [] := by simp [Watcher.targets, hroot, directories, hfree]
  simp only [error?, Watcher.start_of_stopped h hfull, if_neg htargets]

end Step

section Stopped

variable {a : Action}

structure Silenced (s : Scene) : Prop where
  stopped_eq : s.watcher.stopped = true
  subscriptions_eq : s.watcher.subscriptions = []
  pending_eq : s.watcher.pending = []

theorem added_of_stopped (h : s.watcher.stopped = true) (a : Action) : s.added a = [] := by simp [added, h]

theorem subscriptions_of_silenced (h : s.Silenced) : (s.act a).watcher.subscriptions = [] := by
  have hwatched := s.watched_act_subset a
  rw [added_of_stopped h.stopped_eq, List.append_nil, watched, watched, h.subscriptions_eq] at hwatched
  simpa [paths] using hwatched

theorem Silenced.act (h : s.Silenced) (a : Action) : (s.act a).Silenced where
  stopped_eq := (stopped_act_iff s a).mpr (.inl h.stopped_eq)
  subscriptions_eq := subscriptions_of_silenced h
  pending_eq := by
    cases a with
    | change c => simp [Scene.act, Watcher.notify, h.subscriptions_eq, h.pending_eq, allNotices_nil]
    | take i => simp [Scene.act, Watcher.take, h.pending_eq]
    | deal time i =>
      simp only [Scene.act, Watcher.deal]
      split <;> exact h.pending_eq
    | start root =>
      simp only [Scene.act, Watcher.start]
      split
      · rename_i w hw
        split at hw
        · cases hw
        · split at hw
          · cases hw
          · obtain rfl := Except.ok.inj hw
            exact h.pending_eq
      · exact h.pending_eq
    | stop closing => rfl

/-- Whatever a stopped watcher reports, it has got before, and has not got any more. -/
theorem Silenced.subperm_act (h : s.Silenced) (a : Action) :
    (s.reports a ++ (s.act a).watcher.heard.map (·.path)).Subperm (s.watcher.heard.map (·.path)) := by
  cases a with
  | change c =>
    have hheard : (s.act (.change c)).watcher.heard = s.watcher.heard := by
      simp [Scene.act, Watcher.notify, Watcher.heard, h.subscriptions_eq, allNotices_nil]
    rw [hheard]
    exact List.Subperm.refl _
  | take i => exact ((s.watcher.perm_heard_take i).map _).subperm
  | deal time i =>
    cases hheld : s.watcher.heldAt? i with
    | none =>
      rw [reports, Scene.act, Watcher.deal_of_free hheld]
      exact List.Subperm.refl _
    | some n =>
      have hperm := ((Watcher.perm_heard_deal hheld s.fs time).map (·.path)).symm
      refine List.Subperm.trans ?_ hperm.subperm
      obtain ⟨seen, -, hdeal⟩ := Watcher.deal_of_held hheld s.fs time
      rw [List.map_cons, ← List.singleton_append]
      refine (List.Sublist.append_right ?_ _).subperm
      rw [reports, hdeal]
      cases hpath : (Loop.receive s.watcher.ignored s.fs time n ⟨seen, none⟩).2 with
      | none => exact List.nil_sublist _
      | some path =>
        rw [(Loop.reportable_of_receive hpath).1]
        exact List.Sublist.refl _
  | start root =>
    obtain ⟨w, hact, -, -, hheard, -⟩ := s.act_start root
    rw [hact, hheard]
    exact List.Subperm.refl _
  | stop closing =>
    exact (List.Sublist.map _ (List.sublist_append_right s.watcher.pending _)).subperm

theorem Silenced.subperm_after (h : s.Silenced) (actions : List Action) :
    (s.reported actions ++ (s.after actions).watcher.heard.map (·.path)).Subperm
      (s.watcher.heard.map (·.path)) := by
  induction actions generalizing s with
  | nil => exact List.Subperm.refl _
  | cons a rest ih =>
    have hrest := (List.subperm_append_left (s.reports a)).mpr (ih (h.act a))
    rw [← List.append_assoc] at hrest
    exact hrest.trans (h.subperm_act a)

theorem silenced_stop (s : Scene) (closing : Option String) : (s.act (.stop closing)).Silenced := ⟨rfl, rfl, rfl⟩

/-- All that is reported from a stop on was in the hands of a loop by then, and each notice is reported once. -/
theorem subperm_reported_stop (s : Scene) (closing : Option String) (later : List Action) :
    (s.reported (.stop closing :: later)).Subperm
      ((s.watcher.loops.filterMap (·.held)).map (·.path)) :=
  List.Subperm.trans (List.sublist_append_left _ _).subperm ((silenced_stop s closing).subperm_after later)

end Stopped

/-- Where directories are that may be watched: at a root, or in another one that was added. -/
def Placed (origin : Scene) (actions : List Action) (path : String) : Prop :=
  ∃ root full, Action.start root ∈ actions ∧ origin.fs.absolute? root = some full ∧
    (path = full ∨ Path.mentions origin.watcher.ignored path = false ∧
      ∃ way name, (∀ n ∈ way ++ [name], EntryName n) ∧ path = Path.below full (way ++ [name]) ∧
        Path.below full way ∈ origin.everAdded actions)

/-- What holds after some actions. -/
structure Steady (origin : Scene) (before : List Action) : Prop where
  tidy : (origin.after before).fs.Tidy
  workingPath_eq : (origin.after before).fs.workingPath = origin.fs.workingPath
  ignored_eq : (origin.after before).watcher.ignored = origin.watcher.ignored
  stopped_iff : (origin.after before).watcher.stopped = true ↔ ∃ closing, Action.stop closing ∈ before
  watched_subset : (origin.after before).watched ⊆ origin.everAdded before
  about : ∀ n ∈ (origin.after before).watcher.heard, ∃ path ∈ origin.everAdded before, n.About path
  placed : ∀ path ∈ origin.everAdded before, origin.Placed before path

section Run

variable {origin : Scene} {before : List Action}

theorem everAdded_subset_concat (origin : Scene) (before : List Action) (a : Action) :
    origin.everAdded before ⊆ origin.everAdded (before ++ [a]) := by
  rw [everAdded_concat]
  exact List.subset_append_left _ _

theorem Placed.concat {path : String} (h : origin.Placed before path) (a : Action) :
    origin.Placed (before ++ [a]) path := by
  obtain ⟨root, full, hroot, hfull, hpath⟩ := h
  refine ⟨root, full, List.mem_append_left _ hroot, hfull, hpath.imp_right ?_⟩
  rintro ⟨hignored, way, name, hway, rfl, hparent⟩
  exact ⟨hignored, way, name, hway, rfl, everAdded_subset_concat origin before a hparent⟩

namespace Steady

variable (h : Steady origin before)
include h

theorem absolute?_eq (root : String) : (origin.after before).fs.absolute? root = origin.fs.absolute? root := by
  simp only [FileSystem.absolute?, h.workingPath_eq]

theorem isAbsolute_of_full {root full : String} (hfull : origin.fs.absolute? root = some full) :
    Path.isAbsolute full = true := by
  rw [← h.absolute?_eq] at hfull
  exact absolute?_eq_some hfull ▸ h.tidy.isAbsolute_absolute root

theorem clean_of_full {root full : String} (hfull : origin.fs.absolute? root = some full) :
    Path.clean full = full := by
  rw [← h.absolute?_eq] at hfull
  exact absolute?_eq_some hfull ▸ h.tidy.clean_absolute root

theorem exists_way {path : String} (hpath : path ∈ origin.everAdded before) :
    ∃ root full way, Action.start root ∈ before ∧ origin.fs.absolute? root = some full ∧
      (∀ n ∈ way, EntryName n) ∧ path = Path.below full way := by
  obtain ⟨root, full, hroot, hfull, rfl | ⟨-, way, name, hway, rfl, -⟩⟩ := h.placed path hpath
  · exact ⟨root, path, [], hroot, hfull, by simp, ((Path.below_nil _).trans (h.clean_of_full hfull)).symm⟩
  · exact ⟨root, full, way ++ [name], hroot, hfull, hway, rfl⟩

theorem isAbsolute_of_mem {path : String} (hpath : path ∈ origin.everAdded before) :
    Path.isAbsolute path = true := by
  obtain ⟨root, full, way, -, hfull, hway, rfl⟩ := h.exists_way hpath
  exact (isAbsolute_below _ hway).trans (h.isAbsolute_of_full hfull)

theorem clean_of_mem {path : String} (hpath : path ∈ origin.everAdded before) : Path.clean path = path := by
  obtain ⟨root, full, way, -, -, hway, rfl⟩ := h.exists_way hpath
  exact clean_below _ hway

theorem ne_empty_of_mem {path : String} (hpath : path ∈ origin.everAdded before) : path ≠ "" := by
  obtain ⟨root, full, way, -, -, hway, rfl⟩ := h.exists_way hpath
  exact below_ne_empty _ hway

theorem exists_entry_of_addition {above : String} (habove : above ∈ origin.everAdded before) {n : Notice}
    (habout : n.About above) {fs : FileSystem} {l : Location} {path : String}
    (hadd : Watcher.addition? origin.watcher.ignored fs n = some (l, path)) :
    ∃ name, EntryName name ∧ path = Path.below above [name] ∧
      Path.mentions origin.watcher.ignored path = false ∧
      ∃ entries, fs.resolve true path = .ok (l, .directory entries) := by
  obtain ⟨hnew, hignored, -, rfl⟩ := Watcher.addition?_eq_some_iff.mp hadd
  obtain ⟨hop, entries, hresolve⟩ := Notice.newDirectory?_eq_some_iff.mp hnew
  have habsolute := h.isAbsolute_of_mem habove
  have hclean := h.clean_of_mem habove
  cases habout with
  | self hpath hnot => exact absurd hop hnot
  | entry name hname hpath =>
    rw [hpath] at hignored hresolve ⊢
    rw [clean_slash (h.ne_empty_of_mem habove) hname]
    exact ⟨name, hname, rfl, mentions_below_of_slash habsolute hclean hignored, entries,
      resolve_below_of_slash habsolute hclean hname hresolve⟩

theorem placed_entry {above name : String} (habove : above ∈ origin.everAdded before) (hname : EntryName name)
    (hignored : Path.mentions origin.watcher.ignored (Path.below above [name]) = false) (a : Action) :
    origin.Placed (before ++ [a]) (Path.below above [name]) := by
  obtain ⟨root, full, way, hroot, hfull, hway, rfl⟩ := h.exists_way habove
  refine ⟨root, full, List.mem_append_left _ hroot, hfull,
    .inr ⟨hignored, way, name, ?_, below_below _ hway _, everAdded_subset_concat origin before a habove⟩⟩
  intro n hn
  rcases List.mem_append.mp hn with hn | hn
  · exact hway n hn
  · exact List.mem_singleton.mp hn ▸ hname

theorem of_mem_added {a : Action} {path : String} (hpath : path ∈ (origin.after before).added a) :
    (∃ l entries, (origin.after (before ++ [a])).fs.resolve true path = .ok (l, .directory entries)) ∧
      origin.Placed (before ++ [a]) path := by
  have hadded := everAdded_concat origin before a
  rw [after_concat]
  simp only [added] at hpath hadded
  split at hpath
  · simp at hpath
  rename_i hstopped
  rw [if_neg hstopped] at hadded
  cases a with
  | deal time i =>
    obtain ⟨⟨l, path⟩, hadd, rfl⟩ := List.mem_map.mp hpath
    obtain ⟨n, hheld, hadd⟩ := Option.bind_eq_some_iff.mp (Option.mem_toList.mp hadd)
    rw [h.ignored_eq] at hadd
    obtain ⟨above, habove, habout⟩ := h.about n (Watcher.mem_heard_of_heldAt? hheld)
    obtain ⟨name, hname, rfl, hignored, entries, hresolve⟩ := h.exists_entry_of_addition habove habout hadd
    exact ⟨⟨l, entries, hresolve⟩, h.placed_entry habove hname hignored _⟩
  | start root =>
    cases hfull : (origin.after before).fs.absolute? root with
    | none => simp [hfull] at hpath
    | some full =>
      simp only [hfull, Option.elim_some] at hpath hadded
      rw [h.absolute?_eq] at hfull
      obtain ⟨t, ht, -⟩ := List.mem_map.mp hpath
      obtain ⟨l, entries, hroot⟩ := Watcher.exists_directory_of_targets ht
      obtain ⟨hresolve, hcases⟩ := Watcher.target_cases (h.clean_of_full hfull) hroot
        (h.isAbsolute_of_full hfull) (h.tidy.isSound_of_resolve hroot) hpath
      obtain ⟨w, hact, -⟩ := act_start (origin.after before) root
      rw [h.ignored_eq] at hcases
      refine ⟨by rwa [hact], root, full, by simp, hfull, hcases.imp_right ?_⟩
      rintro ⟨hignored, way, name, hway, rfl, hparent⟩
      refine ⟨hignored, way, name, hway, rfl, ?_⟩
      rw [hadded]
      exact List.mem_append_right _ hparent
  | change c => simp at hpath
  | take i => simp at hpath
  | stop closing => simp at hpath

/-- A notice is about a root, or about an entry of a directory that was added. -/
theorem of_mem_heard {n : Notice} (hn : n ∈ (origin.after before).watcher.heard) :
    (∃ root, Action.start root ∈ before ∧ origin.fs.absolute? root = some n.path ∧
        n.path ∈ origin.everAdded before) ∨
      Path.directory n.path ∈ origin.everAdded before := by
  obtain ⟨path, hpath, habout⟩ := h.about n hn
  cases habout with
  | self heq _ =>
    -- The directory above may have been moved away, so it need not be watched any more.
    rw [heq]
    obtain ⟨root, full, hroot, hfull, rfl | ⟨-, way, name, hway, rfl, hparent⟩⟩ := h.placed path hpath
    · exact .inl ⟨root, hroot, hfull, hpath⟩
    · rw [directory_below _ hway]
      exact .inr hparent
  | entry name hname heq =>
    rw [heq, directory_slash (h.clean_of_mem hpath) (h.ne_empty_of_mem hpath) hname]
    exact .inr hpath

theorem concat (a : Action) : Steady origin (before ++ [a]) := by
  have hafter := after_concat origin before a
  have hmore := everAdded_subset_concat origin before a
  constructor
  · rw [hafter]
    exact tidy_act h.tidy a
  · rw [hafter, workingPath_act, h.workingPath_eq]
  · rw [hafter, ignored_act, h.ignored_eq]
  · rw [hafter, stopped_act_iff, h.stopped_iff]
    simp only [List.mem_append, List.mem_singleton, exists_or, eq_comm]
  · intro path hpath
    rw [hafter] at hpath
    rw [everAdded_concat]
    rcases List.mem_append.mp (watched_act_subset _ a hpath) with hpath | hpath
    · exact List.mem_append_left _ (h.watched_subset hpath)
    · exact List.mem_append_right _ hpath
  · intro n hn
    rw [hafter] at hn
    rcases mem_heard_act h.tidy hn with hn | ⟨path, hpath, habout⟩
    · obtain ⟨path, hpath, habout⟩ := h.about n hn
      exact ⟨path, hmore hpath, habout⟩
    · exact ⟨path, hmore (h.watched_subset hpath), habout⟩
  · intro path hpath
    rw [everAdded_concat] at hpath
    rcases List.mem_append.mp hpath with hpath | hpath
    · exact (h.placed path hpath).concat a
    · exact (h.of_mem_added hpath).2

theorem append (later : List Action) : Steady origin (before ++ later) := by
  induction later generalizing before with
  | nil => rwa [List.append_nil]
  | cons a rest ih =>
    rw [List.append_cons]
    exact ih (h.concat a)

end Steady

theorem steady {fs : FileSystem} (h : fs.Tidy) (ignored : List String) (before : List Action) :
    Steady ⟨fs, { ignored }⟩ before := by
  have hnil : Steady ⟨fs, { ignored }⟩ [] :=
    ⟨h, rfl, rfl, by simp [after], by simp [watched, after, paths], by simp [after, Watcher.heard],
      by simp [everAdded]⟩
  exact hnil.append before

end Run

def movedFiles : FileSystem where
  root := [("l", .link "w"), ("o", .directory []), ("w", .directory [
    ("a", .directory [("b", .directory [("x.py", .file ByteArray.empty)])])])]
  workingDirectory := "/"

def moves : List Action :=
  [.start "w", .change (.rename "w/a" "w/c"), .take 0, .deal 0 0, .take 0, .deal 0 0, .take 0, .deal 0 0]

end Scene

end FunctionLength.Watch
