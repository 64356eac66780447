import FunctionLength.Proofs.Notices
import FunctionLength.Proofs.Walks

namespace FunctionLength.Watch
open FunctionLength.FileSystem

section Directories

variable {ignored : List String} {absolute : Bool} {ns : List String} {entries : Entries} {l : Location}

theorem directoriesIn_eq_flatMap (locked : Location → Bool) (prune : String → Bool) (l : Location)
    (above : String) (entries : Entries) :
    directoriesIn locked prune l above entries = entries.flatMap fun p =>
      if prune (Path.join [above, p.1]) || pathLimit ≤ (Path.join [above, p.1]).utf8ByteSize then []
      else directories locked prune (l ++ [p.1]) (Path.join [above, p.1]) p.2 := by
  induction entries with
  | nil => rfl
  | cons p rest ih => rw [directoriesIn, ih, List.flatMap_cons]

theorem mem_directories_iff {locked : Location → Bool} {prune : String → Bool} {path : String}
    {x : Location × String} :
    x ∈ directories locked prune l path (.directory entries) ↔
      locked l = false ∧ (x = (l, path) ∨ x ∈ directoriesIn locked prune l path entries) := by
  rw [directories]
  cases locked l <;> simp

theorem mem_unless_pruned {path : String} {ds : List (Location × String)} {x : Location × String} :
    x ∈ (if Path.mentions ignored path || pathLimit ≤ path.utf8ByteSize then [] else ds) ↔
      Open ignored path ∧ x ∈ ds := by
  by_cases hopen : Open ignored path
  · have hsize : ¬ pathLimit ≤ path.utf8ByteSize := Nat.not_le.mpr hopen.size_lt
    simp [hopen, hopen.not_ignored, hsize]
  · have hpruned : (Path.mentions ignored path || decide (pathLimit ≤ path.utf8ByteSize)) = true := by
      by_contra hnot
      simp only [Bool.or_eq_true, not_or, Bool.not_eq_true, decide_eq_false_iff_not] at hnot
      exact hopen ⟨hnot.1, Nat.not_le.mp hnot.2⟩
    simp [hopen, hpruned]

theorem mem_directoriesIn_iff {locked : Location → Bool} (hs : entriesSound entries = true)
    (hns : Path.Canonical absolute ns) {x : Location × String} :
    x ∈ directoriesIn locked (Path.mentions ignored) l (Path.ofNames absolute ns) entries ↔
      ∃ way inner, way ≠ [] ∧ Entries.at? entries way = some (.directory inner) ∧
        x = (l ++ way, Path.ofNames absolute (ns ++ way)) ∧
        Open ignored (Path.ofNames absolute (ns ++ way)) ∧ Passable locked l way := by
  induction entries using Entries.induction generalizing l ns with
  | step entries ih =>
    rw [directoriesIn_eq_flatMap, List.mem_flatMap]
    constructor
    · rintro ⟨⟨name, e⟩, hp, hx⟩
      obtain ⟨hname, hsound⟩ := entryName_of_mem hs hp
      have hlookup := (lookup_eq_some_iff hs).mpr hp
      rw [mem_unless_pruned, join_ofNames hns hname] at hx
      obtain ⟨hopen, hx⟩ := hx
      cases e with
      | directory inner =>
        obtain ⟨hfree, rfl | hx⟩ := mem_directories_iff.mp hx
        · refine ⟨[name], inner, by simp, ?_, rfl, hopen, passable_cons_iff.mpr ⟨hfree, passable_nil⟩⟩
          exact (Entry.below?_directory_singleton entries name).trans hlookup
        · obtain ⟨way, deep, -, hat, rfl, hway, hpass⟩ :=
            (ih name inner hp hsound (hname.canonical_concat hns)).mp hx
          refine ⟨name :: way, deep, by simp, ?_, by simp, by simpa using hway, passable_cons_iff.mpr ⟨hfree, hpass⟩⟩
          rw [Entry.at?_cons, hlookup]
          exact hat
      | file content => simp [directories] at hx
      | link target => simp [directories] at hx
      | special reading => simp [directories] at hx
    · rintro ⟨way, deep, hne, hat, rfl, hopen, hpass⟩
      cases way with
      | nil => contradiction
      | cons first rest =>
        obtain ⟨hfree, hpass⟩ := passable_cons_iff.mp hpass
        by_cases hrest : rest = []
        · subst hrest
          have hlookup := (Entry.below?_directory_singleton entries first).symm.trans hat
          have hp := (lookup_eq_some_iff hs).mp hlookup
          refine ⟨_, hp, mem_unless_pruned.mpr ?_⟩
          rw [join_ofNames hns (entryName_of_mem hs hp).1]
          exact ⟨hopen, mem_directories_iff.mpr ⟨hfree, .inl rfl⟩⟩
        · obtain ⟨inner, hinner, hdeep⟩ := exists_inner hrest hat
          have hp := (lookup_eq_some_iff hs).mp hinner
          obtain ⟨hname, hsound⟩ := entryName_of_mem hs hp
          have hall : Open ignored (Path.ofNames absolute (ns ++ [first] ++ rest)) := by simpa using hopen
          refine ⟨_, hp, mem_unless_pruned.mpr ?_⟩
          rw [join_ofNames hns hname]
          refine ⟨open_of_append (by simp) hall, mem_directories_iff.mpr ⟨hfree, .inr ?_⟩⟩
          exact (ih first inner hp hsound (hname.canonical_concat hns)).mpr
            ⟨rest, deep, hrest, hdeep, by simp, hall, hpass⟩

end Directories

/-- A watcher of a directory, which is subscribed to it and to all that are open below it. -/
structure Watching (ignored : List String) (locked : Location → Bool) (root : String) (l : Location)
    (entries : Entries) (w : Watcher) : Prop where
  ignored_eq : w.ignored = ignored
  mem_subscriptions : ∀ s, s ∈ w.subscriptions ↔
    locked l = false ∧ ∃ way inner, Entries.at? entries way = some (.directory inner) ∧
      s = ⟨l ++ way, Path.below root way⟩ ∧ (way = [] ∨ Open ignored (Path.below root way)) ∧
      Passable locked l way

section Root

variable {w : Watcher} {fs : FileSystem} {root : String} {l : Location} {entries : Entries}
variable (hsound : entriesSound entries = true) (hroot : fs.resolve false root = .ok (l, .directory entries))
  (hclean : Path.clean root = root)
include hsound hroot hclean

theorem mem_targets_iff {x : Location × String} :
    x ∈ w.targets fs root ↔
      fs.isLocked l = false ∧ ∃ way inner, Entries.at? entries way = some (.directory inner) ∧
        x = (l ++ way, Path.below root way) ∧ (way = [] ∨ Open w.ignored (Path.below root way)) ∧
        Passable fs.isLocked l way := by
  have hself : Path.below root [] = root := (Path.below_nil root).trans hclean
  have hbelow : x ∈ directoriesIn fs.isLocked (Path.mentions w.ignored) l root entries ↔
      ∃ way inner, way ≠ [] ∧ Entries.at? entries way = some (.directory inner) ∧
        x = (l ++ way, Path.below root way) ∧ Open w.ignored (Path.below root way) ∧
        Passable fs.isLocked l way := by
    simp only [Path.below_of_clean hclean]
    rw [← mem_directoriesIn_iff hsound (Path.canonical_of_clean hclean), ← Path.eq_ofNames_of_clean hclean]
  simp only [Watcher.targets, hroot, mem_directories_iff, hbelow]
  refine and_congr_right fun _ => ⟨?_, ?_⟩
  · rintro (rfl | ⟨way, inner, -, hat, rfl, hopen, hpass⟩)
    · exact ⟨[], entries, rfl, by simp [hself], .inl rfl, passable_nil⟩
    · exact ⟨way, inner, hat, rfl, .inr hopen, hpass⟩
  · rintro ⟨way, inner, hat, rfl, hopen, hpass⟩
    by_cases hnil : way = []
    · exact .inl (by simp [hnil, hself])
    · exact .inr ⟨way, inner, hnil, hat, rfl, hopen.resolve_left hnil, hpass⟩

theorem targets_consistent : ∀ x ∈ w.targets fs root, ∀ y ∈ w.targets fs root, x.1 = y.1 ↔ x.2 = y.2 := by
  have hnames : ∀ {way : List String} {inner : Entries}, Entries.at? entries way = some (.directory inner) →
      ∀ n ∈ way, EntryName n := fun hat => (Entry.below?_sound (e := .directory entries) hsound hat).2
  intro x hx y hy
  obtain ⟨-, way, inner, hat, rfl, -⟩ := (mem_targets_iff hsound hroot hclean).mp hx
  obtain ⟨-, way', inner', hat', rfl, -⟩ := (mem_targets_iff hsound hroot hclean).mp hy
  simp only [List.append_cancel_left_eq]
  refine ⟨fun heq => by rw [heq], fun heq => ?_⟩
  have hsame := congrArg Path.names heq
  rw [names_below root (hnames hat), names_below root (hnames hat')] at hsame
  exact List.append_cancel_left hsame

theorem exists_watching (ignored : List String) (habsolute : Path.isAbsolute root = true) :
    ∃ w, ({ ignored } : Watcher).start fs root = .ok w ∧ Watching ignored fs.isLocked root l entries w ∧
      w.Resting [] := by
  have hfull : fs.absolute? root = some root := by
    rw [absolute?_eq, habsolute, FileSystem.absolute, Path.absolute, if_pos habsolute, hclean]
    rfl
  simp only [Watcher.start, hfull, Bool.false_and, Bool.false_eq_true, if_false]
  refine ⟨_, rfl, ⟨rfl, fun s => ?_⟩, rfl, rfl, rfl⟩
  rw [mem_subscribeAll_iff (targets_consistent hsound hroot hclean) (by simp), mem_targets_iff hsound hroot hclean]
  cases s
  simp

end Root

namespace Watching

variable {ignored : List String} {locked : Location → Bool} {root : String} {l : Location}
  {entries inner : Entries} {w : Watcher} {seen : List (String × Nat)} {fs : FileSystem} {time : Nat} {c : Change}
  {content : ByteArray}

theorem observe (h : Watching ignored locked root l entries w) (hresting : w.Resting seen) {place : Location}
    (heffects : fs.effects c = [.write place content]) :
    Watching ignored locked root l entries (w.observe fs time c).1 where
  ignored_eq := (Watcher.ignored_observe hresting).trans h.ignored_eq
  mem_subscriptions := by
    rw [Watcher.subscriptions_observe_write hresting heffects]
    exact h.mem_subscriptions

/-- What is reported of a file that is written: its path below the path of its directory, unless one of the
directories on the way is ignored. -/
theorem mem_reports_iff (h : Watching ignored locked root l entries w) (hresting : w.Resting seen)
    (hseen : ∀ x ∈ seen, x.2 + pause ≤ time) {way : List String} {name : String}
    (hway : Entries.at? entries way = some (.directory inner))
    (heffects : fs.effects c = [.write (l ++ way ++ [name]) content]) {changed : String} :
    changed ∈ (w.observe fs time c).2 ↔
      changed = Path.below root way ++ "/" ++ name ∧ Path.mentions ignored (Path.directory changed) = false ∧
        (way = [] ∨ Open ignored (Path.below root way)) ∧ locked l = false ∧ Passable locked l way := by
  have hunique : ∀ s ∈ w.subscriptions, s.location = l ++ way → s = ⟨l ++ way, Path.below root way⟩ ∧
      (way = [] ∨ Open ignored (Path.below root way)) ∧ locked l = false ∧ Passable locked l way := by
    intro s hs hlocation
    obtain ⟨hfree, way', inner', -, rfl, hopen, hpass⟩ := (h.mem_subscriptions s).mp hs
    obtain rfl : way' = way := by simpa using hlocation
    exact ⟨rfl, hopen, hfree, hpass⟩
  by_cases hsub : ⟨l ++ way, Path.below root way⟩ ∈ w.subscriptions
  · obtain ⟨-, hopen, hfree, hpass⟩ := hunique _ hsub rfl
    rw [Watcher.mem_observe_iff hresting hseen hsub (fun x hx hlocation => (hunique x hx hlocation).1) heffects,
      h.ignored_eq]
    simp [hopen, hfree, hpass]
  · have hnone : ∀ x ∈ w.subscriptions, x.location ≠ l ++ way := fun x hx hlocation =>
      hsub ((hunique x hx hlocation).1 ▸ hx)
    rw [Watcher.reports_of_no_subscription hresting hnone heffects]
    simp only [List.not_mem_nil, false_iff]
    rintro ⟨-, -, hopen, hfree, hpass⟩
    exact hsub ((h.mem_subscriptions _).mpr ⟨hfree, way, inner, hway, rfl, hopen, hpass⟩)

end Watching

end FunctionLength.Watch
