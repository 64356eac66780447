import FunctionLength.FileSystem.Walk
import FunctionLength.Proofs.Resolution

/-!
What a walk comes to: every entry below its start that is no directory, unless the directory of the entry is
left out. The directories above need no check of their own, since an ignored name stays part of the path.
-/

namespace FunctionLength.FileSystem

theorem sizeOf_lt_of_mem {entries inner : Entries} {name : String} (h : (name, Entry.directory inner) ∈ entries) :
    sizeOf inner < sizeOf entries := by
  have hlt := List.sizeOf_lt_of_mem h
  simp only [Prod.mk.sizeOf_spec, Entry.directory.sizeOf_spec] at hlt
  omega

theorem Entries.induction {motive : Entries → Prop}
    (step : ∀ entries, (∀ name inner, (name, Entry.directory inner) ∈ entries → motive inner) → motive entries)
    (entries : Entries) : motive entries := by
  refine step entries fun name inner h => ?_
  have hlt := sizeOf_lt_of_mem h
  exact Entries.induction step inner
termination_by sizeOf entries

structure Open (ignored : List String) (path : String) : Prop where
  not_ignored : Path.mentions ignored path = false
  size_lt : path.utf8ByteSize < pathLimit

variable {ignored : List String} {absolute : Bool} {ns : List String}

theorem Open.of_isPrefix {path longer : String} (h : Open ignored longer)
    (hpre : path.toList <+: longer.toList) : Open ignored path where
  not_ignored := by
    cases hpath : Path.mentions ignored path with
    | false => rfl
    | true => exact absurd (Path.mentions_of_isPrefix hpre hpath) (by simp [h.not_ignored])
  size_lt := Nat.lt_of_le_of_lt (Path.utf8ByteSize_le_of_isPrefix hpre) h.size_lt

theorem EntryName.canonical_concat {name : String} (h : EntryName name) (hns : Path.Canonical absolute ns) :
    Path.Canonical absolute (ns ++ [name]) :=
  hns.append (by simpa using h.toIsName) (by simpa using Ne.symm h.ne_parent)

theorem join_name {path name : String} (hpath : path ≠ "") (h : EntryName name) :
    Path.join [path, name] = Path.below path [name] := by
  have hone : Path.joinNames [name] = name := by simp [Path.joinNames]
  rw [← Path.join_joinNames hpath (by simpa using h.toIsName) (by simpa using Ne.symm h.ne_parent), hone]

theorem join_ofNames {name : String} (hns : Path.Canonical absolute ns) (h : EntryName name) :
    Path.join [Path.ofNames absolute ns, name] = Path.ofNames absolute (ns ++ [name]) := by
  rw [join_name (Path.ofNames_ne_empty hns.isName) h, hns.below_ofNames]

section Visits

variable {locked : Location → Bool} {l : Location}

theorem visitAll_eq_flatMap (locked : Location → Bool) (prune : String → Bool) (l : Location) (above : String)
    (entries : Entries) :
    visitAll locked prune l above entries =
      entries.flatMap fun p => visit locked prune (l ++ [p.1]) (Path.join [above, p.1]) p.2 := by
  induction entries with
  | nil => rfl
  | cons p rest ih => rw [visitAll, ih, List.flatMap_cons]

theorem visit_leaf {e : Entry} (h : e.isDirectory = false) (prune : String → Bool) (path : String) :
    visit locked prune l path e = [.found path] := by
  cases e with
  | directory entries => contradiction
  | file content => rfl
  | link target => rfl
  | special reading => rfl

theorem found_mem_visit_directory {entries : Entries} {path q : String} :
    .found q ∈ visit locked (Path.mentions ignored) l path (.directory entries) ↔
      Open ignored path ∧ locked l = false ∧
        .found q ∈ visitAll locked (Path.mentions ignored) l path entries := by
  rw [visit]
  cases hprune : Path.mentions ignored path with
  | true => exact ⟨fun h => by simp at h, fun h => absurd h.1.not_ignored (by simp [hprune])⟩
  | false =>
    by_cases hsize : pathLimit ≤ path.utf8ByteSize
    · simp only [Bool.false_eq_true, if_false, if_pos hsize]
      exact ⟨fun h => by simp at h, fun h => absurd h.1.size_lt (Nat.not_lt.mpr hsize)⟩
    · have hopen : Open ignored path := ⟨hprune, Nat.not_le.mp hsize⟩
      cases hlocked : locked l <;> simp [hsize, hopen]

end Visits

/-- An entry that is no directory, by the names that lead to it. The last of them is its own. -/
structure Leaf (entries : Entries) (way : List String) (name : String) (e : Entry) : Prop where
  at?_eq : Entries.at? entries (way ++ [name]) = some e
  isDirectory_eq : e.isDirectory = false

theorem leaf_cons_iff {entries : Entries} {first : String} {way : List String} {name : String} {e : Entry} :
    Leaf entries (first :: way) name e ↔
      ∃ inner, entries.lookup first = some (.directory inner) ∧ Leaf inner way name e := by
  constructor
  · rintro ⟨hat, hleaf⟩
    obtain ⟨inner, hinner, hrest⟩ := exists_inner (by simp) hat
    exact ⟨inner, hinner, hrest, hleaf⟩
  · rintro ⟨inner, hinner, hat, hleaf⟩
    refine ⟨?_, hleaf⟩
    rw [List.cons_append, Entry.at?_cons, hinner]
    exact hat

theorem leaf_nil_iff {entries : Entries} {name : String} {e : Entry} :
    Leaf entries [] name e ↔ entries.lookup name = some e ∧ e.isDirectory = false := by
  have hat : Entries.at? entries ([] ++ [name]) = entries.lookup name :=
    Entry.below?_directory_singleton entries name
  exact ⟨fun h => ⟨hat ▸ h.at?_eq, h.isDirectory_eq⟩, fun h => ⟨hat ▸ h.1, h.2⟩⟩

theorem open_of_append {front back : List String} (hne : front ≠ [])
    (h : Open ignored (Path.ofNames absolute (ns ++ front ++ back))) :
    Open ignored (Path.ofNames absolute (ns ++ front)) :=
  h.of_isPrefix (Path.ofNames_isPrefix back (.inr (by simp [hne])))

/-- No directory on a way down is locked. -/
def Passable (locked : Location → Bool) (l : Location) (way : List String) : Prop :=
  ∀ front, front ≠ [] → front <+: way → locked (l ++ front) = false

section Passable

variable {locked : Location → Bool} {l : Location}

@[simp] theorem passable_nil : Passable locked l [] :=
  fun _ hne hpre => absurd (List.prefix_nil.mp hpre) hne

theorem passable_cons_iff {first : String} {way : List String} :
    Passable locked l (first :: way) ↔ locked (l ++ [first]) = false ∧ Passable locked (l ++ [first]) way := by
  constructor
  · intro h
    refine ⟨h [first] (by simp) (by simp), fun front _ hpre => ?_⟩
    simpa using h (first :: front) (by simp) (by simpa using hpre)
  · rintro ⟨hfirst, hway⟩ front hne hpre
    obtain ⟨rest, rfl, hrest⟩ := (List.prefix_cons_iff.mp hpre).resolve_left hne
    by_cases hnil : rest = []
    · rwa [hnil]
    · simpa using hway rest hnil hrest

end Passable

theorem found_mem_visitAll_iff {locked : Location → Bool} {l : Location} {entries : Entries}
    (hs : entriesSound entries = true) (hns : Path.Canonical absolute ns) {q : String} :
    .found q ∈ visitAll locked (Path.mentions ignored) l (Path.ofNames absolute ns) entries ↔
      ∃ way name e, Leaf entries way name e ∧ q = Path.ofNames absolute (ns ++ (way ++ [name])) ∧
        (way ≠ [] → Open ignored (Path.ofNames absolute (ns ++ way))) ∧ Passable locked l way := by
  induction entries using Entries.induction generalizing ns l with
  | step entries ih =>
    rw [visitAll_eq_flatMap, List.mem_flatMap]
    constructor
    · rintro ⟨⟨name, e⟩, hp, hq⟩
      obtain ⟨hname, hsound⟩ := entryName_of_mem hs hp
      have hlookup := (lookup_eq_some_iff hs).mpr hp
      rw [join_ofNames hns hname] at hq
      cases hdir : e.isDirectory with
      | false =>
        rw [visit_leaf hdir] at hq
        exact ⟨[], name, e, leaf_nil_iff.mpr ⟨hlookup, hdir⟩, by simpa using hq, by simp, passable_nil⟩
      | true =>
        obtain ⟨inner, rfl⟩ := Entry.exists_directory hdir
        obtain ⟨hopen, hfree, hq⟩ := found_mem_visit_directory.mp hq
        obtain ⟨way, last, c, hleaf, rfl, hway, hpass⟩ :=
          (ih name inner hp hsound (hname.canonical_concat hns)).mp hq
        refine ⟨name :: way, last, c, leaf_cons_iff.mpr ⟨inner, hlookup, hleaf⟩, by simp, fun _ => ?_,
          passable_cons_iff.mpr ⟨hfree, hpass⟩⟩
        by_cases hnil : way = []
        · rwa [hnil]
        · simpa using hway hnil
    · rintro ⟨way, name, e, hleaf, rfl, hopen, hpass⟩
      cases way with
      | nil =>
        obtain ⟨hlookup, hdir⟩ := leaf_nil_iff.mp hleaf
        have hp := (lookup_eq_some_iff hs).mp hlookup
        refine ⟨_, hp, ?_⟩
        rw [join_ofNames hns (entryName_of_mem hs hp).1, visit_leaf hdir]
        simp
      | cons first way =>
        obtain ⟨inner, hinner, hleaf⟩ := leaf_cons_iff.mp hleaf
        obtain ⟨hfree, hpass⟩ := passable_cons_iff.mp hpass
        have hp := (lookup_eq_some_iff hs).mp hinner
        obtain ⟨hname, hsound⟩ := entryName_of_mem hs hp
        -- The last directory is open, and with it all those above, whose paths begin its path.
        have hall : Open ignored (Path.ofNames absolute (ns ++ [first] ++ way)) := by simpa using hopen
        refine ⟨_, hp, ?_⟩
        rw [join_ofNames hns hname, found_mem_visit_directory]
        exact ⟨open_of_append (by simp) hall, hfree, (ih first inner hp hsound (hname.canonical_concat hns)).mpr
          ⟨way, name, e, hleaf, by simp, fun _ => hall, hpass⟩⟩

section Start

variable {fs : FileSystem} {path : String} {l : Location} {entries : Entries}

/-- The directory at the start of a walk. As a shortest path, by which its entries are looked up, it leads to
the same directory. -/
structure Start (fs : FileSystem) (path : String) (l : Location) (entries : Entries) : Prop where
  usable : Usable path
  reach_clean : fs.reach false (Path.clean path) = .ok (l, .directory entries)

theorem no_null_below (h : '\x00' ∉ path.toList) {way : List String} (hway : ∀ n ∈ way, EntryName n) :
    '\x00' ∉ (Path.below path way).toList := by
  refine Path.not_mem_ofNames (by decide) (by decide) fun n hn => ?_
  rcases List.mem_append.mp hn with hn | hn
  · exact fun hnull => h (Path.mem_of_mem_names (Path.mem_of_mem_normalize hn) hnull)
  · exact (hway n hn).no_null

theorem canonical_below (path : String) {way : List String} (hway : ∀ n ∈ way, EntryName n) :
    Path.Canonical (Path.isAbsolute path)
      (Path.normalize (Path.isAbsolute path) (Path.names path) ++ way) :=
  (Path.canonical_normalize path).append (fun n hn => (hway n hn).toIsName)
    fun hmem => (hway _ hmem).ne_parent rfl

theorem below_ne_empty (path : String) {way : List String} (hway : ∀ n ∈ way, EntryName n) :
    Path.below path way ≠ "" :=
  Path.ofNames_ne_empty (canonical_below path hway).isName

theorem clean_below (path : String) {way : List String} (hway : ∀ n ∈ way, EntryName n) :
    Path.clean (Path.below path way) = Path.below path way :=
  Path.clean_ofNames (canonical_below path hway).isName (canonical_below path hway).normal

theorem names_below (path : String) {way : List String} (hway : ∀ n ∈ way, EntryName n) :
    Path.names (Path.below path way) = Path.normalize (Path.isAbsolute path) (Path.names path) ++ way :=
  Path.names_ofNames (canonical_below path hway).isName

theorem directory_below (path : String) {way : List String} {name : String}
    (hway : ∀ n ∈ way ++ [name], EntryName n) :
    Path.directory (Path.below path (way ++ [name])) = Path.below path way := by
  have hcanonical := canonical_below path fun n hn => hway n (List.mem_append_left _ hn)
  rw [Path.below, ← List.append_assoc]
  exact Path.directory_ofNames hcanonical (hway name (by simp)).toIsName

theorem extension_below (path : String) {way : List String} {name : String} (hname : EntryName name) :
    Path.extension (Path.below path (way ++ [name])) = Path.extension name := by
  rw [Path.below, ← List.append_assoc]
  exact Path.extension_ofNames hname.toIsName

theorem size_below_le (path : String) {way : List String} (hne : way ≠ []) (name : String) :
    (Path.below path way).utf8ByteSize ≤ (Path.below path (way ++ [name])).utf8ByteSize := by
  refine Path.utf8ByteSize_le_of_isPrefix ?_
  rw [Path.below, Path.below, ← List.append_assoc]
  exact Path.ofNames_isPrefix [name] (.inr (by simp [hne]))

theorem reach_along_of {final : Bool} (h : fs.reach final (Path.clean path) = .ok (l, .directory entries))
    {way : List String} {e : Entry} (hway : ∀ n ∈ way, EntryName n) (hne : final = true → way ≠ [])
    (he : Entries.at? entries way = some e) {follow : Bool}
    (hlink : follow = true → ∀ target, e ≠ .link target) :
    fs.reach follow (Path.below path way) = .ok (l ++ way, e) := by
  have hat : fs.at? (l ++ way) = some e := by
    rw [FileSystem.at?_append, at?_of_resolveFrom h]
    exact he
  rw [Path.clean, reach_ofNames (Path.canonical_normalize path).isName] at h
  obtain ⟨k, hk⟩ := resolveFrom_append_of h
  rw [Path.below, reach_ofNames (canonical_below path hway).isName, hk _ _ hne]
  exact resolveFrom_arrived (advance_way hway hat hlink)

theorem readDirectory_eq {follow : Bool} (h : fs.resolve follow path = .ok (l, .directory entries)) :
    fs.readDirectory path = if fs.isLocked l then .error ⟨"open", path, .denied⟩ else .ok (l, entries) := by
  have htrue : fs.resolve true path = .ok (l, .directory entries) := by
    cases follow with
    | true => exact h
    | false => exact resolve_follow h (by simp)
  rw [readDirectory, htrue]

theorem walk_eq (hp : fs.resolve false path = .ok (l, .directory entries)) (prune : String → Bool) :
    fs.walk prune path =
      if prune path then [.pruned path]
      else if fs.isLocked l then [.unreadable path ⟨"open", path, .denied⟩]
      else entries.flatMap fun p => fs.visitChild prune (Path.join [path, p.1]) p.2 := by
  rw [walk, linkStatus, hp, readDirectory_eq hp]
  cases fs.isLocked l <;> rfl

namespace Start

variable (h : Start fs path l entries)
include h

theorem at?_eq : fs.at? l = some (.directory entries) := at?_of_resolveFrom h.reach_clean

theorem at?_append (way : List String) : fs.at? (l ++ way) = Entries.at? entries way := by
  rw [FileSystem.at?_append, h.at?_eq]
  rfl

theorem entryName (hs : fs.Sound) {way : List String} {e : Entry} (he : Entries.at? entries way = some e) :
    ∀ n ∈ way, EntryName n :=
  (Entry.below?_sound (hs.isSound h.at?_eq) he).2

theorem reach_along {way : List String} {e : Entry} (hway : ∀ n ∈ way, EntryName n)
    (he : Entries.at? entries way = some e) {follow : Bool}
    (hlink : follow = true → ∀ target, e ≠ .link target) :
    fs.reach follow (Path.below path way) = .ok (l ++ way, e) :=
  reach_along_of h.reach_clean hway (by simp) he hlink

theorem reach_below (hs : fs.Sound) {way : List String} {e : Entry}
    (he : Entries.at? entries way = some e) {follow : Bool}
    (hlink : follow = true → ∀ target, e ≠ .link target) :
    fs.reach follow (Path.below path way) = .ok (l ++ way, e) :=
  h.reach_along (h.entryName hs he) he hlink

theorem visitChild_eq (hs : fs.Sound) (prune : String → Bool) {name : String} {e : Entry}
    (hp : (name, e) ∈ entries) :
    fs.visitChild prune (Path.below path [name]) e =
      visit fs.isLocked prune (l ++ [name]) (Path.below path [name]) e := by
  cases e with
  | directory inner =>
    have hinner : Entries.at? entries [name] = some (.directory inner) :=
      (Entry.below?_directory_singleton entries name).trans
        ((lookup_eq_some_iff (hs.isSound h.at?_eq)).mpr hp)
    have hway := h.entryName hs hinner
    have hresolve : fs.resolve true (Path.below path [name]) =
        if pathLimit ≤ (Path.below path [name]).utf8ByteSize then .error .nameTooLong
        else .ok (l ++ [name], .directory inner) := by
      rw [resolve_eq (no_null_below h.usable.no_null hway) (below_ne_empty path hway),
        h.reach_below hs hinner (by simp)]
    rw [visitChild, visit]
    by_cases hsize : pathLimit ≤ (Path.below path [name]).utf8ByteSize
    · rw [if_pos hsize] at hresolve
      rw [if_pos hsize, readDirectory, hresolve]
    · rw [if_neg hsize] at hresolve
      rw [if_neg hsize, readDirectory_eq hresolve]
      cases fs.isLocked (l ++ [name]) <;> rfl
  | file content => rfl
  | link target => rfl
  | special reading => rfl

theorem found_mem_walk_iff (hs : fs.Sound) (hp : fs.resolve false path = .ok (l, .directory entries))
    {q : String} :
    .found q ∈ fs.walk (Path.mentions ignored) path ↔
      Path.mentions ignored path = false ∧ fs.isLocked l = false ∧ ∃ way name e, Leaf entries way name e ∧
        q = Path.below path (way ++ [name]) ∧ (way ≠ [] → Open ignored (Path.below path way)) ∧
        Passable fs.isLocked l way := by
  have hsound := hs.isSound h.at?_eq
  have hall : (entries.flatMap fun p => fs.visitChild (Path.mentions ignored) (Path.join [path, p.1]) p.2) =
      visitAll fs.isLocked (Path.mentions ignored) l (Path.clean path) entries := by
    rw [visitAll_eq_flatMap, List.flatMap_def, List.flatMap_def]
    congr 1
    refine List.map_congr_left fun p hp => ?_
    have hname : EntryName p.1 := (entryName_of_mem hsound hp).1
    rw [join_name h.usable.ne_empty hname, h.visitChild_eq hs _ hp, Path.clean,
      join_ofNames (Path.canonical_normalize path) hname, Path.below]
  rw [walk_eq hp, hall]
  simp only [Path.clean, Path.below]
  rw [← found_mem_visitAll_iff hsound (Path.canonical_normalize path)]
  cases Path.mentions ignored path <;> cases fs.isLocked l <;> simp

end Start
end Start

end FunctionLength.FileSystem
