import FunctionLength.Proofs.Agreement

/-!
Which files of a directory are analyzed, and in which order. A walk prunes as it goes down, and each directory
right below its start is looked up by its path as text; what comes out are the entries that a look at the whole
tree would select, in the order of the names on the way to them.
-/

namespace FunctionLength.Path

def bytes (text : String) : List UInt8 := text.toUTF8.data.toList

theorem bytes_eq (text : String) : bytes text = text.toList.flatMap String.utf8EncodeChar := by
  rw [bytes, String.toUTF8_eq_toByteArray]
  conv_lhs => rw [← String.ofList_toList (s := text), String.toByteArray_ofList]
  simp [List.utf8Encode]

theorem utf8EncodeChar_append_lt {c d : Char} (h : c < d) (x y : List UInt8) :
    String.utf8EncodeChar c ++ x < String.utf8EncodeChar d ++ y := by
  have hlt : c.val.toNat < d.val.toNat := h
  have hvalid : d.val.toNat < 0x110000 := by
    rcases d.valid with h | h <;> omega
  unfold String.utf8EncodeChar
  simp only
  generalize c.val.toNat = m at *
  generalize d.val.toNat = n at *
  -- What follows the first byte are digits to the base 64, and the first ones that differ decide.
  have hm₁ : m / 64 / 64 = m / 4096 := by omega
  have hm₂ : m / 4096 / 64 = m / 262144 := by omega
  have hn₁ : n / 64 / 64 = n / 4096 := by omega
  have hn₂ : n / 4096 / 64 = n / 262144 := by omega
  -- All of them fit into a byte with the bits that mark them.
  have h64 (k : Nat) : (k % 64 + 128) % 256 = k % 64 + 128 := by omega
  have h32 (k : Nat) : (k % 32 + 192) % 256 = k % 32 + 192 := by omega
  have h16 (k : Nat) : (k % 16 + 224) % 256 = k % 16 + 224 := by omega
  have hm₃ : m / 262144 % 8 = m / 262144 := by omega
  have hn₃ : n / 262144 % 8 = n / 262144 := by omega
  have hm₄ : (m / 262144 + 240) % 256 = m / 262144 + 240 := by omega
  have hn₄ : (n / 262144 + 240) % 256 = n / 262144 + 240 := by omega
  split_ifs <;>
    simp only [List.cons_append, List.nil_append, List.cons_lt_cons_iff, UInt8.lt_iff_toNat_lt,
      ← UInt8.toNat_inj, UInt8.toNat_ofNat', Nat.reducePow, h64, h32, h16, hm₃, hn₃, hm₄, hn₄]
  all_goals omega

theorem bytes_lt_of_lt {a b : String} (h : a < b) : bytes a < bytes b := by
  rw [bytes_eq, bytes_eq]
  replace h : a.toList < b.toList := String.lt_iff.mp h
  generalize a.toList = cs at h
  generalize b.toList = ds at h
  induction h with
  | @nil d ds =>
    rw [List.flatMap_cons]
    cases hd : String.utf8EncodeChar d with
    | nil => simp [String.utf8EncodeChar_ne_nil] at hd
    | cons byte rest => exact List.Lex.nil
  | cons _ ih =>
    rw [List.flatMap_cons, List.flatMap_cons]
    exact List.append_left_lt ih
  | rel hlt =>
    rw [List.flatMap_cons, List.flatMap_cons]
    exact utf8EncodeChar_append_lt hlt _ _

end FunctionLength.Path

namespace FunctionLength.FileSystem

mutual

/-- An entry as it is seen where some directories may not be listed: these have nothing in them. -/
def Entry.shown (locked : Location → Bool) (l : Location) : Entry → Entry
  | .directory entries => .directory (if locked l then [] else entriesShown locked l entries)
  | e => e

def entriesShown (locked : Location → Bool) (l : Location) : List (String × Entry) → List (String × Entry)
  | [] => []
  | (name, e) :: rest => (name, e.shown locked (l ++ [name])) :: entriesShown locked l rest

end

def Entry.reread (fs : FileSystem) (path : String) : Entry → Entry
  | .directory _ =>
    match fs.readDirectory path with
    | .ok (l, inner) => .directory (entriesShown fs.isLocked l inner)
    | .error _ => .directory []
  | e => e

/-- The entries at the start of a walk as the walk sees them: what a directory among them holds is looked up by
its path, which is the shortest one as text. -/
def seen (fs : FileSystem) (root : String) (entries : Entries) : Entries :=
  entries.map fun p => (p.1, p.2.reread fs (Path.join [root, p.1]))

def Visit.found? : Visit → Option String
  | .found path => some path
  | _ => none

theorem mem_filterMap_found? {visits : List Visit} {q : String} :
    q ∈ visits.filterMap Visit.found? ↔ .found q ∈ visits := by
  rw [List.mem_filterMap]
  constructor
  · rintro ⟨v, hv, hq⟩
    cases v with
    | found path => rwa [← Option.some.inj hq]
    | pruned path => cases hq
    | unreadable path e => cases hq
  · exact fun h => ⟨_, h, rfl⟩

section Sorted

variable {locked : Location → Bool} {l : Location} {ignored : List String} {absolute : Bool} {ns : List String}
  {entries : Entries}

theorem pairwise_names (h : entriesTidy entries = true) : entries.Pairwise fun p q => p.1 < q.1 := by
  induction entries with
  | nil => exact List.Pairwise.nil
  | cons p rest ih =>
    obtain ⟨-, hless, -, hrest⟩ := entriesTidy_cons_iff.mp h
    exact List.pairwise_cons.mpr ⟨hless, ih hrest⟩

theorem Leaf.entryName {way : List String} {name : String} {e : Entry} (h : Leaf entries way name e)
    (hs : entriesSound entries = true) : ∀ n ∈ way ++ [name], EntryName n :=
  (Entry.below?_sound (e := .directory entries) hs h.at?_eq).2

theorem names_of_found {name q : String} {e : Entry} (hname : EntryName name) (he : e.isSound = true)
    (hns : Path.Canonical absolute ns)
    (h : .found q ∈ visit locked (Path.mentions ignored) l (Path.ofNames absolute (ns ++ [name])) e) :
    ∃ rest, Path.names q = ns ++ name :: rest := by
  have hcanonical := hname.canonical_concat hns
  cases hdir : e.isDirectory with
  | false =>
    rw [visit_leaf hdir, List.mem_singleton, Visit.found.injEq] at h
    exact ⟨[], by rw [h, Path.names_ofNames hcanonical.isName]⟩
  | true =>
    obtain ⟨inner, rfl⟩ := Entry.exists_directory hdir
    obtain ⟨way, last, c, hleaf, rfl, -⟩ :=
      (found_mem_visitAll_iff he hcanonical).mp (found_mem_visit_directory.mp h).2.2
    have hway := hleaf.entryName he
    have hall : Path.Canonical absolute (ns ++ [name] ++ (way ++ [last])) :=
      hcanonical.append (fun n hn => (hway n hn).toIsName) fun hmem => (hway _ hmem).ne_parent rfl
    exact ⟨way ++ [last], by rw [Path.names_ofNames hall.isName]; simp⟩

/-- A walk comes upon files in the order of the names on the way to them. The files in a directory come between
those of the entries before and after it. -/
theorem pairwise_found (h : entriesTidy entries = true) (hns : Path.Canonical absolute ns) :
    ((visitAll locked (Path.mentions ignored) l (Path.ofNames absolute ns) entries).filterMap
      Visit.found?).Pairwise fun p q => Path.names p < Path.names q := by
  induction entries using Entries.induction generalizing ns l with
  | step entries ih =>
    have hsound := entriesSound_of_tidy h
    rw [visitAll_eq_flatMap, List.filterMap_flatMap, List.pairwise_flatMap]
    constructor
    · rintro ⟨name, e⟩ hp
      have hname := (entryName_of_mem hsound hp).1
      rw [join_ofNames hns hname]
      cases hdir : e.isDirectory with
      | false =>
        rw [visit_leaf hdir]
        exact List.pairwise_singleton _ _
      | true =>
        obtain ⟨inner, rfl⟩ := Entry.exists_directory hdir
        rw [visit]
        split_ifs
        · exact List.Pairwise.nil
        · exact List.Pairwise.nil
        · exact List.Pairwise.nil
        · exact ih name inner hp (isTidy_of_mem h hp) (hname.canonical_concat hns)
    · refine (pairwise_names h).imp_of_mem fun {p q} hp hq hlt x hx y hy => ?_
      obtain ⟨hpname, hpsound⟩ := entryName_of_mem hsound hp
      obtain ⟨hqname, hqsound⟩ := entryName_of_mem hsound hq
      rw [join_ofNames hns hpname, mem_filterMap_found?] at hx
      rw [join_ofNames hns hqname, mem_filterMap_found?] at hy
      obtain ⟨more, hx⟩ := names_of_found hpname hpsound hns hx
      obtain ⟨others, hy⟩ := names_of_found hqname hqsound hns hy
      rw [hx, hy]
      exact List.append_left_lt (List.cons_lt_cons_iff.mpr (.inl hlt))

end Sorted

section Shown

variable {locked : Location → Bool}

theorem entriesShown_eq_map (l : Location) (entries : Entries) :
    entriesShown locked l entries = entries.map fun p => (p.1, p.2.shown locked (l ++ [p.1])) := by
  induction entries with
  | nil => rfl
  | cons p rest ih => rw [entriesShown, ih, List.map_cons]

theorem shown_of_leaf {e : Entry} (h : e.isDirectory = false) (l : Location) : e.shown locked l = e := by
  cases e with
  | directory inner => contradiction
  | file content => rfl
  | link target => rfl
  | special reading => rfl

theorem isDirectory_shown (l : Location) (e : Entry) : (e.shown locked l).isDirectory = e.isDirectory := by
  cases e <;> rfl

theorem lookup_shown (l : Location) (entries : Entries) (name : String) :
    (entriesShown locked l entries).lookup name = (entries.lookup name).map (·.shown locked (l ++ [name])) := by
  induction entries with
  | nil => rfl
  | cons p rest ih =>
    rw [entriesShown, List.lookup_cons, List.lookup_cons]
    cases hname : name == p.1 with
    | true => rw [eq_of_beq hname]; rfl
    | false => exact ih

mutual

theorem isTidy_shown {e : Entry} (h : e.isTidy = true) (l : Location) : (e.shown locked l).isTidy = true := by
  cases e with
  | directory entries =>
    rw [Entry.shown, Entry.isTidy]
    split
    · rfl
    · exact entriesTidy_shown h l
  | file content => rfl
  | link target => rfl
  | special reading => rfl

theorem entriesTidy_shown {entries : List (String × Entry)} (h : entriesTidy entries = true) (l : Location) :
    entriesTidy (entriesShown locked l entries) = true := by
  cases entries with
  | nil => rfl
  | cons p rest =>
    obtain ⟨hname, hless, he, hrest⟩ := entriesTidy_cons_iff.mp h
    refine entriesTidy_cons_iff.mpr ⟨hname, fun q hq => ?_, isTidy_shown he _, entriesTidy_shown hrest l⟩
    rw [entriesShown_eq_map] at hq
    obtain ⟨r, hr, rfl⟩ := List.mem_map.mp hq
    exact hless r hr

end

/-- What is shown is what no locked directory on the way hides. -/
theorem leaf_shown_iff {l : Location} {entries : Entries} {way : List String} {name : String} {e : Entry} :
    Leaf (entriesShown locked l entries) way name e ↔ Leaf entries way name e ∧ Passable locked l way := by
  induction way generalizing l entries with
  | nil =>
    rw [leaf_nil_iff, leaf_nil_iff, lookup_shown, and_iff_left passable_nil]
    refine and_congr_left fun hleaf => ?_
    cases entries.lookup name with
    | none => rfl
    | some c =>
      simp only [Option.map_some, Option.some.injEq]
      constructor
      · rintro rfl
        exact (shown_of_leaf (by rwa [isDirectory_shown] at hleaf) _).symm
      · rintro rfl
        exact shown_of_leaf hleaf _
  | cons first way ih =>
    rw [leaf_cons_iff, leaf_cons_iff, lookup_shown, passable_cons_iff]
    cases hfirst : entries.lookup first with
    | none => simp
    | some c =>
      cases c with
      | directory inner =>
        cases hlocked : locked (l ++ [first]) with
        | true =>
          have hnone : ¬ Leaf [] way name e := by
            rintro ⟨hat, -⟩
            cases way <;> simp [Entries.at?] at hat
          simp [Entry.shown, hlocked, hnone]
        | false => simp [Entry.shown, hlocked, ih]
      | file content => simp [Entry.shown]
      | link target => simp [Entry.shown]
      | special reading => simp [Entry.shown]

theorem filterMap_visitAll_shown (prune : String → Bool) (l l' : Location) (above : String) (entries : Entries) :
    (visitAll locked prune l above entries).filterMap Visit.found? =
      (visitAll (fun _ => false) prune l' above (entriesShown locked l entries)).filterMap Visit.found? := by
  induction entries using Entries.induction generalizing l l' above with
  | step entries ih =>
    rw [visitAll_eq_flatMap, visitAll_eq_flatMap, entriesShown_eq_map, List.flatMap_map, List.filterMap_flatMap,
      List.filterMap_flatMap, List.flatMap_def, List.flatMap_def]
    congr 1
    refine List.map_congr_left fun p hp => ?_
    obtain ⟨name, e⟩ := p
    cases e with
    | directory inner =>
      simp only [Entry.shown, visit, Bool.false_eq_true, if_false]
      cases locked (l ++ [name]) with
      | true =>
        simp only [if_true, visitAll]
        split_ifs <;> rfl
      | false =>
        simp only [Bool.false_eq_true, if_false]
        split_ifs
        · rfl
        · rfl
        · exact ih name inner hp _ _ _
    | file content => rfl
    | link target => rfl
    | special reading => rfl

end Shown

section Seen

variable {fs : FileSystem} {root path : String} {entries : Entries}

theorem readDirectory_eq_ok_iff {l : Location} :
    fs.readDirectory path = .ok (l, entries) ↔
      fs.resolve true path = .ok (l, .directory entries) ∧ fs.isLocked l = false := by
  unfold readDirectory
  cases fs.resolve true path with
  | error cause => simp
  | ok x =>
    obtain ⟨l', e⟩ := x
    cases hlocked : fs.isLocked l' with
    | true =>
      simp only [hlocked, if_true, reduceCtorEq, Except.ok.injEq, Prod.mk.injEq, false_iff, not_and]
      rintro ⟨rfl, -⟩
      simp [hlocked]
    | false =>
      cases e with
      | directory inner =>
        simp only [hlocked, Bool.false_eq_true, if_false, Except.ok.injEq, Prod.mk.injEq, Entry.directory.injEq]
        refine ⟨?_, And.left⟩
        rintro ⟨rfl, rfl⟩
        exact ⟨⟨rfl, rfl⟩, hlocked⟩
      | file content => simp [hlocked]
      | link target => simp [hlocked]
      | special reading => simp [hlocked]

theorem filterMap_visitChild (prune : String → Bool) (l : Location) (e : Entry) :
    (fs.visitChild prune path e).filterMap Visit.found? =
      (visit (fun _ => false) prune l path (e.reread fs path)).filterMap Visit.found? := by
  cases e with
  | directory inner =>
    rw [visitChild, Entry.reread]
    cases hread : fs.readDirectory path with
    | error error =>
      -- A directory that cannot be read is as good as an empty one.
      simp only [visit, visitAll]
      split_ifs <;> rfl
    | ok held =>
      obtain ⟨l', held⟩ := held
      have hsize := (resolve_eq_ok_iff.mp (readDirectory_eq_ok_iff.mp hread).1).1.size_lt
      simp only [visit, if_neg (Nat.not_le.mpr hsize), Bool.false_eq_true, if_false]
      split_ifs
      · rfl
      · exact filterMap_visitAll_shown prune l' l path held
  | file content => rfl
  | link target => rfl
  | special reading => rfl

theorem isTidy_reread (hfs : fs.Tidy) {e : Entry} (he : e.isTidy = true) : (e.reread fs path).isTidy = true := by
  cases e with
  | directory inner =>
    rw [Entry.reread]
    split
    · rename_i l held hread
      have hat : fs.at? l = some (.directory held) :=
        at?_of_resolveFrom (resolve_eq_ok_iff.mp (readDirectory_eq_ok_iff.mp hread).1).2
      have htidy := Entry.isTidy_of_below? (e := .directory fs.root) hfs.entries hat
      exact entriesTidy_shown htidy l
    · rfl
  | file content => exact he
  | link target => exact he
  | special reading => exact he

theorem entriesTidy_seen (hfs : fs.Tidy) (h : entriesTidy entries = true) :
    entriesTidy (fs.seen root entries) = true := by
  induction entries with
  | nil => rfl
  | cons p rest ih =>
    obtain ⟨hname, hless, he, hrest⟩ := entriesTidy_cons_iff.mp h
    refine entriesTidy_cons_iff.mpr ⟨hname, fun q hq => ?_, isTidy_reread hfs he, ih hrest⟩
    obtain ⟨r, hr, rfl⟩ := List.mem_map.mp hq
    exact hless r hr

theorem lookup_seen (name : String) :
    (fs.seen root entries).lookup name = (entries.lookup name).map (·.reread fs (Path.join [root, name])) := by
  induction entries with
  | nil => rfl
  | cons p rest ih =>
    rw [seen, List.map_cons, List.lookup_cons, List.lookup_cons]
    cases hname : name == p.1 with
    | true => rw [eq_of_beq hname]; rfl
    | false => exact ih

theorem isDirectory_reread (e : Entry) : (e.reread fs path).isDirectory = e.isDirectory := by
  cases e with
  | directory inner =>
    rw [Entry.reread]
    split <;> rfl
  | file content => rfl
  | link target => rfl
  | special reading => rfl

theorem reread_of_leaf {e : Entry} (h : e.isDirectory = false) : e.reread fs path = e := by
  cases e with
  | directory inner => contradiction
  | file content => rfl
  | link target => rfl
  | special reading => rfl

theorem entriesTidy_of_resolve {l : Location} (hfs : fs.Tidy)
    (h : fs.resolve false root = .ok (l, .directory entries)) : entriesTidy entries = true :=
  Entry.isTidy_of_below? (e := .directory fs.root) hfs.entries (at?_of_resolveFrom (resolve_eq_ok_iff.mp h).2)

theorem filterMap_walk {l : Location} (prune : String → Bool)
    (h : fs.resolve false root = .ok (l, .directory entries)) (hs : entriesSound entries = true) :
    (fs.walk prune root).filterMap Visit.found? =
      if prune root || fs.isLocked l then []
      else (visitAll (fun _ => false) prune [] (Path.clean root) (fs.seen root entries)).filterMap
        Visit.found? := by
  have hne := (resolve_eq_ok_iff.mp h).1.ne_empty
  rw [walk_eq h]
  cases prune root with
  | true => rfl
  | false =>
    cases fs.isLocked l with
    | true => rfl
    | false =>
      simp only [Bool.or_false, Bool.false_eq_true, if_false]
      rw [visitAll_eq_flatMap, seen, List.flatMap_map, List.filterMap_flatMap, List.filterMap_flatMap,
        List.flatMap_def, List.flatMap_def]
      congr 1
      refine List.map_congr_left fun p hp => ?_
      have hname := (entryName_of_mem hs hp).1
      have hpath : Path.join [Path.clean root, p.1] = Path.join [root, p.1] := by
        rw [Path.clean, join_ofNames (Path.canonical_normalize root) hname, join_name hne hname, Path.below]
      rw [hpath]
      exact filterMap_visitChild prune _ p.2

section Reached

variable {l : Location} {name : String} {e : Entry} (husable : Usable root)
  (hreach : fs.reach true (Path.clean root) = .ok (l, .directory entries))
include husable hreach

theorem reread_directory (hs : entriesSound entries = true) {inner : Entries}
    (hp : entries.lookup name = some (.directory inner))
    (hsize : (Path.below root [name]).utf8ByteSize < pathLimit) :
    (Entry.directory inner).reread fs (Path.join [root, name]) =
      (Entry.directory inner).shown fs.isLocked (l ++ [name]) := by
  have hname := (entryName_of_mem hs ((lookup_eq_some_iff hs).mp hp)).1
  have hway : ∀ n ∈ [name], EntryName n := by simpa using hname
  have hat : Entries.at? entries [name] = some (.directory inner) :=
    (Entry.below?_directory_singleton entries name).trans hp
  have hbelow : Usable (Path.below root [name]) :=
    ⟨no_null_below husable.no_null hway, below_ne_empty root hway, hsize⟩
  have hresolve : fs.resolve true (Path.below root [name]) = .ok (l ++ [name], .directory inner) :=
    resolve_eq_ok_iff.mpr ⟨hbelow, reach_along_of hreach hway (by simp) hat (by simp)⟩
  rw [Entry.reread, join_name husable.ne_empty hname, readDirectory_eq hresolve, Entry.shown]
  cases fs.isLocked (l ++ [name]) <;> rfl

/-- Where the shortest path leads to the start as well, the walk sees what is there and not hidden. -/
theorem leaf_seen_iff (hs : entriesSound entries = true)
    {above : List String} (hsize : ∀ n ∈ above.head?, (Path.below root [n]).utf8ByteSize < pathLimit) :
    Leaf (fs.seen root entries) above name e ↔ Leaf entries above name e ∧ Passable fs.isLocked l above := by
  rw [← leaf_shown_iff]
  cases above with
  | nil =>
    rw [leaf_nil_iff, leaf_nil_iff, lookup_seen, lookup_shown]
    refine and_congr_left fun hleaf => ?_
    cases entries.lookup name with
    | none => rfl
    | some c =>
      cases hdir : c.isDirectory with
      | false => simp [reread_of_leaf hdir, shown_of_leaf hdir]
      | true =>
        have hne : c.reread fs (Path.join [root, name]) ≠ e ∧ c.shown fs.isLocked (l ++ [name]) ≠ e := by
          constructor
          · rintro rfl
            rw [isDirectory_reread, hdir] at hleaf
            contradiction
          · rintro rfl
            rw [isDirectory_shown, hdir] at hleaf
            contradiction
        simp [hne]
  | cons first above =>
    have hlookup : (fs.seen root entries).lookup first = (entriesShown fs.isLocked l entries).lookup first := by
      rw [lookup_seen, lookup_shown]
      cases hfirst : entries.lookup first with
      | none => rfl
      | some c =>
        cases hdir : c.isDirectory with
        | false => simp [reread_of_leaf hdir, shown_of_leaf hdir]
        | true =>
          obtain ⟨inner, rfl⟩ := Entry.exists_directory hdir
          exact congrArg some (reread_directory husable hreach hs hfirst (hsize first (by simp)))
    rw [leaf_cons_iff, leaf_cons_iff, hlookup]

end Reached
end Seen

end FunctionLength.FileSystem

namespace FunctionLength.Checker
open FunctionLength.FileSystem FunctionLength.Analysis

def Spares (c : Checker) (path : String) : Prop :=
  ∀ part ∈ c.settings.ignoredDirectories, part ≠ "" → ¬ part.toList <:+: path.toList

/-- An entry to analyze, by the names that lead to it from a root. -/
structure Selected (c : Checker) (root : String) (entries : Entries) (above : List String) (name : String)
    (e : Entry) : Prop extends Leaf entries above name e where
  supports_eq : c.parser.supports (Path.extension name) = true
  spares_root : c.Spares root
  spares : ∀ front, front ≠ [] → front <+: above → c.Spares (Path.below root front)
  size_lt : ∀ front, front ≠ [] → front <+: above → (Path.below root front).utf8ByteSize < pathLimit

variable {c : Checker} {fs : FileSystem} {root : String} {entries : Entries}

theorem spares_iff {path : String} :
    c.Spares path ↔ Path.mentions c.settings.ignoredDirectories path = false := by
  rw [← Bool.not_eq_true, Path.mentions_eq_true_iff]
  simp [Spares]

theorem filesBelow_eq_filter : c.filesBelow fs root =
    ((fs.walk c.ignoresDirectory root).filterMap Visit.found?).filter
      (c.parser.supports <| Path.extension ·) := by
  rw [filesBelow, List.filter_filterMap]
  congr 1
  funext v
  cases v with
  | found path =>
    by_cases hs : c.parser.supports (Path.extension path) <;> simp [file?, Visit.found?, Option.filter, hs]
  | pruned path => rfl
  | unreadable path e => rfl

theorem lt_of_append_lt_append {front a b : List String} (h : front ++ a < front ++ b) : a < b := by
  induction front with
  | nil => exact h
  | cons n front ih =>
    rcases List.cons_lt_cons_iff.mp h with hn | ⟨-, h⟩
    · exact absurd hn (lt_irrefl n)
    · exact ih h

theorem open_prefixes_iff {ignored above : List String} :
    (above ≠ [] → Open ignored (Path.below root above)) ↔
      ∀ front, front ≠ [] → front <+: above → Open ignored (Path.below root front) := by
  constructor
  · rintro hopen front hne ⟨back, rfl⟩
    have hall := hopen (List.append_ne_nil_of_left_ne_nil hne back)
    rw [Path.below, ← List.append_assoc] at hall
    exact open_of_append hne hall
  · exact fun hopen hne => hopen above hne (List.prefix_refl above)

section Directory

variable {l : Location} (hfs : fs.Tidy) (h : fs.resolve false root = .ok (l, .directory entries))
include hfs h

theorem entriesSound_seen : entriesSound (fs.seen root entries) = true :=
  entriesSound_of_tidy (entriesTidy_seen hfs (entriesTidy_of_resolve hfs h))

theorem mem_filesBelow_iff_selected (hfree : fs.isLocked l = false) {q : String} :
    q ∈ c.filesBelow fs root ↔
      ∃ above name e, c.Selected root (fs.seen root entries) above name e ∧
        q = Path.below root (above ++ [name]) := by
  have hsound := entriesSound_seen hfs h
  have hwalk := filterMap_walk (Path.mentions c.settings.ignoredDirectories) h (hfs.isSound_of_resolve h)
  rw [Job.mem_filesBelow_iff, ← mem_filterMap_found?, hwalk, hfree, Bool.or_false]
  constructor
  · rintro ⟨hq, hsupports⟩
    cases hroot : Path.mentions c.settings.ignoredDirectories root with
    | true => simp [hroot] at hq
    | false =>
      rw [hroot, if_neg Bool.false_ne_true, mem_filterMap_found?, Path.clean,
        found_mem_visitAll_iff hsound (Path.canonical_normalize root)] at hq
      obtain ⟨above, name, e, hleaf, rfl, hopen, -⟩ := hq
      have hname := hleaf.entryName hsound name (by simp)
      replace hopen := open_prefixes_iff.mp hopen
      refine ⟨above, name, e, ?_, rfl⟩
      exact {
        toLeaf := hleaf
        supports_eq := by rwa [← Path.below, extension_below root hname] at hsupports
        spares_root := spares_iff.mpr hroot
        spares := fun front hne hpre => spares_iff.mpr (hopen front hne hpre).not_ignored
        size_lt := fun front hne hpre => (hopen front hne hpre).size_lt }
  · rintro ⟨above, name, e, hsel, rfl⟩
    have hname := hsel.entryName hsound name (by simp)
    have hopen : above ≠ [] → Open c.settings.ignoredDirectories (Path.below root above) :=
      open_prefixes_iff.mpr fun front hne hpre =>
        ⟨spares_iff.mp (hsel.spares front hne hpre), hsel.size_lt front hne hpre⟩
    rw [spares_iff.mp hsel.spares_root, if_neg Bool.false_ne_true, mem_filterMap_found?, Path.clean,
      found_mem_visitAll_iff hsound (Path.canonical_normalize root), extension_below root hname]
    exact ⟨⟨above, name, e, hsel.toLeaf, rfl, hopen, fun _ _ _ => rfl⟩, hsel.supports_eq⟩

theorem pairwise_filesBelow :
    (c.filesBelow fs root).Pairwise fun p q => Path.names p < Path.names q := by
  have hseen : entriesTidy (fs.seen root entries) = true := entriesTidy_seen hfs (entriesTidy_of_resolve hfs h)
  rw [filesBelow_eq_filter, filterMap_walk _ h (hfs.isSound_of_resolve h)]
  refine List.Pairwise.filter _ ?_
  split_ifs
  · exact List.Pairwise.nil
  · exact pairwise_found hseen (Path.canonical_normalize root)

theorem exists_ways (hfree : fs.isLocked l = false) : ∃ ways : List (List String),
    c.filesBelow fs root = ways.map (Path.below root) ∧ ways.Pairwise (· < ·) ∧
      ∀ way, way ∈ ways ↔ ∃ above name e,
        way = above ++ [name] ∧ c.Selected root (fs.seen root entries) above name e := by
  have hsound := entriesSound_seen hfs h
  set start := Path.normalize (Path.isAbsolute root) (Path.names root) with hstart
  -- A way is what the path of the file has after the names of the root.
  have hfile : ∀ q ∈ c.filesBelow fs root, ∃ way, q = Path.below root way ∧ Path.names q = start ++ way := by
    intro q hq
    obtain ⟨above, name, e, hsel, rfl⟩ := (mem_filesBelow_iff_selected hfs h hfree).mp hq
    exact ⟨_, rfl, names_below root (hsel.entryName hsound)⟩
  refine ⟨(c.filesBelow fs root).map fun q => (Path.names q).drop start.length, ?_, ?_, fun way => ?_⟩
  · rw [List.map_map]
    refine ((List.map_congr_left fun q hq => ?_).trans (List.map_id _)).symm
    obtain ⟨way, hq, hnames⟩ := hfile q hq
    rw [Function.comp, hnames, List.drop_left, ← hq, id]
  · rw [List.pairwise_map]
    refine (pairwise_filesBelow hfs h).imp_of_mem fun {p q} hp hq hlt => ?_
    obtain ⟨a, -, ha⟩ := hfile p hp
    obtain ⟨b, -, hb⟩ := hfile q hq
    rw [ha, hb] at hlt
    rw [ha, hb, List.drop_left, List.drop_left]
    exact lt_of_append_lt_append hlt
  · rw [List.mem_map]
    constructor
    · rintro ⟨q, hq, rfl⟩
      obtain ⟨above, name, e, hsel, rfl⟩ := (mem_filesBelow_iff_selected hfs h hfree).mp hq
      refine ⟨above, name, e, ?_, hsel⟩
      rw [names_below root (hsel.entryName hsound), List.drop_left]
    · rintro ⟨above, name, e, rfl, hsel⟩
      refine ⟨_, (mem_filesBelow_iff_selected hfs h hfree).mpr ⟨above, name, e, hsel, rfl⟩, ?_⟩
      rw [names_below root (hsel.entryName hsound), List.drop_left]

theorem selected_seen_iff_of_reach {l' : Location}
    (hreach : fs.reach true (Path.clean root) = .ok (l', .directory entries))
    {above : List String} {name : String} {e : Entry} :
    c.Selected root (fs.seen root entries) above name e ↔
      c.Selected root entries above name e ∧ Passable fs.isLocked l' above := by
  have husable := (resolve_eq_ok_iff.mp h).1
  have hsound : entriesSound entries = true := hfs.isSound_of_resolve h
  have hleaf (hsize : ∀ front, front ≠ [] → front <+: above →
      (Path.below root front).utf8ByteSize < pathLimit) :
      Leaf (fs.seen root entries) above name e ↔ Leaf entries above name e ∧ Passable fs.isLocked l' above := by
    refine leaf_seen_iff husable hreach hsound fun n hn => hsize [n] (by simp) ?_
    obtain ⟨rest, rfl⟩ := List.head?_eq_some_iff.mp hn
    exact ⟨rest, rfl⟩
  constructor
  · intro hsel
    obtain ⟨hown, hpass⟩ := (hleaf hsel.size_lt).mp hsel.toLeaf
    exact ⟨{ hsel with toLeaf := hown }, hpass⟩
  · rintro ⟨hsel, hpass⟩
    exact { hsel with toLeaf := (hleaf hsel.size_lt).mpr ⟨hsel.toLeaf, hpass⟩ }

theorem selected_seen_iff (hsame : fs.resolve false (Path.clean root) = fs.resolve false root)
    {above : List String} {name : String} {e : Entry} :
    c.Selected root (fs.seen root entries) above name e ↔
      c.Selected root entries above name e ∧ Passable fs.isLocked l above :=
  selected_seen_iff_of_reach hfs h (resolve_eq_ok_iff.mp (resolve_follow (hsame.trans h) (by simp))).2

end Directory

/-- A directory is analyzed by the analysis of its files in turn, up to the first that is waited for. The files are
the entries below it that are no directories, have an extension of interest and lie below directories with paths that
have nothing to be ignored in them and can be opened, in the order of the bytes of one name after the other. A
directory right below the root is taken for what its path leads to, which is itself if only the shortest path to the
root leads there as well. -/
theorem directory_selects (hfs : fs.Tidy) (c : Checker) (ignoreTests : Bool) (root : String) :
    (∀ a, Reaches c fs ignoreTests (c.filesBelow fs root) a (c.tryDirectory fs ignoreTests root a)) ∧
      (∀ a, Analyzes c fs ignoreTests (c.filesBelow fs root) a (c.addDirectory fs ignoreTests root a)) ∧
      (∀ error, fs.linkStatus root = .error error → c.filesBelow fs root = []) ∧
      (∀ e, fs.linkStatus root = .ok e → e.isDirectory = false →
        c.filesBelow fs root = if c.parser.supports (Path.extension root) then [root] else []) ∧
      ∀ l entries, fs.resolve false root = .ok (l, .directory entries) →
        (fs.isLocked l = true → c.filesBelow fs root = []) ∧
        (fs.isLocked l = false → ∃ ways : List (List String),
          c.filesBelow fs root = ways.map (fun way => Path.join [root, Path.joinNames way]) ∧
            ways.Pairwise (List.Lex fun a b => Path.bytes a < Path.bytes b) ∧
            ∀ way, way ∈ ways ↔ ∃ above name e,
              way = above ++ [name] ∧ c.Selected root (fs.seen root entries) above name e) ∧
        (fs.resolve false (Path.clean root) = fs.resolve false root → ∀ above name e,
          c.Selected root (fs.seen root entries) above name e ↔
            c.Selected root entries above name e ∧ Passable fs.isLocked l above) := by
  refine ⟨c.reaches_tryDirectory fs ignoreTests root, c.analyzes_addDirectory fs ignoreTests root,
    fun error herror => ?_, fun e he hdir => ?_,
    fun l entries h => ⟨fun hlocked => ?_, fun hfree => ?_, fun hsame _ _ _ => selected_seen_iff hfs h hsame⟩⟩
  · rw [filesBelow, walk, herror]
    rfl
  · have hwalk : fs.walk c.ignoresDirectory root = [.found root] := by
      rw [walk, he]
      cases e with
      | directory inner => contradiction
      | file content => rfl
      | link target => rfl
      | special reading => rfl
    rw [filesBelow_eq_filter, hwalk]
    exact List.filter_singleton.trans (Bool.cond_eq_ite ..)
  · rw [filesBelow_eq_filter, filterMap_walk _ h (hfs.isSound_of_resolve h), hlocked, Bool.or_true]
    rfl
  · obtain ⟨ways, hfiles, hsorted, hmem⟩ := exists_ways (c := c) hfs h hfree
    have hsound := entriesSound_seen hfs h
    refine ⟨ways, ?_, hsorted.imp fun hlt => hlt.imp fun _ _ => Path.bytes_lt_of_lt, hmem⟩
    rw [hfiles]
    refine List.map_congr_left fun way hway => ?_
    obtain ⟨above, name, e, rfl, hsel⟩ := (hmem way).mp hway
    have hnames := hsel.entryName hsound
    exact (Path.join_joinNames (resolve_eq_ok_iff.mp h).1.ne_empty (fun n hn => (hnames n hn).toIsName)
      fun hparent => (hnames _ hparent).ne_parent rfl).symm

theorem Selected.of_single {first name : String} {e : Entry} (hleaf : Leaf entries [first] name e)
    (hsupports : c.parser.supports (Path.extension name) = true)
    (hroot : Path.mentions c.settings.ignoredDirectories root = false)
    (hopen : Open c.settings.ignoredDirectories (Path.below root [first])) :
    c.Selected root entries [first] name e := by
  have hfront : ∀ front, front ≠ [] → front <+: [first] → Path.below root front = Path.below root [first] := by
    intro front hne hpre
    obtain ⟨rest, rfl, hrest⟩ := (List.prefix_cons_iff.mp hpre).resolve_left hne
    rw [List.prefix_nil.mp hrest]
  exact {
    toLeaf := hleaf
    supports_eq := hsupports
    spares_root := spares_iff.mpr hroot
    spares := fun front hne hpre => hfront front hne hpre ▸ spares_iff.mpr hopen.not_ignored
    size_lt := fun front hne hpre => hfront front hne hpre ▸ hopen.size_lt }

/-- A link leads into a directory, so that the parent of what it leads to is not its own parent. -/
def crossedFiles : FileSystem where
  root := [(".git", .directory [("y.py", .file ByteArray.empty)]),
    ("a", .directory [("m.py", .file ByteArray.empty)]),
    ("a.py", .link "a/m.py"),
    ("link", .link "o/i"),
    ("o", .directory [("d", .directory [("s", .directory [("x.py", .file ByteArray.empty)])]), ("i", .directory [])])]
  workingDirectory := "/"

theorem directory_selects_crossedFiles :
    let c := Job.plainJob.checker
    crossedFiles.Tidy ∧ c.Selected "." crossedFiles.root ["a"] "m.py" (.file ByteArray.empty) ∧
      Path.join [".", Path.joinNames ["a", "m.py"]] ∈ c.filesBelow crossedFiles "." ∧
      c.filesBelow crossedFiles "." = ["a/m.py", "a.py", "o/d/s/x.py"] := by
  intro c
  have htidy : crossedFiles.Tidy := ⟨by decide +kernel, by decide +kernel⟩
  have hsel : c.Selected "." crossedFiles.root ["a"] "m.py" (.file ByteArray.empty) :=
    .of_single ⟨by rfl, rfl⟩ (by decide +kernel) (by decide +kernel) ⟨by decide +kernel, by decide +kernel⟩
  obtain ⟨-, -, -, -, hdirectory⟩ := directory_selects htidy c false "."
  obtain ⟨-, hselects, hseen⟩ := hdirectory [] crossedFiles.root (by rfl)
  obtain ⟨ways, hfiles, -, hmem⟩ := hselects rfl
  have hclean : Path.clean "." = "." := by decide +kernel
  have hway : ["a", "m.py"] ∈ ways :=
    (hmem _).mpr ⟨["a"], "m.py", _, rfl, (hseen (by rw [hclean]) _ _ _).mpr ⟨hsel, fun _ _ _ => rfl⟩⟩
  have hmap := List.mem_map_of_mem (f := fun way => Path.join [".", Path.joinNames way]) hway
  rw [← hfiles] at hmap
  exact ⟨htidy, hsel, hmap, by decide +kernel⟩

/-- The shortest path does without the link, and there is no such directory then. -/
theorem filesBelow_crossedFiles :
    let c := Job.plainJob.checker
    let entries : Entries := [("s", .directory [("x.py", .file ByteArray.empty)])]
    crossedFiles.linkStatus "link/../d" = .ok (.directory entries) ∧
      c.Selected "link/../d" entries ["s"] "x.py" (.file ByteArray.empty) ∧
      c.filesBelow crossedFiles "link/../d" = [] :=
  ⟨by rfl, .of_single ⟨by rfl, rfl⟩ (by decide +kernel) (by decide +kernel) ⟨by decide +kernel, by decide +kernel⟩,
    by decide +kernel⟩

end FunctionLength.Checker
