import FunctionLength.Proofs.Directories
import FunctionLength.Proofs.WatchedPaths

/-!
How far a watcher keeps up with directories that come and go. A new directory is made known by one notice, from
the directory that it is in, and what it holds by then is not looked at. So a watcher misses what comes along
with a directory, and it misses nothing if directories come one at a time.
-/

namespace FunctionLength.FileSystem

/-- What is in the root `/` is told of with two slashes in a row, and no name to be ignored begins so. -/
def ClearOfSlashes (root : String) (ignored : List String) : Prop :=
  root = "/" → ∀ part ∈ ignored, ¬ ['/', '/'] <+: part.toList

section Slash

variable {fs : FileSystem} {path name : String} (habsolute : Path.isAbsolute path = true)
  (hclean : Path.clean path = path)
include habsolute hclean

theorem below_root_or_slash (name : String) :
    path = "/" ∧ Path.below path [name] = "/" ++ name ∨ path ++ "/" ++ name = Path.below path [name] := by
  have hpath := Path.eq_ofNames_of_clean hclean
  rw [habsolute] at hpath
  rw [Path.below_of_clean hclean, habsolute]
  by_cases hnil : Path.names path = []
  · left
    rw [hnil] at hpath ⊢
    exact ⟨hpath, by simp [Path.ofNames, Path.joinNames]⟩
  · right
    rw [Path.ofNames_concat hnil, ← hpath]

theorem resolve_slash_of_below {follow : Bool} {x : Location × Entry} (hname : EntryName name)
    (h : fs.resolve follow (Path.below path [name]) = .ok x) :
    fs.resolve follow (path ++ "/" ++ name) = .ok x := by
  rcases below_root_or_slash habsolute hclean name with ⟨rfl, hbelow⟩ | heq
  · obtain ⟨husable, hreach⟩ := resolve_eq_ok_iff.mp h
    rw [← reach_slash habsolute hclean hname] at hreach
    have hsize := hname.size_le
    refine resolve_eq_ok_iff.mpr ⟨⟨?_, ?_, ?_⟩, hreach⟩
    · simpa using hname.no_null
    · intro hempty
      simpa using congrArg String.toList hempty
    · have hone : "/".utf8ByteSize = 1 := rfl
      rw [String.utf8ByteSize_append, String.utf8ByteSize_append, hone, pathLimit]
      omega
  · rwa [heq]

theorem mentions_slash_of_below {ignored : List String}
    (hslash : ClearOfSlashes path ignored)
    (h : Path.mentions ignored (Path.below path [name]) = false) :
    Path.mentions ignored (path ++ "/" ++ name) = false := by
  rcases below_root_or_slash habsolute hclean name with ⟨rfl, hbelow⟩ | heq
  · by_contra hnot
    obtain ⟨part, hpart, hne, hinfix⟩ := Path.mentions_eq_true_iff.mp (Bool.not_eq_false _ ▸ hnot)
    have habsent : ¬ part.toList <:+: '/' :: name.toList := fun hin => by
      have hbelow : part.toList <:+: (Path.below "/" [name]).toList := by simpa [hbelow] using hin
      simp [Path.mentions_eq_true_iff.mpr ⟨part, hpart, hne, hbelow⟩] at h
    have hlong : part.toList <:+: '/' :: '/' :: name.toList := by simpa using hinfix
    rcases List.infix_cons_iff.mp hlong with hpre | hin
    · rcases List.prefix_cons_iff.mp hpre with hnil | ⟨rest, hrest, hpre⟩
      · exact hne (String.toList_eq_nil_iff.mp hnil)
      rcases List.prefix_cons_iff.mp hpre with rfl | ⟨rest', rfl, -⟩
      · exact habsent (hrest ▸ ⟨[], name.toList, rfl⟩)
      · exact hslash rfl part hpart (hrest ▸ ⟨rest', rfl⟩)
    · exact habsent hin
  · rwa [heq]

end Slash

/-- All directories on a way down may be listed, also the first one. -/
def Listable (fs : FileSystem) (l : Location) (way : List String) : Prop :=
  ∀ front, front <+: way → fs.isLocked (l ++ front) = false

theorem Listable.of_isPrefix {fs : FileSystem} {l : Location} {front way : List String} (h : Listable fs l way)
    (hpre : front <+: way) : Listable fs l front :=
  fun _ hfront => h _ (hfront.trans hpre)

end FunctionLength.FileSystem

namespace FunctionLength.Watch
open FunctionLength.FileSystem

section Settled

variable {fs : FileSystem} {subs : List Subscription} {l : Location} {path : String}

/-- Subscriptions as they should be: to directories that are there, and one to each. -/
structure Settled (fs : FileSystem) (subs : List Subscription) : Prop where
  isDirectory : ∀ x ∈ subs, fs.IsDirectory x.location
  unique : ∀ x ∈ subs, ∀ y ∈ subs, x.location = y.location → x = y

theorem Settled.subscribe (h : Settled fs subs) (hl : fs.IsDirectory l) : Settled fs (subscribe l path subs) where
  isDirectory x hx := by
    rcases mem_of_mem_subscribe hx with hx | ⟨rfl, -⟩
    · exact h.isDirectory x hx
    · exact hl
  unique x hx y hy heq := by
    rcases mem_of_mem_subscribe hx with hx | ⟨rfl, hfresh⟩ <;>
      rcases mem_of_mem_subscribe hy with hy | ⟨rfl, hfresh'⟩
    · exact h.unique x hx y hy heq
    · exact absurd heq (hfresh' x hx)
    · exact absurd heq.symm (hfresh y hy)
    · rfl

theorem Settled.subscribeAll {ts : List (Location × String)} (h : Settled fs subs)
    (hts : ∀ t ∈ ts, fs.IsDirectory t.1) : Settled fs (subscribeAll ts subs) := by
  induction ts generalizing subs with
  | nil => exact h
  | cons t ts ih => exact ih (h.subscribe (hts t (by simp))) fun u hu => hts u (by simp [hu])

end Settled

section Notices

variable {fs : FileSystem} {subs : List Subscription} {c : Change}

theorem allNotices_of_same {effects : List Effect} (h : ∀ effect ∈ effects, (notices subs effect).2 = subs) :
    (allNotices subs effects).2 = subs := by
  induction effects with
  | nil => rfl
  | cons effect rest ih =>
    rw [allNotices_cons, h effect (by simp)]
    exact ih fun effect heffect => h effect (by simp [heffect])

theorem notices_of_leafy {effect : Effect} (h : effect.Leafy) : (notices subs effect).2 = subs := by
  cases h with
  | write l content => rfl
  | create l e he => cases e <;> rfl

theorem mem_allNotices_of_deletes {effects : List Effect} (h : ∀ effect ∈ effects, ∃ l, effect = .delete l)
    {x : Subscription} :
    x ∈ (allNotices subs effects).2 ↔ x ∈ subs ∧ .delete x.location ∉ effects := by
  induction effects generalizing subs with
  | nil => simp [allNotices]
  | cons effect rest ih =>
    obtain ⟨l, rfl⟩ := h effect (by simp)
    rw [allNotices_cons, ih fun effect heffect => h effect (by simp [heffect])]
    simp only [notices, List.mem_filter, decide_eq_true_eq, List.mem_cons, Effect.delete.injEq, not_or, and_assoc]

theorem mem_notices_move {source target : Location} {x : Subscription} :
    x ∈ (notices subs (.move source target)).2 ↔
      ∃ y ∈ subs, y.location ≠ source ∧ x = { y with location := relocate source target y.location } := by
  simp only [notices, List.mem_map, List.mem_filter, decide_eq_true_eq]
  constructor
  · rintro ⟨y, ⟨hy, hne⟩, rfl⟩
    exact ⟨y, hy, hne, rfl⟩
  · rintro ⟨y, hy, hne, rfl⟩
    exact ⟨y, ⟨hy, hne⟩, rfl⟩

/-- A directory that is new, in one that is not. All other new directories are in it. -/
structure Arrival (fs : FileSystem) (c : Change) (l : Location) : Prop where
  isDirectory : (fs.apply c).IsDirectory l
  not_isDirectory : ¬ fs.IsDirectory l
  parent : ∃ above name, l = above ++ [name] ∧ fs.IsDirectory above
  first : ∀ l', (fs.apply c).IsDirectory l' → ¬ fs.IsDirectory l' → l <+: l'

theorem Arrival.eq_of_parent {l l' : Location} (h : Arrival fs c l) (hl' : (fs.apply c).IsDirectory l')
    (hnot : ¬ fs.IsDirectory l') (hparent : ∃ above name, l' = above ++ [name] ∧ fs.IsDirectory above) : l' = l := by
  obtain ⟨above, name, rfl, habove⟩ := hparent
  rcases List.prefix_concat_iff.mp (h.first _ hl' hnot) with heq | hpre
  · exact heq.symm
  · exact absurd (habove.of_isPrefix hpre) h.not_isDirectory

/-- What a change does to subscriptions, before any notice of it is dealt with. -/
structure Carried (fs : FileSystem) (c : Change) (subs : List Subscription) : Prop where
  settled : Settled (fs.apply c) (allNotices subs (fs.effects c)).2
  kept : ∀ x ∈ subs, (fs.apply c).IsDirectory x.location → (x.location = [] → .delete [] ∉ fs.effects c) →
    x ∈ (allNotices subs (fs.effects c)).2
  arrived : ∀ l, Arrival fs c l →
    (∀ x ∈ (allNotices subs (fs.effects c)).2, x.location ≠ l) ∧
      ∃ before after, (allNotices subs (fs.effects c)).1 = before ++ aboutEntry subs .create l ++ after ∧
        ∀ n ∈ before, n.operation ≠ .create

theorem carried_of_growth (h : Settled fs subs) {made : List Location} {rest : List Effect}
    (hgrowth : Growth fs c made rest) : Carried fs c subs := by
  have hsame : (allNotices subs (fs.effects c)).2 = subs := by
    refine allNotices_of_same fun effect heffect => ?_
    rw [hgrowth.effects_eq] at heffect
    rcases List.mem_append.mp heffect with heffect | heffect
    · obtain ⟨l, -, rfl⟩ := List.mem_map.mp heffect
      rfl
    · exact notices_of_leafy (hgrowth.leafy effect heffect)
  refine ⟨?_, fun x hx _ _ => by rwa [hsame], fun l hl => ⟨fun x hx heq => ?_, ?_⟩⟩
  · rw [hsame]
    exact ⟨fun x hx => (hgrowth.isDirectory_apply _).mpr (.inl (h.isDirectory x hx)), h.unique⟩
  · rw [hsame] at hx
    exact hl.not_isDirectory (heq ▸ h.isDirectory x hx)
  · -- The first directory that is made is in an old one, so it is the one that is new.
    have hmade : l ∈ made := ((hgrowth.isDirectory_apply l).mp hl.isDirectory).resolve_left hl.not_isDirectory
    cases hcases : made with
    | nil => simp [hcases] at hmade
    | cons first others =>
      obtain ⟨hnot, hparent⟩ := hgrowth.first first (by simp [hcases])
      have hfirst : (fs.apply c).IsDirectory first := (hgrowth.isDirectory_apply first).mpr (.inr (by simp [hcases]))
      obtain rfl := hl.eq_of_parent hfirst hnot hparent
      rw [hgrowth.effects_eq, hcases]
      exact ⟨[], _, rfl, by simp⟩

theorem carried_of_removal (h : Settled fs subs) (hremoval : Removal fs c) : Carried fs c subs := by
  have hmem : ∀ x, x ∈ (allNotices subs (fs.effects c)).2 ↔ x ∈ subs ∧ .delete x.location ∉ fs.effects c :=
    fun x => mem_allNotices_of_deletes hremoval.deletes
  refine ⟨⟨fun x hx => ?_, fun x hx y hy => ?_⟩, fun x hx hstill hroot => ?_, fun l hl => ?_⟩
  · obtain ⟨hx, hkept⟩ := (hmem x).mp hx
    exact hremoval.apply_of _ (h.isDirectory x hx) hkept
  · exact h.unique x ((hmem x).mp hx).1 y ((hmem y).mp hy).1
  · refine (hmem x).mpr ⟨hx, ?_⟩
    rcases (hremoval.of_apply _ hstill).2 with hnil | hkept
    · rw [hnil]
      exact hroot hnil
    · exact hkept
  · exact absurd (hremoval.of_apply l hl.isDirectory).1 hl.not_isDirectory

theorem carried_of_transfer (h : Settled fs subs) {source target : Location}
    (htransfer : Transfer fs c source target) : Carried fs c subs := by
  have hmem : ∀ x, x ∈ (allNotices subs (fs.effects c)).2 ↔ ∃ y ∈ subs, y.location ≠ source ∧
      x = { y with location := relocate source target y.location } := fun x => by
    rw [htransfer.effects_eq]
    exact mem_notices_move
  -- Nothing that is subscribed is at the target or below it before.
  have hfree : ∀ y ∈ subs, ¬ target <+: y.location := fun y hy hpre =>
    htransfer.not_isDirectory ((h.isDirectory y hy).of_isPrefix hpre)
  have harrival : ∀ l, Arrival fs c l → target = l := fun l hl => by
    have hpre : target <+: l := by
      by_contra hnot
      exact hl.not_isDirectory ((htransfer.elsewhere l hnot).mp hl.isDirectory).1
    exact hl.eq_of_parent (hl.isDirectory.of_isPrefix hpre) htransfer.not_isDirectory htransfer.parent
  refine ⟨⟨fun x hx => ?_, fun x hx x' hx' heq => ?_⟩, fun x hx hstill _ => ?_, fun l hl => ⟨fun x hx heq => ?_, ?_⟩⟩
  · obtain ⟨y, hy, -, rfl⟩ := (hmem x).mp hx
    by_cases hpre : source <+: y.location
    · obtain ⟨rest, hrest⟩ := hpre
      simp only [← hrest, relocate_append]
      exact (htransfer.below_target rest).mpr (hrest ▸ h.isDirectory y hy)
    · simp only [relocate_of_not target hpre]
      exact (htransfer.elsewhere _ (hfree y hy)).mpr ⟨h.isDirectory y hy, hpre⟩
  · obtain ⟨y, hy, -, rfl⟩ := (hmem x).mp hx
    obtain ⟨y', hy', -, rfl⟩ := (hmem x').mp hx'
    rw [h.unique y hy y' hy' (relocate_inj (hfree y hy) (hfree y' hy') heq)]
  · have hpre : ¬ source <+: x.location := ((htransfer.elsewhere _ (hfree x hx)).mp hstill).2
    refine (hmem x).mpr ⟨x, hx, fun heq => hpre (heq ▸ List.prefix_refl _), ?_⟩
    rw [relocate_of_not target hpre]
  · obtain ⟨y, hy, hne, rfl⟩ := (hmem x).mp hx
    rw [← harrival l hl] at heq
    by_cases hpre : source <+: y.location
    · obtain ⟨rest, hrest⟩ := hpre
      simp only [← hrest, relocate_append] at heq
      have hnil : rest = [] := List.append_cancel_left (heq.trans (List.append_nil target).symm)
      exact hne (by rw [← hrest, hnil, List.append_nil])
    · simp only [relocate_of_not target hpre] at heq
      exact hfree y hy (heq ▸ List.prefix_refl _)
  · rw [htransfer.effects_eq, ← harrival l hl]
    refine ⟨aboutEntry subs .rename source, aboutSelf subs .rename source, ?_, fun n hn => ?_⟩
    · simp [allNotices, notices]
    · simp [operation_of_mem_aboutEntry hn]

theorem carried (h : Settled fs subs) (hfresh : Fresh fs (fs.effects c)) : Carried fs c subs := by
  have hidle : ∀ {c : Change}, fs.apply c = fs → (allNotices subs (fs.effects c)).2 = subs → Carried fs c subs := by
    intro c happly hsame
    refine ⟨?_, fun x hx _ _ => by rwa [hsame], fun l hl => ?_⟩
    · rwa [happly, hsame]
    · exact absurd (happly ▸ hl.isDirectory) hl.not_isDirectory
  cases c with
  | write path e =>
    obtain ⟨made, rest, hgrowth⟩ := exists_growth hfresh
    exact carried_of_growth h hgrowth
  | remove path => exact carried_of_removal h (removal_of_remove fs path)
  | rename path new =>
    by_cases hnone : fs.effects (.rename path new) = []
    · exact hidle (by rw [apply, hnone]; rfl) (by rw [hnone]; rfl)
    · obtain ⟨source, target, htransfer⟩ := transfer_of_rename hnone
      exact carried_of_transfer h htransfer
  | setAttributes path =>
    have hcases : fs.effects (.setAttributes path) = [] ∨
        ∃ l, fs.effects (.setAttributes path) = [.setAttributes l] := by
      simp only [effects]
      cases fs.resolve true path with
      | error cause => exact .inl rfl
      | ok found => exact .inr ⟨found.1, rfl⟩
    rcases hcases with heffects | ⟨l, heffects⟩
    · exact hidle (by rw [apply, heffects]; rfl) (by rw [heffects]; rfl)
    · exact hidle (by rw [apply, heffects]; rfl) (by rw [heffects]; rfl)

end Notices

namespace Watcher

theorem addition?_entry {ignored : List String} {fs : FileSystem} {path name : String} {l : Location}
    {entries : Entries} (habsolute : Path.isAbsolute path = true) (hclean : Path.clean path = path)
    (hslash : ClearOfSlashes path ignored) (hname : EntryName name)
    (hignored : Path.mentions ignored (Path.below path [name]) = false)
    (h : fs.resolve true (Path.below path [name]) = .ok (l, .directory entries)) (hfree : fs.isLocked l = false) :
    addition? ignored fs ⟨.create, path ++ "/" ++ name⟩ = some (l, Path.below path [name]) := by
  have hne : path ≠ "" := by
    rintro rfl
    simp [Path.isAbsolute] at habsolute
  have hresolve := resolve_slash_of_below habsolute hclean hname h
  exact addition?_eq_some_iff.mpr ⟨Notice.newDirectory?_eq_some_iff.mpr ⟨rfl, entries, hresolve⟩,
    mentions_slash_of_below habsolute hclean hslash hignored, hfree, clean_slash hne hname⟩

end Watcher

namespace Scene

/-- A change that is to be followed from a root. The root stays, nothing is made in the place of a directory,
and a new directory that is to be watched and can be comes into one that was there before, with none in it for
which this holds as well. -/
structure Gentle (ignored : List String) (root : String) (l : Location) (fs : FileSystem) (c : Change) : Prop where
  fresh : Fresh fs (fs.effects c)
  stays : ∃ entries, (fs.apply c).resolve false root = .ok (l, .directory entries)
  kept : .delete l ∉ fs.effects c
  alone : ∀ way, (fs.apply c).IsDirectory (l ++ way) → ¬ fs.IsDirectory (l ++ way) →
    Open ignored (Path.below root way) → Listable (fs.apply c) l way → Arrival fs c (l ++ way)

theorem Gentle.listable {ignored : List String} {root : String} {l : Location} {fs : FileSystem} {c : Change}
    (h : Gentle ignored root l fs c) {way : List String} (hold : fs.IsDirectory (l ++ way))
    (hdir : (fs.apply c).IsDirectory (l ++ way)) (hlist : Listable (fs.apply c) l way) : Listable fs l way := by
  intro front hpre
  have habove : l ++ front <+: l ++ way := (List.prefix_append_right_inj l).mpr hpre
  exact isLocked_of_apply h.fresh (hold.of_isPrefix (List.prefix_append l way)) h.kept (hold.of_isPrefix habove)
    (hdir.of_isPrefix habove) (hlist front hpre)

def Gently (ignored : List String) (root : String) (l : Location) : FileSystem → List Change → Prop
  | _, [] => True
  | fs, c :: rest => Gentle ignored root l fs c ∧ Gently ignored root l (fs.apply c) rest

section Single

variable {ignored : List String} {root path : String} {l : Location} {fs : FileSystem}

theorem gentle_of_write {e : Entry} (hfresh : Fresh fs (fs.effects (.write path e)))
    (hstays : ∃ entries, (fs.apply (.write path e)).resolve false root = .ok (l, .directory entries))
    (hone : ∀ x, .create x (.directory []) ∈ fs.effects (.write path e) →
      ∀ y, .create y (.directory []) ∈ fs.effects (.write path e) → x = y) :
    Gentle ignored root l fs (.write path e) := by
  obtain ⟨made, rest, hgrowth⟩ := exists_growth hfresh
  have hmade : ∀ x ∈ made, .create x (.directory []) ∈ fs.effects (.write path e) := fun x hx => by
    rw [hgrowth.effects_eq]
    exact List.mem_append_left _ (List.mem_map_of_mem hx)
  refine ⟨hfresh, hstays, fun hmem => ?_, fun way hdir hnew _ _ => ?_⟩
  · rw [hgrowth.effects_eq] at hmem
    rcases List.mem_append.mp hmem with hmem | hmem
    · simp at hmem
    · cases hgrowth.leafy _ hmem
  · have hnew' : ∀ x, (fs.apply (.write path e)).IsDirectory x → ¬ fs.IsDirectory x → x ∈ made :=
      fun x hx hnot => ((hgrowth.isDirectory_apply x).mp hx).resolve_left hnot
    have hway := hnew' _ hdir hnew
    have hsame : ∀ x ∈ made, l ++ way = x := fun x hx => hone _ (hmade _ hway) x (hmade x hx)
    refine ⟨hdir, hnew, ?_, fun x hx hnot => hsame x (hnew' x hx hnot) ▸ List.prefix_refl _⟩
    obtain ⟨first, others, rfl⟩ := List.exists_cons_of_ne_nil (List.ne_nil_of_mem hway)
    rw [hsame first (by simp)]
    exact (hgrowth.first first rfl).2

theorem fresh_of_deletes {effects : List Effect} (h : ∀ effect ∈ effects, ∃ x, effect = .delete x) :
    Fresh fs effects := by
  induction effects generalizing fs with
  | nil => trivial
  | cons effect rest ih =>
    obtain ⟨x, rfl⟩ := h effect (by simp)
    exact ⟨by simp, ih fun effect heffect => h effect (by simp [heffect])⟩

theorem gentle_of_remove (hkept : .delete l ∉ fs.effects (.remove path))
    (hstays : ∃ entries, (fs.apply (.remove path)).resolve false root = .ok (l, .directory entries)) :
    Gentle ignored root l fs (.remove path) := by
  have hremoval := removal_of_remove fs path
  refine ⟨fresh_of_deletes hremoval.deletes, hstays, hkept, fun way hdir hnew _ _ => ?_⟩
  exact absurd (hremoval.of_apply _ hdir).1 hnew

theorem gentle_of_rename {new : String} {source target : Location}
    (heffects : fs.effects (.rename path new) = [.move source target])
    (hstays : ∃ entries, (fs.apply (.rename path new)).resolve false root = .ok (l, .directory entries))
    (hone : ∀ rest, fs.IsDirectory (source ++ rest) → rest = []) :
    Gentle ignored root l fs (.rename path new) := by
  obtain ⟨source', target', htransfer⟩ := transfer_of_rename (by rw [heffects]; simp)
  obtain ⟨rfl, rfl⟩ : source' = source ∧ target' = target := by
    simpa using htransfer.effects_eq.symm.trans heffects
  have hnew : ∀ x, (fs.apply (.rename path new)).IsDirectory x → ¬ fs.IsDirectory x → x = target' := by
    intro x hx hnot
    by_cases hpre : target' <+: x
    · obtain ⟨rest, rfl⟩ := hpre
      rw [hone rest ((htransfer.below_target rest).mp hx), List.append_nil]
    · exact absurd ((htransfer.elsewhere x hpre).mp hx).1 hnot
  refine ⟨by simp [heffects, Fresh], hstays, by simp [heffects], fun way hdir hold _ _ => ⟨hdir, hold, ?_, ?_⟩⟩
  · rw [hnew _ hdir hold]
    exact htransfer.parent
  · intro x hx hnot
    rw [hnew _ hdir hold, hnew x hx hnot]

end Single

/-- All directories below a root are watched by their paths, unless they are ignored or hidden. -/
structure Complete (ignored : List String) (root : String) (l : Location) (s : Scene) : Prop where
  settled : Settled s.fs s.watcher.subscriptions
  watched : ∀ way, s.fs.IsDirectory (l ++ way) → (way = [] ∨ Open ignored (Path.below root way)) →
    Listable s.fs l way → ⟨l ++ way, Path.below root way⟩ ∈ s.watcher.subscriptions

theorem entryName_of_isDirectory {fs : FileSystem} (h : fs.Tidy) {l : Location} {way : List String}
    (hdir : fs.IsDirectory (l ++ way)) : ∀ n ∈ way, EntryName n := by
  obtain ⟨inner, hinner⟩ := hdir
  have hall := (Entry.below?_sound (e := .directory fs.root) (entriesSound_of_tidy h.entries) hinner).2
  exact fun n hn => hall n (List.mem_append_right _ hn)

theorem open_above {ignored : List String} {root name : String} {way : List String}
    (h : Open ignored (Path.below root (way ++ [name]))) : way = [] ∨ Open ignored (Path.below root way) := by
  by_cases hnil : way = []
  · exact .inl hnil
  · rw [Path.below, ← List.append_assoc] at h
    exact .inr (open_of_append hnil h)

/-- What is done about a change if the last loop deals at once with all that is told of it. -/
def follow (s : Scene) (time : Nat) (c : Change) : List Action :=
  let i := s.watcher.loops.length - 1
  .change c :: (List.replicate (s.watcher.notify (s.fs.effects c)).pending.length [.take i, .deal time i]).flatten

def followAll (s : Scene) : List (Nat × Change) → List Action
  | [] => []
  | step :: rest => s.follow step.1 step.2 ++ (s.after (s.follow step.1 step.2)).followAll rest

def fromStart (s : Scene) (root : String) (steps : List (Nat × Change)) : List Action :=
  .start root :: (s.act (.start root)).followAll steps

theorem work_eq_after (fs : FileSystem) (time i n : Nat) (w : Watcher) :
    let actions := (List.replicate n [Action.take i, .deal time i]).flatten
    (⟨fs, w⟩ : Scene).after actions = ⟨fs, (Watcher.work fs time i n w).1⟩ ∧
      (⟨fs, w⟩ : Scene).reported actions = (Watcher.work fs time i n w).2 := by
  induction n generalizing w with
  | zero => exact ⟨rfl, rfl⟩
  | succ n ih =>
    obtain ⟨hafter, hreported⟩ := ih ((w.take i).deal fs time i).1
    exact ⟨hafter, congrArg (((w.take i).deal fs time i).2.toList ++ ·) hreported⟩

theorem after_follow (s : Scene) (time : Nat) (c : Change) :
    s.after (s.follow time c) = ⟨s.fs.apply c, (s.watcher.observe s.fs time c).1⟩ :=
  (work_eq_after (s.fs.apply c) time _ _ (s.watcher.notify (s.fs.effects c))).1

theorem reported_follow (s : Scene) (time : Nat) (c : Change) :
    s.reported (s.follow time c) = (s.watcher.observe s.fs time c).2 :=
  (work_eq_after (s.fs.apply c) time _ _ (s.watcher.notify (s.fs.effects c))).2

theorem fs_fromStart (s : Scene) (root : String) (steps : List (Nat × Change)) :
    (s.after (s.fromStart root steps)).fs = steps.foldl (fun fs step => fs.apply step.2) s.fs := by
  have hfollow : ∀ s : Scene, (s.after (s.followAll steps)).fs =
      steps.foldl (fun fs step => fs.apply step.2) s.fs := by
    induction steps with
    | nil => exact fun s => rfl
    | cons step steps ih =>
      intro s
      rw [followAll, after_append, ih, after_follow, List.foldl_cons]
  obtain ⟨w, hact, -⟩ := s.act_start root
  change ((s.act (.start root)).after ((s.act (.start root)).followAll steps)).fs = _
  rw [hfollow, hact]

section Step

variable {origin : Scene} {before : List Action} {root full : String} {l : Location} {c : Change}
  (hsteady : Steady origin before) (hfull : origin.fs.absolute? root = some full)
include hsteady

theorem resolve_of_mem_additions {x : Location × String}
    (hx : x ∈ (allNotices (origin.after before).watcher.subscriptions ((origin.after before).fs.effects c)).1.filterMap
      (Watcher.addition? origin.watcher.ignored ((origin.after before).fs.apply c))) :
    ∃ entries, ((origin.after before).fs.apply c).resolve true x.2 = .ok (x.1, .directory entries) := by
  obtain ⟨n, hn, hadd⟩ := List.mem_filterMap.mp hx
  obtain ⟨above, hwatched, habout⟩ :=
    about_of_mem_allNotices (fun _ => proper_of_mem_effects hsteady.tidy.entries) hn
  obtain ⟨name, -, -, -, hresolve⟩ :=
    hsteady.exists_entry_of_addition (hsteady.watched_subset hwatched) habout hadd
  exact hresolve

include hfull

theorem addition?_new {fs : FileSystem} {front : List String} {name : String} {place : Location} {inner : Entries}
    (hslash : ClearOfSlashes full origin.watcher.ignored)
    (hnames : ∀ n ∈ front ++ [name], EntryName n)
    (hopen : Open origin.watcher.ignored (Path.below full (front ++ [name])))
    (hresolve : fs.resolve true (Path.below full (front ++ [name])) = .ok (place, .directory inner))
    (hfree : fs.isLocked place = false) :
    Watcher.addition? origin.watcher.ignored fs ⟨.create, Path.below full front ++ "/" ++ name⟩ =
      some (place, Path.below full (front ++ [name])) := by
  have hfront : ∀ n ∈ front, EntryName n := fun n hn => hnames n (List.mem_append_left _ hn)
  have hbelow : Path.below (Path.below full front) [name] = Path.below full (front ++ [name]) :=
    below_below _ hfront _
  rw [← hbelow] at hresolve hopen ⊢
  refine Watcher.addition?_entry ?_ (clean_below _ hfront) (fun hroot => hslash ?_) (hnames name (by simp))
    hopen.not_ignored hresolve hfree
  · exact (isAbsolute_below _ hfront).trans (hsteady.isAbsolute_of_full hfull)
  · -- Only the root itself can have no names in its path.
    have hnone : front = [] := by
      have hlong := names_below full hfront
      have hempty : Path.names "/" = [] := by decide +kernel
      rw [hroot, hempty] at hlong
      exact (List.append_eq_nil_iff.mp hlong.symm).2
    rwa [hnone, Path.below_nil, hsteady.clean_of_full hfull] at hroot

variable (hgentle : Gentle origin.watcher.ignored full l (origin.after before).fs c)
include hgentle

theorem resolve_watched {way : List String} (hdir : ((origin.after before).fs.apply c).IsDirectory (l ++ way))
    (hopen : way = [] ∨ Open origin.watcher.ignored (Path.below full way)) :
    ∃ inner, ((origin.after before).fs.apply c).resolve true (Path.below full way) =
      .ok (l ++ way, .directory inner) := by
  have hway := entryName_of_isDirectory (hsteady.tidy.apply c) hdir
  obtain ⟨entries, hentries⟩ := hgentle.stays
  obtain ⟨inner, hinner⟩ := hdir
  rw [at?_append, at?_of_resolveFrom (resolve_eq_ok_iff.mp hentries).2] at hinner
  exact ⟨inner, Watcher.resolve_target (hsteady.clean_of_full hfull) hentries hway hinner hopen⟩

theorem exists_additions_of_arrival (hslash : ClearOfSlashes full origin.watcher.ignored)
    (h : Complete origin.watcher.ignored full l (origin.after before)) {way : List String}
    (hopen : Open origin.watcher.ignored (Path.below full way)) (hnil : way ≠ [])
    (hlist : Listable ((origin.after before).fs.apply c) l way)
    (harrival : Arrival (origin.after before).fs c (l ++ way)) : ∃ rest,
      (allNotices (origin.after before).watcher.subscriptions ((origin.after before).fs.effects c)).1.filterMap
        (Watcher.addition? origin.watcher.ignored ((origin.after before).fs.apply c)) =
      (l ++ way, Path.below full way) :: rest := by
  set s := origin.after before with hs
  cases way using List.reverseRecOn with
  | nil => contradiction
  | append_singleton front name _ =>
    obtain ⟨-, earlier, later, hns, hearlier⟩ := (carried h.settled hgentle.fresh).arrived _ harrival
    have hnames := entryName_of_isDirectory (hsteady.tidy.apply c) harrival.isDirectory
    have hparent : s.fs.IsDirectory (l ++ front) := by
      obtain ⟨above, last, heq, habove⟩ := harrival.parent
      rw [← List.append_assoc] at heq
      rwa [(List.append_inj' heq rfl).1]
    -- The directory above is watched by its path, and by no other one.
    have habove : (s.fs.apply c).IsDirectory (l ++ front) := by
      refine harrival.isDirectory.of_isPrefix ?_
      rw [← List.append_assoc]
      exact List.prefix_append _ _
    have hwatched := h.watched front hparent (open_above hopen)
      (hgentle.listable hparent habove (hlist.of_isPrefix (List.prefix_append _ _)))
    obtain ⟨others, habout, -⟩ := exists_aboutEntry_eq hwatched
      (fun x hx heq => h.settled.unique x hx _ hwatched heq) .create name
    obtain ⟨inner, hresolve⟩ := resolve_watched hsteady hfull hgentle harrival.isDirectory (.inr hopen)
    have hadd := addition?_new hsteady hfull hslash hnames hopen hresolve (hlist _ (List.prefix_refl _))
    have hnothing : earlier.filterMap (Watcher.addition? origin.watcher.ignored (s.fs.apply c)) = [] :=
      List.filterMap_eq_nil_iff.mpr fun n hn => Watcher.addition?_of_ne_create (hearlier n hn)
    rw [hns, List.filterMap_append, List.filterMap_append, hnothing, ← List.append_assoc l, habout,
      List.filterMap_cons, hadd, ← List.append_assoc l]
    exact ⟨_, rfl⟩

theorem Complete.step (time : Nat) {seen : List (String × Nat)}
    (hresting : (origin.after before).watcher.Resting seen)
    (hroot : ∃ entries, (origin.after before).fs.resolve false full = .ok (l, .directory entries))
    (hslash : ClearOfSlashes full origin.watcher.ignored)
    (h : Complete origin.watcher.ignored full l (origin.after before)) :
    Complete origin.watcher.ignored full l ((origin.after before).after ((origin.after before).follow time c)) := by
  set s := origin.after before with hs
  have hcarried := carried h.settled hgentle.fresh
  have hsubs := Watcher.subscriptions_observe hresting s.fs time c
  rw [hsteady.ignored_eq] at hsubs
  have hadds : ∀ x ∈ (allNotices s.watcher.subscriptions (s.fs.effects c)).1.filterMap
      (Watcher.addition? origin.watcher.ignored (s.fs.apply c)),
      ∃ entries, (s.fs.apply c).resolve true x.2 = .ok (x.1, .directory entries) := fun x hx =>
    resolve_of_mem_additions hsteady hx
  rw [after_follow]
  constructor
  · simp only [hsubs]
    refine hcarried.settled.subscribeAll fun x hx => ?_
    obtain ⟨entries, hentries⟩ := hadds x hx
    exact ⟨entries, at?_of_resolveFrom (resolve_eq_ok_iff.mp hentries).2⟩
  · intro way hdir hopen hlist
    simp only [hsubs] at hdir hlist ⊢
    obtain ⟨inner, hresolve⟩ := resolve_watched hsteady hfull hgentle hdir hopen
    -- Another directory cannot take over the path, which does not lead to it.
    have hsame : ∀ x ∈ (allNotices s.watcher.subscriptions (s.fs.effects c)).1.filterMap
        (Watcher.addition? origin.watcher.ignored (s.fs.apply c)),
        Path.below full way = x.2 → l ++ way = x.1 := by
      intro x hx hpath
      obtain ⟨entries, hentries⟩ := hadds x hx
      rw [← hpath, hresolve] at hentries
      exact congrArg Prod.fst (Except.ok.inj hentries)
    by_cases hold : s.fs.IsDirectory (l ++ way)
    · have hwatched := h.watched way hold hopen (hgentle.listable hold hdir hlist)
      refine mem_subscribeAll_of_mem (hcarried.kept _ hwatched hdir fun hnil => ?_) hsame
      obtain rfl : l = [] := (List.append_eq_nil_iff.mp hnil).1
      exact hgentle.kept
    · have hnil : way ≠ [] := by
        rintro rfl
        obtain ⟨entries, hentries⟩ := hroot
        rw [List.append_nil] at hold
        exact hold ⟨entries, at?_of_resolveFrom (resolve_eq_ok_iff.mp hentries).2⟩
      have hopen := hopen.resolve_left hnil
      have harrival := hgentle.alone way hdir hold hopen hlist
      obtain ⟨rest, hfirst⟩ :=
        exists_additions_of_arrival hsteady hfull hgentle hslash h hopen hnil hlist harrival
      rw [hfirst] at hsame
      rw [hfirst, subscribeAll_cons]
      exact mem_subscribeAll_of_mem (mem_subscribe_self (hcarried.arrived _ harrival).1)
        fun x hx => hsame x (List.mem_cons_of_mem _ hx)

end Step

section Begin

variable {fs : FileSystem} (h : fs.Tidy) (ignored : List String) {root full : String} {l : Location}
  {entries : Entries} (hfull : fs.absolute? root = some full)
  (hroot : fs.resolve false full = .ok (l, .directory entries))
include hfull

theorem act_start_eq : (⟨fs, { ignored }⟩ : Scene).act (.start root) =
    ⟨fs, { ignored, subscriptions := subscribeAll (({ ignored } : Watcher).targets fs full) [], loops := [{}] }⟩ := by
  have hrunning : ({ ignored } : Watcher).stopped = false := rfl
  simp only [act, Watcher.start_of_running hrunning hfull, List.nil_append]

include h hroot

theorem complete_start : Complete ignored full l ((⟨fs, { ignored }⟩ : Scene).act (.start root)) := by
  let w : Watcher := { ignored }
  have hclean : Path.clean full = full := absolute?_eq_some hfull ▸ h.clean_absolute root
  have hsound : entriesSound entries = true := h.isSound_of_resolve hroot
  have htargets : ∀ x ∈ w.targets fs full, ∀ y ∈ w.targets fs full, x.1 = y.1 ↔ x.2 = y.2 :=
    targets_consistent hsound hroot hclean
  have hmem : ∀ x, x ∈ subscribeAll (w.targets fs full) [] ↔ (x.location, x.path) ∈ w.targets fs full := fun x => by
    rw [mem_subscribeAll_iff htargets (by simp)]
    simp
  have hat : ∀ way, fs.at? (l ++ way) = Entries.at? entries way := fun way => by
    rw [at?_append, at?_of_resolveFrom (resolve_eq_ok_iff.mp hroot).2]
    rfl
  rw [act_start_eq ignored hfull]
  refine ⟨⟨fun x hx => ?_, fun x hx y hy heq => ?_⟩, fun way hdir hopen hlist => ?_⟩
  · obtain ⟨-, way, inner, hinner, hx, -⟩ := (mem_targets_iff hsound hroot hclean).mp ((hmem x).mp hx)
    rw [(Prod.mk.inj hx).1]
    exact ⟨inner, (hat way).trans hinner⟩
  · have hpath := (htargets _ ((hmem x).mp hx) _ ((hmem y).mp hy)).mp heq
    cases x
    cases y
    rw [Subscription.mk.injEq]
    exact ⟨heq, hpath⟩
  · obtain ⟨inner, hinner⟩ := hdir
    rw [hat] at hinner
    have hfree : fs.isLocked l = false := by simpa using hlist [] List.nil_prefix
    exact (hmem _).mpr ((mem_targets_iff hsound hroot hclean).mpr
      ⟨hfree, way, inner, hinner, rfl, hopen, fun front _ hpre => hlist front hpre⟩)

end Begin

structure Following (origin : Scene) (full : String) (l : Location) (times : List Nat) (before : List Action) :
    Prop where
  steady : Steady origin before
  root_eq : ∃ entries, (origin.after before).fs.resolve false full = .ok (l, .directory entries)
  complete : Complete origin.watcher.ignored full l (origin.after before)
  resting : ∃ seen, (origin.after before).watcher.Resting seen ∧ ∀ x ∈ seen, x.2 ∈ times

section Run

variable {origin : Scene} {root full : String} {l : Location} {times : List Nat} {before : List Action}
  (hfull : origin.fs.absolute? root = some full) (hslash : ClearOfSlashes full origin.watcher.ignored)
include hfull hslash

theorem Following.append_follow (h : Following origin full l times before) {c : Change} (time : Nat)
    (hgentle : Gentle origin.watcher.ignored full l (origin.after before).fs c) :
    Following origin full l (times ++ [time]) (before ++ (origin.after before).follow time c) := by
  obtain ⟨seen, hresting, htimes⟩ := h.resting
  obtain ⟨later, hlater, hseen⟩ := Watcher.exists_resting_observe hresting (origin.after before).fs time c
  refine ⟨h.steady.append _, ?_, ?_, later, ?_, fun x hx => ?_⟩
  · rw [after_append, after_follow]
    exact hgentle.stays
  · rw [after_append]
    exact h.complete.step h.steady hfull hgentle time hresting h.root_eq hslash
  · rwa [after_append, after_follow]
  · rcases hseen x hx with hx | htime
    · exact List.mem_append_left _ (htimes x hx)
    · simp [htime]

theorem Following.append_followAll (h : Following origin full l times before) {steps : List (Nat × Change)}
    (hgently : Gently origin.watcher.ignored full l (origin.after before).fs (steps.map (·.2))) :
    Following origin full l (times ++ steps.map (·.1)) (before ++ (origin.after before).followAll steps) := by
  induction steps generalizing times before with
  | nil => simpa [followAll] using h
  | cons step steps ih =>
    have hfirst := h.append_follow hfull hslash step.1 hgently.1
    have hnext : (origin.after (before ++ (origin.after before).follow step.1 step.2)).fs =
        (origin.after before).fs.apply step.2 := by rw [after_append, after_follow]
    have hrest := ih hfirst (by rw [hnext]; exact hgently.2)
    simpa [followAll, after_append] using hrest

end Run

section Main

variable {fs : FileSystem} (hfs : fs.Tidy) (ignored : List String) {root full : String}
  (hfull : fs.absolute? root = some full) {l : Location} {entries : Entries}
  (hroot : fs.resolve false full = .ok (l, .directory entries)) (hslash : ClearOfSlashes full ignored)
  {steps : List (Nat × Change)} (hgently : Gently ignored full l fs (steps.map (·.2)))
include hfs hfull hroot hslash hgently

theorem following : Following ⟨fs, { ignored }⟩ full l (steps.map (·.1))
    ((⟨fs, { ignored }⟩ : Scene).fromStart root steps) := by
  have hact : (⟨fs, { ignored }⟩ : Scene).after [.start root] = (⟨fs, { ignored }⟩ : Scene).act (.start root) := rfl
  have heq := act_start_eq ignored hfull
  have hstart : Following ⟨fs, { ignored }⟩ full l [] [.start root] :=
    { steady := steady hfs ignored _
      root_eq := by
        rw [hact, heq]
        exact ⟨entries, hroot⟩
      complete := complete_start hfs ignored hfull hroot
      resting := ⟨[], by rw [hact, heq]; exact ⟨rfl, rfl, rfl⟩, by simp⟩ }
  refine hstart.append_followAll hfull hslash ?_
  rw [hact, heq]
  exact hgently

/-- A watcher keeps up with directories that come one at a time: all directories below its root that are neither
ignored nor hidden by one that may not be listed are watched, and whatever is written to a file in one of them is
reported by the path of the file. -/
theorem watched_and_reported :
    let origin : Scene := ⟨fs, { ignored }⟩
    let s := origin.after (origin.fromStart root steps)
    ∀ way, s.fs.IsDirectory (l ++ way) → Open ignored (Path.below full way) → Listable s.fs l way →
      ⟨l ++ way, Path.below full way⟩ ∈ s.watcher.subscriptions ∧
      ∀ time c name content, (∀ step ∈ steps, step.1 + pause ≤ time) →
        s.fs.effects c = [.write (l ++ way ++ [name]) content] → ∀ changed,
          (changed ∈ s.reported (s.follow time c) ↔ changed = Path.below full way ++ "/" ++ name) := by
  intro origin s way hdir hopen hlist
  have hfollowing := following hfs ignored hfull hroot hslash hgently
  have hwatched := hfollowing.complete.watched way hdir (.inr hopen) hlist
  refine ⟨hwatched, fun time c name content htime heffects changed => ?_⟩
  have hway := entryName_of_isDirectory hfollowing.steady.tidy hdir
  have hname : EntryName name := by
    obtain ⟨old, hold⟩ := exists_file_of_effects heffects
    exact (Entry.below?_sound (e := .directory s.fs.root)
      (entriesSound_of_tidy hfollowing.steady.tidy.entries) hold).2 name (by simp)
  obtain ⟨seen, hresting, htimes⟩ := hfollowing.resting
  have hseen : ∀ x ∈ seen, x.2 + pause ≤ time := fun x hx => by
    obtain ⟨step, hstep, heq⟩ := List.mem_map.mp (htimes x hx)
    rw [← heq]
    exact htime step hstep
  rw [reported_follow, Watcher.mem_observe_iff hresting hseen hwatched
    (fun x hx heq => hfollowing.complete.settled.unique x hx _ hwatched heq) heffects]
  refine and_iff_left_of_imp fun hchanged => ?_
  rw [hchanged, directory_slash (clean_below _ hway) (below_ne_empty _ hway) hname, hfollowing.steady.ignored_eq]
  exact hopen.not_ignored

end Main

def arrivingFiles : FileSystem where
  root := [("o", .directory [("p", .directory [("q", .directory [("x.py", .file ByteArray.empty)])])]),
    ("w", .directory [("a.py", .file ByteArray.empty)])]
  workingDirectory := "/"

def arrivals : List (Nat × Change) :=
  [(0, .rename "o/p/q" "w/q"), (pause, .write "w/q/n/y.py" (.file ByteArray.empty)), (2 * pause, .remove "o")]

theorem gently_arrivals : Gently ["o"] "/w" ["w"] arrivingFiles (arrivals.map (·.2)) := by
  refine ⟨?_, ?_, ?_, trivial⟩
  · have hmove : arrivingFiles.effects (.rename "o/p/q" "w/q") = [.move ["o", "p", "q"] ["w", "q"]] := by rfl
    refine gentle_of_rename hmove ⟨_, by rfl⟩ fun rest hrest => ?_
    have hat : (Entry.directory arrivingFiles.root).below? ["o", "p", "q"] =
        some (.directory [("x.py", .file ByteArray.empty)]) := by rfl
    refine (Entry.hasDirectory_of_leaves ?_).mp ((Entry.hasDirectory_append hat rest).mp hrest)
    simp [Entry.isDirectory]
  · have hcreate : (arrivingFiles.apply (.rename "o/p/q" "w/q")).effects (.write "w/q/n/y.py" (.file ByteArray.empty)) =
        [.create ["w", "q", "n"] (.directory []), .create ["w", "q", "n", "y.py"] (.file ByteArray.empty)] := by rfl
    refine gentle_of_write ?_ ⟨_, by rfl⟩ ?_
    · rw [hcreate]
      refine ⟨fun x e heq => ?_, fun x e heq => ?_, trivial⟩
      · obtain ⟨rfl, -⟩ := Effect.create.inj heq
        decide +kernel
      · obtain ⟨rfl, -⟩ := Effect.create.inj heq
        decide +kernel
    · rw [hcreate]
      simp
  · have hdelete : ((arrivingFiles.apply (.rename "o/p/q" "w/q")).apply
        (.write "w/q/n/y.py" (.file ByteArray.empty))).effects (.remove "o") =
        [.delete ["o", "p"], .delete ["o"]] := by rfl
    refine gentle_of_remove ?_ ⟨_, by rfl⟩
    rw [hdelete]
    simp

theorem watched_and_reported_arrivingFiles :
    let origin : Scene := ⟨arrivingFiles, { ignored := ["o"] }⟩
    let s := origin.after (origin.fromStart "w" arrivals)
    let write : Change := .write "w/q/n/y.py" (.file ⟨#[10]⟩)
    arrivingFiles.Tidy ∧ Gently ["o"] "/w" ["w"] arrivingFiles (arrivals.map (·.2)) ∧
      ⟨["w", "q", "n"], "/w/q/n"⟩ ∈ s.watcher.subscriptions ∧
      "/w/q/n/y.py" ∈ s.reported (s.follow (3 * pause) write) := by
  have htidy : arrivingFiles.Tidy := ⟨by decide +kernel, by decide +kernel⟩
  have hfull : arrivingFiles.absolute? "w" = some "/w" := by decide +kernel
  have hbelow : Path.below "/w" ["q", "n"] = "/w/q/n" := by decide +kernel
  have hroot : arrivingFiles.resolve false "/w" = .ok (["w"], .directory [("a.py", .file ByteArray.empty)]) := by rfl
  have hslash : ClearOfSlashes "/w" ["o"] := fun h => absurd h (by decide +kernel)
  have hopen : Open ["o"] (Path.below "/w" ["q", "n"]) := ⟨by decide +kernel, by decide +kernel⟩
  have hfs := fs_fromStart ⟨arrivingFiles, { ignored := ["o"] }⟩ "w" arrivals
  -- The file system is computed apart from the watcher, which has no say in it.
  have hall := watched_and_reported htidy ["o"] hfull hroot hslash gently_arrivals ["q", "n"]
    (by rw [hfs]; exact ⟨_, by rfl⟩) hopen (by rw [hfs]; exact fun _ _ => rfl)
  obtain ⟨hwatched, hreports⟩ := hall
  rw [hbelow, List.singleton_append] at hwatched
  exact ⟨htidy, gently_arrivals, hwatched, (hreports (3 * pause) (.write "w/q/n/y.py" (.file ⟨#[10]⟩)) "y.py" ⟨#[10]⟩
    (by decide) (by rw [hfs]; rfl) _).mpr (by decide +kernel)⟩

/-- What a new directory holds already is not watched. -/
theorem reports_arrivingFiles :
    let origin : Scene := ⟨arrivingFiles, { ignored := [] }⟩
    let s := origin.after (origin.fromStart "w" [(0, .rename "o/p" "w/p")])
    let write : Change := .write "w/p/q/x.py" (.file ⟨#[10]⟩)
    s.watcher.stopped = false ∧ s.fs.IsDirectory ["w", "p", "q"] ∧ Open [] (Path.below "/w" ["p", "q"]) ∧
      Listable s.fs ["w"] ["p", "q"] ∧
      s.fs.effects write = [.write ["w", "p", "q", "x.py"] ⟨#[10]⟩] ∧
      s.reported (s.follow pause write) = [] := by
  have hfs := fs_fromStart ⟨arrivingFiles, { ignored := [] }⟩ "w" [(0, .rename "o/p" "w/p")]
  exact ⟨by decide +kernel, by rw [hfs]; exact ⟨_, by rfl⟩, ⟨by decide +kernel, by decide +kernel⟩,
    by rw [hfs]; exact fun _ _ => rfl, by rw [hfs]; rfl, by decide +kernel⟩

end Scene

end FunctionLength.Watch
