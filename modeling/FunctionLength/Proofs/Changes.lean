import FunctionLength.Proofs.Contents
import Mathlib.Data.String.Basic

namespace FunctionLength.FileSystem

theorem isEntryName_eq_true_iff {name : String} : isEntryName name = true ↔ EntryName name := by
  simp only [isEntryName, Bool.and_eq_true, decide_eq_true_eq, Bool.not_eq_true', List.contains_eq_mem,
    decide_eq_false_iff_not]
  constructor
  · rintro ⟨⟨⟨⟨⟨hempty, hdot⟩, hparent⟩, hslash⟩, hnull⟩, hsize⟩
    exact ⟨⟨hempty, hdot, hslash⟩, hparent, hnull, hsize⟩
  · intro h
    exact ⟨⟨⟨⟨⟨h.ne_empty, h.ne_dot⟩, h.ne_parent⟩, h.no_slash⟩, h.no_null⟩, h.size_le⟩

mutual

/-- Whether the directories in an entry list their entries in the order of proper names. -/
def Entry.isTidy : Entry → Bool
  | .directory entries => entriesTidy entries
  | _ => true

def entriesTidy : List (String × Entry) → Bool
  | [] => true
  | (name, e) :: rest => decide (EntryName name) && rest.all (name < ·.1) && e.isTidy && entriesTidy rest

end

theorem entriesTidy_cons_iff {name : String} {e : Entry} {rest : Entries} :
    entriesTidy ((name, e) :: rest) = true ↔
      EntryName name ∧ (∀ p ∈ rest, name < p.1) ∧ e.isTidy = true ∧ entriesTidy rest = true := by
  simp [entriesTidy, and_assoc]

mutual

theorem Entry.isSound_of_isTidy : ∀ {e : Entry}, e.isTidy = true → e.isSound = true
  | .directory _, h => entriesSound_of_tidy h
  | .file _, _ => rfl
  | .link _, _ => rfl
  | .special _, _ => rfl

theorem entriesSound_of_tidy : ∀ {entries : List (String × Entry)},
    entriesTidy entries = true → entriesSound entries = true
  | [], _ => rfl
  | (name, e) :: rest, h => by
    obtain ⟨hname, hless, he, hrest⟩ := entriesTidy_cons_iff.mp h
    have hfresh : ∀ p ∈ rest, p.1 ≠ name := fun p hp => (hless p hp).ne'
    have hsound := Entry.isSound_of_isTidy he
    have hsounds := entriesSound_of_tidy hrest
    simpa [entriesSound, hname, hsound, hsounds] using fun a b hab => hfresh (a, b) hab

end

section Entries

variable {entries : Entries} {name : String} {e : Entry}

theorem isTidy_of_mem (h : entriesTidy entries = true) {p : String × Entry} (hp : p ∈ entries) :
    p.2.isTidy = true := by
  induction entries with
  | nil => simp at hp
  | cons q rest ih =>
    obtain ⟨-, -, hq, hrest⟩ := entriesTidy_cons_iff.mp h
    rcases List.mem_cons.mp hp with rfl | hp
    · exact hq
    · exact ih hrest hp

theorem mem_of_mem_insert {p : String × Entry} (h : p ∈ entries.insert name e) : p = (name, e) ∨ p ∈ entries := by
  induction entries with
  | nil => simpa [Entries.insert] using h
  | cons q rest ih =>
    obtain ⟨n, old⟩ := q
    rw [Entries.insert] at h
    split at h
    · exact List.mem_cons.mp h
    split at h
    · rename_i hn
      rcases List.mem_cons.mp h with rfl | h
      · exact .inl (by rw [hn])
      · exact .inr (by simp [h])
    · rcases List.mem_cons.mp h with rfl | h
      · exact .inr (by simp)
      · exact (ih h).imp_right (List.mem_cons_of_mem _)

theorem entriesTidy_insert (hname : EntryName name) (he : e.isTidy = true) (h : entriesTidy entries = true) :
    entriesTidy (entries.insert name e) = true := by
  induction entries with
  | nil => exact entriesTidy_cons_iff.mpr ⟨hname, by simp, he, rfl⟩
  | cons q rest ih =>
    obtain ⟨n, old⟩ := q
    obtain ⟨hn, hless, hold, hrest⟩ := entriesTidy_cons_iff.mp h
    rw [Entries.insert]
    split
    · rename_i hlt
      refine entriesTidy_cons_iff.mpr ⟨hname, fun p hp => ?_, he, h⟩
      rcases List.mem_cons.mp hp with rfl | hp
      · exact hlt
      · exact hlt.trans (hless p hp)
    split
    · exact entriesTidy_cons_iff.mpr ⟨hn, hless, he, hrest⟩
    · rename_i hnot hne
      have hgt : n < name := lt_of_le_of_ne (not_lt.mp hnot) (Ne.symm hne)
      refine entriesTidy_cons_iff.mpr ⟨hn, fun p hp => ?_, hold, ih hrest⟩
      rcases mem_of_mem_insert hp with rfl | hp
      · exact hgt
      · exact hless p hp

theorem entriesTidy_erase (name : String) (h : entriesTidy entries = true) :
    entriesTidy (entries.erase name) = true := by
  induction entries with
  | nil => rfl
  | cons q rest ih =>
    obtain ⟨hn, hless, he, hrest⟩ := entriesTidy_cons_iff.mp h
    rw [Entries.erase, List.filter_cons]
    split
    · exact entriesTidy_cons_iff.mpr ⟨hn, fun p hp => hless p (List.mem_of_mem_filter hp), he, ih hrest⟩
    · exact ih hrest

theorem entriesTidy_modifyAt {f : Entries → Entries}
    (hf : ∀ entries, entriesTidy entries = true → entriesTidy (f entries) = true) (l : Location)
    (h : entriesTidy entries = true) : entriesTidy (entries.modifyAt f l) = true := by
  induction l generalizing entries with
  | nil => exact hf entries h
  | cons first rest ih =>
    rw [Entries.modifyAt]
    split
    · rename_i inner hinner
      have hsound := entriesSound_of_tidy h
      have hmem := (lookup_eq_some_iff hsound).mp hinner
      exact entriesTidy_insert (entryName_of_mem hsound hmem).1 (ih (isTidy_of_mem h hmem)) h
    · exact h

theorem Entry.isTidy_of_below? {e c : Entry} {way : Location} (h : e.isTidy = true)
    (hc : e.below? way = some c) : c.isTidy = true := by
  induction way generalizing e with
  | nil =>
    rw [below?_nil] at hc
    cases hc
    exact h
  | cons name rest ih =>
    obtain ⟨entries, rfl⟩ := exists_directory (isDirectory_of_below? hc)
    rw [below?, at?_cons] at hc
    obtain ⟨d, hd, hrest⟩ := Option.bind_eq_some_iff.mp hc
    exact ih (isTidy_of_mem h ((lookup_eq_some_iff (entriesSound_of_tidy h)).mp hd)) hrest

end Entries

def Effect.Proper : Effect → Prop
  | .create l e => (∀ n ∈ l, EntryName n) ∧ e.isTidy = true
  | .write l _ | .delete l | .setAttributes l => ∀ n ∈ l, EntryName n
  | .move source target => (∀ n ∈ source, EntryName n) ∧ ∀ n ∈ target, EntryName n

section Effects

variable {fs : FileSystem} {l : Location} {e : Entry}

theorem entriesTidy_put (hl : ∀ n ∈ l, EntryName n) (he : e.isTidy = true) (h : entriesTidy fs.root = true) :
    entriesTidy (fs.put l e).root = true := by
  rw [put]
  split
  · rename_i name hname
    have hlast := hl name (List.mem_of_mem_getLast? hname)
    exact entriesTidy_modifyAt (fun _ => entriesTidy_insert hlast he) _ h
  · exact h

theorem entriesTidy_take (l : Location) (h : entriesTidy fs.root = true) :
    entriesTidy (fs.take l).root = true := by
  rw [take]
  split
  · exact entriesTidy_modifyAt (fun _ => entriesTidy_erase _) _ h
  · exact h

theorem entriesTidy_perform {effect : Effect} (heffect : effect.Proper) (h : entriesTidy fs.root = true) :
    entriesTidy (fs.perform effect).root = true := by
  cases effect with
  | create l e => exact entriesTidy_put heffect.1 heffect.2 h
  | write l content => exact entriesTidy_put heffect rfl h
  | delete l => exact entriesTidy_take l h
  | move source target =>
    rw [perform]
    split
    · rename_i e he
      exact entriesTidy_put heffect.2 (Entry.isTidy_of_below? (e := .directory fs.root) h he) (entriesTidy_take _ h)
    · exact h
  | setAttributes l => exact h

theorem entriesTidy_foldl_perform {effects : List Effect} (heffects : ∀ effect ∈ effects, effect.Proper)
    (h : entriesTidy fs.root = true) : entriesTidy (effects.foldl perform fs).root = true := by
  induction effects generalizing fs with
  | nil => exact h
  | cons effect rest ih =>
    exact ih (fun x hx => heffects x (by simp [hx])) (entriesTidy_perform (heffects effect (by simp)) h)

variable (h : entriesTidy fs.root = true)
include h

theorem entryName_of_resolve {follow : Bool} {path : String} (hpath : fs.resolve follow path = .ok (l, e)) :
    ∀ n ∈ l, EntryName n := by
  have hat : fs.at? l = some e := at?_of_resolveFrom (resolve_eq_ok_iff.mp hpath).2
  exact (Entry.below?_sound (e := .directory fs.root) (entriesSound_of_tidy h) hat).2

theorem entryName_of_slotIn? {directory name : String} (hl : fs.slotIn? directory name = some l) :
    ∀ n ∈ l, EntryName n := by
  rw [slotIn?] at hl
  split at hl
  · rename_i above entries habove
    split at hl
    · rename_i hname
      obtain rfl := Option.some.inj hl
      intro n hn
      rcases List.mem_append.mp hn with hn | hn
      · exact entryName_of_resolve h habove n hn
      · rw [List.mem_singleton.mp hn]
        exact isEntryName_eq_true_iff.mp hname
    · cases hl
  · cases hl

theorem entryName_of_writeSlot? {links : Nat} {path : String} (hl : fs.writeSlot? links path = some l) :
    ∀ n ∈ l, EntryName n := by
  induction links generalizing path with
  | zero => cases hl
  | succ links ih =>
    rw [writeSlot?] at hl
    split at hl
    · exact ih hl
    · rename_i hpath
      obtain rfl := Option.some.inj hl
      exact entryName_of_resolve h hpath
    · exact entryName_of_slotIn? h hl

theorem proper_of_mem_directoryEffects {absolute : Bool} {above names : List String} {effect : Effect}
    (heffect : effect ∈ directoryEffects absolute above names fs) : effect.Proper := by
  induction names generalizing above fs with
  | nil => simp [directoryEffects] at heffect
  | cons name rest ih =>
    rw [directoryEffects] at heffect
    split at heffect
    · exact ih h heffect
    · split at heffect
      · rename_i l hl
        have hfirst : (Effect.create l (.directory [])).Proper := ⟨entryName_of_slotIn? h hl, rfl⟩
        rcases List.mem_cons.mp heffect with rfl | heffect
        · exact hfirst
        · exact ih (entriesTidy_perform hfirst h) heffect
      · simp at heffect

theorem proper_of_mem_writeEffects {path : String} {effect : Effect}
    (heffect : effect ∈ fs.writeEffects path e) : effect.Proper := by
  unfold writeEffects at heffect
  split at heffect
  · simp at heffect
  · rename_i content
    split at heffect
    · rename_i hpath
      obtain rfl := List.mem_singleton.mp heffect
      exact entryName_of_resolve h hpath
    · simp at heffect
    · obtain ⟨l, hl, rfl⟩ : ∃ l, fs.writeSlot? linkLimit path = some l ∧ .create l (.file content) = effect := by
        simpa using heffect
      exact ⟨entryName_of_writeSlot? h hl, rfl⟩
  · rename_i hdirectory _
    have he : e.isTidy = true := by
      cases e with
      | directory entries => exact absurd rfl (hdirectory entries)
      | file content => rfl
      | link target => rfl
      | special reading => rfl
    split at heffect
    · rename_i hl
      obtain rfl := List.mem_singleton.mp heffect
      exact ⟨entryName_of_slotIn? h hl, he⟩
    · simp at heffect

omit h in
mutual

theorem proper_of_mem_removeEffects : ∀ {l : Location} {e : Entry} {effect : Effect},
    (∀ n ∈ l, EntryName n) → e.isSound = true → effect ∈ removeEffects l e → effect.Proper
  | l, .directory entries, effect, hl, he, heffect => by
    rw [removeEffects, List.mem_append, List.mem_singleton] at heffect
    rcases heffect with heffect | rfl
    · exact proper_of_mem_removeAllEffects hl he heffect
    · exact hl
  | l, .file _, effect, hl, _, heffect
  | l, .link _, effect, hl, _, heffect
  | l, .special _, effect, hl, _, heffect => List.mem_singleton.mp heffect ▸ hl

theorem proper_of_mem_removeAllEffects : ∀ {above : Location} {entries : List (String × Entry)} {effect : Effect},
    (∀ n ∈ above, EntryName n) → entriesSound entries = true → effect ∈ removeAllEffects above entries →
      effect.Proper
  | _, [], _, _, _, heffect => by simp [removeAllEffects] at heffect
  | above, (name, e) :: rest, effect, habove, hsound, heffect => by
    obtain ⟨hname, -, he, hrest⟩ := entriesSound_cons hsound
    rw [removeAllEffects, List.mem_append] at heffect
    rcases heffect with heffect | heffect
    · refine proper_of_mem_removeEffects (fun n hn => ?_) he heffect
      rcases List.mem_append.mp hn with hn | hn
      · exact habove n hn
      · exact List.mem_singleton.mp hn ▸ hname
    · exact proper_of_mem_removeAllEffects habove hrest heffect

end

theorem proper_of_mem_effects {c : Change} {effect : Effect} (heffect : effect ∈ fs.effects c) :
    effect.Proper := by
  cases c with
  | write path e =>
    simp only [effects] at heffect
    have hparents : ∀ x ∈ fs.makeDirectories (directoryFor path e), x.Proper :=
      fun x hx => proper_of_mem_directoryEffects h hx
    rcases List.mem_append.mp heffect with heffect | heffect
    · exact hparents effect heffect
    · exact proper_of_mem_writeEffects (entriesTidy_foldl_perform hparents h) heffect
  | remove path =>
    simp only [effects] at heffect
    split at heffect
    · rename_i l e hpath
      have hat : fs.at? l = some e := at?_of_resolveFrom (resolve_eq_ok_iff.mp hpath).2
      have he := Entry.below?_sound (e := .directory fs.root) (entriesSound_of_tidy h) hat
      exact proper_of_mem_removeEffects he.2 he.1 heffect
    · simp at heffect
  | rename path target =>
    simp only [effects] at heffect
    split at heffect
    · rename_i hpath htarget
      split at heffect
      · obtain rfl := List.mem_singleton.mp heffect
        exact ⟨entryName_of_resolve h hpath, entryName_of_slotIn? h htarget⟩
      · simp at heffect
    · simp at heffect
  | setAttributes path =>
    simp only [effects] at heffect
    split at heffect
    · rename_i hpath
      obtain rfl := List.mem_singleton.mp heffect
      exact entryName_of_resolve h hpath
    · simp at heffect

theorem entriesTidy_apply (c : Change) : entriesTidy (fs.apply c).root = true :=
  entriesTidy_foldl_perform (fun _ => proper_of_mem_effects h) h

end Effects

theorem workingPath_put (fs : FileSystem) (l : Location) (e : Entry) :
    (fs.put l e).workingPath = fs.workingPath := by
  unfold put
  cases l.getLast? <;> rfl

theorem workingPath_take (fs : FileSystem) (l : Location) : (fs.take l).workingPath = fs.workingPath := by
  unfold take
  cases l.getLast? <;> rfl

theorem workingPath_perform (fs : FileSystem) (effect : Effect) :
    (fs.perform effect).workingPath = fs.workingPath := by
  cases effect with
  | create l e => exact workingPath_put fs l e
  | write l content => exact workingPath_put fs l _
  | delete l => exact workingPath_take fs l
  | move source target =>
    rw [perform]
    cases fs.at? source with
    | none => rfl
    | some e => exact (workingPath_put _ target e).trans (workingPath_take fs source)
  | setAttributes l => rfl

theorem workingPath_apply (fs : FileSystem) (c : Change) : (fs.apply c).workingPath = fs.workingPath := by
  have hfold : ∀ (effects : List Effect) (fs : FileSystem),
      (effects.foldl perform fs).workingPath = fs.workingPath := by
    intro effects
    induction effects with
    | nil => exact fun fs => rfl
    | cons e effects ih => exact fun fs => (ih (fs.perform e)).trans (workingPath_perform fs e)
  exact hfold _ fs

theorem home_apply (fs : FileSystem) (c : Change) : (fs.apply c).home = fs.home := by
  rw [home, workingPath_apply, home]

theorem locked_put (fs : FileSystem) (l : Location) (e : Entry) : (fs.put l e).locked = fs.locked := by
  unfold put
  cases l.getLast? <;> rfl

/-- A file system in good order. The working directory can be gone. -/
structure Tidy (fs : FileSystem) : Prop where
  entries : entriesTidy fs.root = true
  isAbsolute : Path.isAbsolute fs.home = true

theorem Tidy.isAbsolute_absolute {fs : FileSystem} (h : fs.Tidy) (path : String) :
    Path.isAbsolute (fs.absolute path) = true :=
  Path.isAbsolute_absolute h.isAbsolute path

theorem Tidy.clean_absolute {fs : FileSystem} (h : fs.Tidy) (path : String) :
    Path.clean (fs.absolute path) = fs.absolute path :=
  Path.clean_absolute h.isAbsolute path

theorem Tidy.apply {fs : FileSystem} (h : fs.Tidy) (c : Change) : (fs.apply c).Tidy where
  entries := entriesTidy_apply h.entries c
  isAbsolute := by
    rw [home_apply]
    exact h.isAbsolute

theorem Tidy.isSound_of_resolve {fs : FileSystem} (h : fs.Tidy) {follow : Bool} {path : String} {l : Location}
    {e : Entry} (hpath : fs.resolve follow path = .ok (l, e)) : e.isSound = true :=
  (Entry.below?_sound (e := .directory fs.root) (entriesSound_of_tidy h.entries)
    (at?_of_resolveFrom (resolve_eq_ok_iff.mp hpath).2)).1

end FunctionLength.FileSystem
