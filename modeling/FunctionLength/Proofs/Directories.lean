import FunctionLength.Proofs.Changes
import FunctionLength.Proofs.Walks

namespace FunctionLength.FileSystem

def Entry.HasDirectory (e : Entry) (way : Location) : Prop := ∃ inner, e.below? way = some (.directory inner)

def IsDirectory (fs : FileSystem) (l : Location) : Prop := ∃ entries, fs.at? l = some (.directory entries)

theorem isDirectory_iff {fs : FileSystem} {l : Location} :
    fs.IsDirectory l ↔ (Entry.directory fs.root).HasDirectory l := Iff.rfl

instance (fs : FileSystem) (l : Location) : Decidable (fs.IsDirectory l) :=
  match h : fs.at? l with
  | some (.directory entries) => isTrue ⟨entries, h⟩
  | some (.file _) | some (.link _) | some (.special _) | none => isFalse (by simp [IsDirectory, h])

theorem Entry.hasDirectory_nil {e : Entry} : e.HasDirectory [] ↔ e.isDirectory = true := by
  rw [HasDirectory, below?_nil]
  cases e <;> simp [isDirectory]

theorem Entry.HasDirectory.isDirectory {e : Entry} {way : Location} (h : e.HasDirectory way) :
    e.isDirectory = true := by
  cases way with
  | nil => exact hasDirectory_nil.mp h
  | cons name rest =>
    obtain ⟨inner, hinner⟩ := h
    exact isDirectory_of_below? hinner

theorem Entry.hasDirectory_of_leaves {entries : Entries} {way : Location}
    (h : ∀ p ∈ entries, p.2.isDirectory = false) : (Entry.directory entries).HasDirectory way ↔ way = [] := by
  cases way with
  | nil => simp [hasDirectory_nil, isDirectory]
  | cons name rest =>
    refine iff_of_false ?_ (by simp)
    rintro ⟨inner, hinner⟩
    rw [below?, at?_cons] at hinner
    obtain ⟨c, hc, hbelow⟩ := Option.bind_eq_some_iff.mp hinner
    obtain ⟨front, back, rfl, -⟩ := List.lookup_eq_some_iff.mp hc
    have hdirectory := HasDirectory.isDirectory ⟨inner, hbelow⟩
    rw [h (name, c) (by simp)] at hdirectory
    contradiction

theorem Entry.hasDirectory_append {e c : Entry} {front : Location} (h : e.below? front = some c)
    (back : Location) : e.HasDirectory (front ++ back) ↔ c.HasDirectory back := by
  rw [HasDirectory, below?_append, h]
  rfl

section Frames

variable {fs : FileSystem} {entries inner : Entries} {above l : Location} {name : String} {e : Entry}

theorem IsDirectory.of_isPrefix {l' : Location} (h : fs.IsDirectory l') (hpre : l <+: l') : fs.IsDirectory l := by
  obtain ⟨rest, rfl⟩ := hpre
  obtain ⟨entries, hl⟩ := h
  exact exists_directory_of_append hl

theorem isDirectory_nil (fs : FileSystem) : fs.IsDirectory [] := ⟨fs.root, rfl⟩

theorem isDirectory_of_at? (h : fs.at? (above ++ [name]) = some e) : fs.IsDirectory above := by
  obtain ⟨d, hd, hname⟩ := Option.bind_eq_some_iff.mp ((at?_append fs above [name]).symm.trans h)
  obtain ⟨inner, rfl⟩ := Entry.exists_directory (Entry.isDirectory_of_below? hname)
  exact ⟨inner, hd⟩

theorem exists_lookup {first : String} (h : Entries.at? entries (first :: above) = some (.directory inner)) :
    ∃ mid, entries.lookup first = some (.directory mid) ∧ Entries.at? mid above = some (.directory inner) := by
  rw [Entry.at?_cons] at h
  obtain ⟨d, hd, hbelow⟩ := Option.bind_eq_some_iff.mp h
  obtain ⟨mid, rfl⟩ := Entry.exists_directory (Entry.HasDirectory.isDirectory ⟨inner, hbelow⟩)
  exact ⟨mid, hd, hbelow⟩

theorem at?_modifyAt_append (f : Entries → Entries) (h : Entries.at? entries above = some (.directory inner))
    (rest : Location) : Entries.at? (entries.modifyAt f above) (above ++ rest) = Entries.at? (f inner) rest := by
  induction above generalizing entries with
  | nil =>
    obtain rfl : entries = inner := by simpa [Entries.at?] using h
    rfl
  | cons first above ih =>
    obtain ⟨mid, hmid, hinner⟩ := exists_lookup h
    rw [Entries.modifyAt, hmid]
    simp only [List.cons_append]
    rw [at?_insert, if_pos rfl]
    exact ih hinner

theorem at?_modifyAt_of_apart (f : Entries → Entries) (h : Entries.at? entries above = some (.directory inner))
    (hbelow : ¬ above <+: l) (habove : ¬ l <+: above) :
    Entries.at? (entries.modifyAt f above) l = Entries.at? entries l := by
  induction above generalizing entries l with
  | nil => exact absurd List.nil_prefix hbelow
  | cons first above ih =>
    obtain ⟨mid, hmid, hinner⟩ := exists_lookup h
    cases l with
    | nil => exact absurd List.nil_prefix habove
    | cons n rest =>
      rw [Entries.modifyAt, hmid]
      simp only
      rw [at?_insert]
      split
      · rename_i hn
        subst hn
        rw [Entry.at?_cons, hmid]
        exact ih hinner (fun hpre => hbelow (by simpa using hpre)) fun hpre => habove (by simpa using hpre)
      · rfl

theorem hasDirectory_modifyAt (f : Entries → Entries) (h : Entries.at? entries above = some (.directory inner))
    (hbelow : ¬ above <+: l) :
    (Entry.directory (entries.modifyAt f above)).HasDirectory l ↔ (Entry.directory entries).HasDirectory l := by
  by_cases habove : l <+: above
  · -- On the way to the change there are directories before and after.
    obtain ⟨rest, rfl⟩ := habove
    have hbefore : Entries.at? entries (l ++ rest) = some (.directory inner) := h
    have hafter : Entries.at? (entries.modifyAt f (l ++ rest)) (l ++ rest) = some (.directory (f inner)) := by
      simpa [Entries.at?] using at?_modifyAt_append f h []
    have hup : ∀ {whole deep : Entries}, Entries.at? whole (l ++ rest) = some (.directory deep) →
        (Entry.directory whole).HasDirectory l := by
      intro whole deep hdeep
      have hwhole : ({ root := whole, workingDirectory := "" } : FileSystem).at? (l ++ rest) = some (.directory deep) := hdeep
      exact exists_directory_of_append hwhole
    exact iff_of_true (hup hafter) (hup hbefore)
  · simp only [Entry.HasDirectory, Entry.below?, at?_modifyAt_of_apart f h hbelow habove]

def Entries.Local (name : String) (f : Entries → Entries) : Prop :=
  ∀ entries n rest, n ≠ name → Entries.at? (f entries) (n :: rest) = Entries.at? entries (n :: rest)

theorem local_insert (name : String) (e : Entry) : Entries.Local name (Entries.insert name e) :=
  fun entries n rest hn => by rw [at?_insert, if_neg hn]

theorem lookup_erase (name n : String) (entries : Entries) :
    (entries.erase name).lookup n = if n = name then none else entries.lookup n := by
  induction entries with
  | nil => simp [Entries.erase]
  | cons p rest ih =>
    obtain ⟨m, e⟩ := p
    rw [Entries.erase] at ih ⊢
    by_cases hm : m = name
    · subst hm
      rw [List.filter_cons_of_neg (by simp), ih, lookup_cons_eq]
      split <;> rfl
    · rw [List.filter_cons_of_pos (by simpa using hm), lookup_cons_eq, lookup_cons_eq, ih]
      by_cases hn : n = m
      · simp [hn, hm]
      · simp [hn]

theorem local_erase (name : String) : Entries.Local name (Entries.erase name) :=
  fun entries n rest hn => by rw [Entry.at?_cons, lookup_erase, if_neg hn, Entry.at?_cons]

section Local

variable {f : Entries → Entries} (hf : Entries.Local name f) (h : Entries.at? entries above = some (.directory inner))
include hf h

theorem at?_modifyAt_of_local (hl : ¬ above ++ [name] <+: l) (habove : ¬ l <+: above) :
    Entries.at? (entries.modifyAt f above) l = Entries.at? entries l := by
  by_cases hbelow : above <+: l
  · obtain ⟨rest, rfl⟩ := hbelow
    cases rest with
    | nil => exact absurd (by simp) habove
    | cons n rest =>
      have hn : n ≠ name := by
        rintro rfl
        exact hl ⟨rest, by simp⟩
      have hbefore : Entries.at? entries (above ++ n :: rest) = Entries.at? inner (n :: rest) := by
        have hsplit := Entry.below?_append (.directory entries) above (n :: rest)
        rw [Entry.below?, Entry.below?, h] at hsplit
        exact hsplit
      rw [at?_modifyAt_append f h, hf inner n rest hn, hbefore]
  · exact at?_modifyAt_of_apart f h hbelow habove

theorem hasDirectory_modifyAt_of_local (hl : ¬ above ++ [name] <+: l) :
    (Entry.directory (entries.modifyAt f above)).HasDirectory l ↔ (Entry.directory entries).HasDirectory l := by
  by_cases habove : l <+: above
  · by_cases hbelow : above <+: l
    · obtain rfl := hbelow.eq_of_length_le habove.length_le
      have hafter := at?_modifyAt_append f h []
      rw [List.append_nil] at hafter
      exact iff_of_true ⟨f inner, hafter.trans rfl⟩ ⟨inner, h⟩
    · exact hasDirectory_modifyAt f h hbelow
  · simp only [Entry.HasDirectory, Entry.below?, at?_modifyAt_of_local hf h hl habove]

end Local

section Put

variable (h : fs.IsDirectory above)
include h

theorem at?_put_append (rest : Location) :
    (fs.put (above ++ [name]) e).at? (above ++ name :: rest) = e.below? rest := by
  obtain ⟨inner, hinner⟩ := h
  rw [put, List.getLast?_concat, List.dropLast_concat]
  exact (at?_modifyAt_append _ hinner (name :: rest)).trans (by rw [at?_insert, if_pos rfl])

theorem isDirectory_put_append (rest : Location) :
    (fs.put (above ++ [name]) e).IsDirectory (above ++ name :: rest) ↔ e.HasDirectory rest := by
  rw [IsDirectory, at?_put_append h, Entry.HasDirectory]

theorem isDirectory_put (hl : ¬ above ++ [name] <+: l) :
    (fs.put (above ++ [name]) e).IsDirectory l ↔ fs.IsDirectory l := by
  obtain ⟨inner, hinner⟩ := h
  rw [put, List.getLast?_concat, List.dropLast_concat]
  exact hasDirectory_modifyAt_of_local (local_insert name e) hinner hl

theorem isDirectory_put_leaf (he : e.isDirectory = false) (hfresh : ¬ fs.IsDirectory (above ++ [name])) :
    (fs.put (above ++ [name]) e).IsDirectory l ↔ fs.IsDirectory l := by
  by_cases hpre : above ++ [name] <+: l
  · refine iff_of_false (fun hl => ?_) fun hl => hfresh (hl.of_isPrefix hpre)
    obtain ⟨rest, rfl⟩ := hpre
    rw [List.append_assoc, List.singleton_append, isDirectory_put_append h] at hl
    simp [hl.isDirectory] at he
  · exact isDirectory_put h hpre

theorem isDirectory_put_empty (hfresh : ¬ fs.IsDirectory (above ++ [name])) :
    (fs.put (above ++ [name]) (.directory [])).IsDirectory l ↔ fs.IsDirectory l ∨ l = above ++ [name] := by
  by_cases hpre : above ++ [name] <+: l
  · rw [or_iff_right fun hl => hfresh (hl.of_isPrefix hpre)]
    obtain ⟨rest, rfl⟩ := hpre
    rw [List.append_assoc, List.singleton_append, isDirectory_put_append h,
      Entry.hasDirectory_of_leaves (by simp)]
    simp
  · rw [isDirectory_put h hpre, or_iff_left]
    rintro rfl
    exact hpre (List.prefix_refl _)

end Put

theorem hasDirectory_modifyAt_of_missing (f : Entries → Entries)
    (h : ¬ (Entry.directory entries).HasDirectory above) :
    (Entry.directory (entries.modifyAt f above)).HasDirectory l ↔ (Entry.directory entries).HasDirectory l := by
  induction above generalizing entries l with
  | nil => exact absurd ⟨entries, rfl⟩ h
  | cons first above ih =>
    rw [Entries.modifyAt]
    split
    · rename_i mid hmid
      have hbelow : ∀ rest, (Entry.directory entries).HasDirectory (first :: rest) ↔
          (Entry.directory mid).HasDirectory rest := fun rest =>
        Entry.hasDirectory_append ((Entry.below?_directory_singleton entries first).trans hmid) rest
      cases l with
      | nil => simp [Entry.hasDirectory_nil, Entry.isDirectory]
      | cons n rest =>
        by_cases hn : n = first
        · subst hn
          rw [hbelow rest, ← ih fun hmiss => h ((hbelow above).mpr hmiss)]
          simp only [Entry.HasDirectory, Entry.below?, at?_insert, if_pos]
        · simp only [Entry.HasDirectory, Entry.below?, at?_insert, if_neg hn]
    · rfl

theorem isDirectory_take {x : Location} (hx : x ≠ []) :
    (fs.take x).IsDirectory l ↔ fs.IsDirectory l ∧ ¬ x <+: l := by
  cases x using List.reverseRecOn with
  | nil => contradiction
  | append_singleton above name _ =>
    rw [take, List.getLast?_concat, List.dropLast_concat, isDirectory_iff, isDirectory_iff]
    by_cases habove : fs.IsDirectory above
    · obtain ⟨inner, hinner⟩ := habove
      by_cases hpre : above ++ [name] <+: l
      · refine iff_of_false ?_ fun hl => hl.2 hpre
        obtain ⟨rest, rfl⟩ := hpre
        have hnone := at?_modifyAt_append (Entries.erase name) hinner (name :: rest)
        rw [Entry.at?_cons, lookup_erase, if_pos rfl] at hnone
        rintro ⟨entries, hentries⟩
        simp [Entry.below?, hnone] at hentries
      · rw [hasDirectory_modifyAt_of_local (local_erase name) hinner hpre]
        simp [hpre]
    · rw [hasDirectory_modifyAt_of_missing _ habove]
      have hparent (hl : fs.IsDirectory l) (hpre : above ++ [name] <+: l) : fs.IsDirectory above :=
        hl.of_isPrefix ((List.prefix_append _ _).trans hpre)
      exact ⟨fun hl => ⟨hl, fun hpre => habove (hparent hl hpre)⟩, fun hl => hl.1⟩

end Frames

/-- Whether nothing is made in the place of a directory. -/
def Fresh : FileSystem → List Effect → Prop
  | _, [] => True
  | fs, effect :: rest => (∀ l e, effect = .create l e → ¬ fs.IsDirectory l) ∧ Fresh (fs.perform effect) rest

theorem fresh_append {fs : FileSystem} {front back : List Effect} :
    Fresh fs (front ++ back) ↔ Fresh fs front ∧ Fresh (front.foldl perform fs) back := by
  induction front generalizing fs with
  | nil => simp [Fresh]
  | cons effect front ih => simp [Fresh, ih, and_assoc]

section Growth

variable {fs : FileSystem} {l : Location}

theorem exists_parent_of_slotIn? {directory name : String} (h : fs.slotIn? directory name = some l) :
    ∃ above last, l = above ++ [last] ∧ fs.IsDirectory above := by
  rw [slotIn?] at h
  split at h
  · rename_i above entries habove
    split at h
    · exact ⟨above, name, (Option.some.inj h).symm, entries, at?_of_resolveFrom (resolve_eq_ok_iff.mp habove).2⟩
    · cases h
  · cases h

theorem exists_parent_of_at? {e : Entry} (h : fs.at? l = some e) (hl : l ≠ []) :
    ∃ above last, l = above ++ [last] ∧ fs.IsDirectory above := by
  cases l using List.reverseRecOn with
  | nil => contradiction
  | append_singleton above last _ => exact ⟨above, last, rfl, isDirectory_of_at? h⟩

theorem exists_parent_of_writeSlot? {links : Nat} {path : String} (h : fs.writeSlot? links path = some l)
    (hl : l ≠ []) : ∃ above last, l = above ++ [last] ∧ fs.IsDirectory above := by
  induction links generalizing path with
  | zero => cases h
  | succ links ih =>
    rw [writeSlot?] at h
    split at h
    · exact ih h
    · rename_i hpath
      obtain rfl := Option.some.inj h
      exact exists_parent_of_at? (at?_of_resolveFrom (resolve_eq_ok_iff.mp hpath).2) hl
    · exact exists_parent_of_slotIn? h

theorem exists_made {absolute : Bool} {above names : List String}
    (h : Fresh fs (directoryEffects absolute above names fs)) : ∃ made : List Location,
      directoryEffects absolute above names fs = made.map (fun l => .create l (.directory [])) ∧
      (∀ l, ((directoryEffects absolute above names fs).foldl perform fs).IsDirectory l ↔
        fs.IsDirectory l ∨ l ∈ made) ∧
      ∀ l ∈ made.head?, ¬ fs.IsDirectory l ∧ ∃ front last, l = front ++ [last] ∧ fs.IsDirectory front := by
  induction names generalizing fs above with
  | nil => exact ⟨[], rfl, by simp [directoryEffects], by simp⟩
  | cons name rest ih =>
    generalize heffects : directoryEffects absolute above (name :: rest) fs = effects at h ⊢
    rw [directoryEffects] at heffects
    split at heffects
    · subst heffects
      exact ih h
    split at heffects
    · rename_i l hl
      subst heffects
      obtain ⟨front, last, rfl, hfront⟩ := exists_parent_of_slotIn? hl
      obtain ⟨hfirst, hlater⟩ := h
      obtain ⟨made, heffects, hmade, -⟩ := ih hlater
      refine ⟨(front ++ [last]) :: made, congrArg (List.cons _) heffects, fun l => (hmade l).trans ?_, fun l hl => ?_⟩
      · rw [perform, isDirectory_put_empty hfront (hfirst _ _ rfl), List.mem_cons, or_assoc]
      · obtain rfl := Option.some.inj hl
        exact ⟨hfirst _ _ rfl, front, last, rfl, hfront⟩
    · subst heffects
      exact ⟨[], rfl, by simp, by simp⟩

inductive Effect.Leafy : Effect → Prop
  | write (l : Location) (content : ByteArray) : Leafy (.write l content)
  | create (l : Location) (e : Entry) (h : e.isDirectory = false) : Leafy (.create l e)

theorem leafy_writeEffects {path : String} {e : Entry} (h : Fresh fs (fs.writeEffects path e)) :
    (∀ effect ∈ fs.writeEffects path e, effect.Leafy) ∧
      ∀ l, ((fs.writeEffects path e).foldl perform fs).IsDirectory l ↔ fs.IsDirectory l := by
  have hcreate : ∀ {x : Location} {c : Entry}, c.isDirectory = false → Fresh fs [.create x c] →
      (x ≠ [] → ∃ above last, x = above ++ [last] ∧ fs.IsDirectory above) →
      (∀ effect ∈ [Effect.create x c], effect.Leafy) ∧
        ∀ l, ([Effect.create x c].foldl perform fs).IsDirectory l ↔ fs.IsDirectory l := by
    intro x c hc hfresh hparent
    have hx : ¬ fs.IsDirectory x := hfresh.1 x c rfl
    obtain ⟨above, last, rfl, habove⟩ := hparent fun hnil => hx (hnil ▸ isDirectory_nil fs)
    exact ⟨by simpa using .create _ c hc, fun l => isDirectory_put_leaf habove hc hx⟩
  generalize heffects : fs.writeEffects path e = effects at h ⊢
  unfold writeEffects at heffects
  split at heffects
  · subst heffects
    simp
  · rename_i content
    split at heffects
    · rename_i x old hpath
      subst heffects
      have hold : fs.at? x = some (.file old) := at?_of_resolveFrom (resolve_eq_ok_iff.mp hpath).2
      have hx : ¬ fs.IsDirectory x := fun ⟨entries, hentries⟩ => by simp [hold] at hentries
      obtain ⟨above, last, rfl, habove⟩ := exists_parent_of_at? hold fun hnil => hx (hnil ▸ isDirectory_nil fs)
      exact ⟨by simpa using .write _ content, fun l => isDirectory_put_leaf habove rfl hx⟩
    · subst heffects
      simp
    · cases hslot : fs.writeSlot? linkLimit path with
      | none =>
        rw [hslot] at heffects
        subst heffects
        simp
      | some x =>
        rw [hslot] at heffects
        subst heffects
        exact hcreate rfl h (exists_parent_of_writeSlot? hslot)
  · rename_i hdirectory _
    have he : e.isDirectory = false := by
      cases e with
      | directory entries => exact absurd rfl (hdirectory entries)
      | file content => rfl
      | link target => rfl
      | special reading => rfl
    split at heffects
    · rename_i x hslot
      subst heffects
      exact hcreate he h fun _ => exists_parent_of_slotIn? hslot
    · subst heffects
      simp

/-- A change that makes directories and does nothing else about directories. -/
structure Growth (fs : FileSystem) (c : Change) (made : List Location) (rest : List Effect) : Prop where
  effects_eq : fs.effects c = made.map (fun l => .create l (.directory [])) ++ rest
  leafy : ∀ effect ∈ rest, effect.Leafy
  isDirectory_apply : ∀ l, (fs.apply c).IsDirectory l ↔ fs.IsDirectory l ∨ l ∈ made
  first : ∀ l ∈ made.head?, ¬ fs.IsDirectory l ∧ ∃ above last, l = above ++ [last] ∧ fs.IsDirectory above

theorem exists_growth {path : String} {e : Entry} (h : Fresh fs (fs.effects (.write path e))) :
    ∃ made rest, Growth fs (.write path e) made rest := by
  obtain ⟨hparents, hlast⟩ := fresh_append.mp h
  obtain ⟨made, heffects, hmade, hparent⟩ := exists_made hparents
  obtain ⟨hleafy, hsame⟩ := leafy_writeEffects hlast
  refine ⟨made, _, congrArg (· ++ _) heffects, hleafy, fun l => ?_, hparent⟩
  rw [apply, effects, List.foldl_append]
  exact (hsame l).trans (hmade l)

end Growth

section Removal

variable {fs : FileSystem} {l : Location}

theorem removeAllEffects_eq_flatMap (above : Location) (entries : Entries) :
    removeAllEffects above entries = entries.flatMap fun p => removeEffects (above ++ [p.1]) p.2 := by
  induction entries with
  | nil => rfl
  | cons p rest ih => rw [removeAllEffects, ih, List.flatMap_cons]

theorem exists_delete_of_mem {effect : Effect} {e : Entry} (h : effect ∈ removeEffects l e) :
    ∃ x, effect = .delete x ∧ l <+: x := by
  cases e with
  | directory entries =>
    induction entries using Entries.induction generalizing l with
    | step entries ih =>
      rw [removeEffects, List.mem_append, List.mem_singleton, removeAllEffects_eq_flatMap, List.mem_flatMap] at h
      rcases h with ⟨⟨name, d⟩, hp, hd⟩ | rfl
      · have hstep : ∃ x, effect = .delete x ∧ l ++ [name] <+: x := by
          cases d with
          | directory inner => exact ih name inner hp hd
          | file content => exact ⟨_, List.mem_singleton.mp hd, List.prefix_refl _⟩
          | link target => exact ⟨_, List.mem_singleton.mp hd, List.prefix_refl _⟩
          | special reading => exact ⟨_, List.mem_singleton.mp hd, List.prefix_refl _⟩
        obtain ⟨x, rfl, hpre⟩ := hstep
        exact ⟨x, rfl, (List.prefix_append _ _).trans hpre⟩
      · exact ⟨l, rfl, List.prefix_refl _⟩
  | file content => exact ⟨l, List.mem_singleton.mp h, List.prefix_refl _⟩
  | link target => exact ⟨l, List.mem_singleton.mp h, List.prefix_refl _⟩
  | special reading => exact ⟨l, List.mem_singleton.mp h, List.prefix_refl _⟩

theorem delete_mem_removeEffects {e c : Entry} {way : Location} (h : e.below? way = some c) :
    .delete (l ++ way) ∈ removeEffects l e := by
  induction way generalizing l e with
  | nil =>
    obtain ⟨front, hfront⟩ := exists_removeEffects_eq l e
    simp [hfront]
  | cons name rest ih =>
    obtain ⟨entries, rfl⟩ := Entry.exists_directory (Entry.isDirectory_of_below? h)
    rw [Entry.below?, Entry.at?_cons] at h
    obtain ⟨d, hd, hrest⟩ := Option.bind_eq_some_iff.mp h
    obtain ⟨front, back, hentries, -⟩ := List.lookup_eq_some_iff.mp hd
    have hmem : (name, d) ∈ entries := by simp [hentries]
    rw [removeEffects, removeAllEffects_eq_flatMap]
    refine List.mem_append_left _ (List.mem_flatMap.mpr ⟨_, hmem, ?_⟩)
    rw [List.append_cons l name rest]
    exact ih hrest

structure Removal (fs : FileSystem) (c : Change) : Prop where
  deletes : ∀ effect ∈ fs.effects c, ∃ x, effect = .delete x
  of_apply : ∀ l, (fs.apply c).IsDirectory l → fs.IsDirectory l ∧ (l = [] ∨ .delete l ∉ fs.effects c)
  apply_of : ∀ l, fs.IsDirectory l → .delete l ∉ fs.effects c → (fs.apply c).IsDirectory l
  whole : .delete [] ∈ fs.effects c → ∀ l, fs.IsDirectory l → .delete l ∈ fs.effects c

section Deletes

variable {effects : List Effect}

theorem IsDirectory.of_deletes (heffects : ∀ effect ∈ effects, ∃ x, effect = .delete x)
    (h : (effects.foldl perform fs).IsDirectory l) : fs.IsDirectory l ∧ (l = [] ∨ .delete l ∉ effects) := by
  induction effects generalizing fs with
  | nil => exact ⟨h, .inr (by simp)⟩
  | cons effect rest ih =>
    obtain ⟨x, rfl⟩ := heffects effect (by simp)
    obtain ⟨hl, hrest⟩ := ih (fun effect heffect => heffects effect (by simp [heffect])) h
    by_cases hnil : l = []
    · exact ⟨hnil ▸ isDirectory_nil fs, .inl hnil⟩
    · have hsame : fs.IsDirectory l ∧ l ≠ x := by
        by_cases hx : x = []
        · subst hx
          exact ⟨hl, hnil⟩
        · obtain ⟨hl, hpre⟩ := (isDirectory_take hx).mp hl
          exact ⟨hl, fun heq => hpre (heq ▸ List.prefix_refl _)⟩
      refine ⟨hsame.1, .inr fun hmem => ?_⟩
      rcases List.mem_cons.mp hmem with heq | hmem
      · exact hsame.2 (Effect.delete.inj heq)
      · exact hrest.resolve_left hnil hmem

theorem IsDirectory.foldl_deletes (h : fs.IsDirectory l)
    (heffects : ∀ effect ∈ effects, ∃ x, effect = .delete x ∧ ¬ x <+: l) :
    (effects.foldl perform fs).IsDirectory l := by
  induction effects generalizing fs with
  | nil => exact h
  | cons effect rest ih =>
    obtain ⟨x, rfl, hpre⟩ := heffects effect (by simp)
    have hx : x ≠ [] := by
      rintro rfl
      exact hpre List.nil_prefix
    exact ih ((isDirectory_take hx).mpr ⟨h, hpre⟩) fun effect heffect => heffects effect (by simp [heffect])

end Deletes

theorem removal_of_remove (fs : FileSystem) (path : String) : Removal fs (.remove path) := by
  have hcases : fs.effects (.remove path) = [] ∨
      ∃ x e, fs.at? x = some e ∧ fs.effects (.remove path) = removeEffects x e := by
    simp only [effects]
    cases hpath : fs.resolve false path with
    | error cause => exact .inl rfl
    | ok found => exact .inr ⟨found.1, found.2, at?_of_resolveFrom (resolve_eq_ok_iff.mp hpath).2, rfl⟩
  rcases hcases with heffects | ⟨x, e, hat, heffects⟩
  · refine ⟨by simp [heffects], fun l hl => ?_, fun l hl _ => ?_, by simp [heffects]⟩
    · simpa [apply, heffects] using hl
    · simpa [apply, heffects] using hl
  have hdeletes : ∀ effect ∈ fs.effects (.remove path), ∃ y, effect = .delete y ∧ x <+: y := by
    rw [heffects]
    exact fun effect => exists_delete_of_mem
  have hall : ∀ effect ∈ fs.effects (.remove path), ∃ y, effect = .delete y := fun effect heffect =>
    (hdeletes effect heffect).imp fun _ => And.left
  have hbelow : ∀ l, fs.IsDirectory l → x <+: l → .delete l ∈ fs.effects (.remove path) := by
    rintro l ⟨entries, hentries⟩ ⟨way, rfl⟩
    rw [at?_append, hat] at hentries
    rw [heffects]
    exact delete_mem_removeEffects hentries
  refine ⟨hall, fun l hl => hl.of_deletes hall, fun l hl hkept => hl.foldl_deletes fun effect heffect => ?_,
    fun hnil l hl => hbelow l hl ?_⟩
  · obtain ⟨y, rfl, hpre⟩ := hdeletes effect heffect
    exact ⟨y, rfl, fun hy => hkept (hbelow l hl (hpre.trans hy))⟩
  · obtain ⟨y, heq, hpre⟩ := hdeletes _ hnil
    rw [← Effect.delete.inj heq] at hpre
    exact hpre.trans List.nil_prefix

end Removal

structure Transfer (fs : FileSystem) (c : Change) (source target : Location) : Prop where
  effects_eq : fs.effects c = [.move source target]
  not_isPrefix : ¬ source <+: target
  not_isDirectory : ¬ fs.IsDirectory target
  parent : ∃ above last, target = above ++ [last] ∧ fs.IsDirectory above
  below_target : ∀ rest, (fs.apply c).IsDirectory (target ++ rest) ↔ fs.IsDirectory (source ++ rest)
  elsewhere : ∀ l, ¬ target <+: l → ((fs.apply c).IsDirectory l ↔ fs.IsDirectory l ∧ ¬ source <+: l)

theorem canMove_eq_true {fs : FileSystem} {source target : Location} {e : Entry}
    (h : fs.canMove source e target = true) : ¬ source <+: target ∧ ¬ fs.IsDirectory target := by
  unfold canMove at h
  rw [Bool.and_eq_true] at h
  constructor
  · intro hpre
    simp [List.isPrefixOf_iff_prefix.mpr hpre] at h
  · rintro ⟨entries, hentries⟩
    rw [hentries] at h
    cases e <;> simp at h

theorem transfer_of_rename {fs : FileSystem} {path new : String} (h : fs.effects (.rename path new) ≠ []) :
    ∃ source target, Transfer fs (.rename path new) source target := by
  generalize heffects : fs.effects (.rename path new) = effects at h
  have heq := heffects
  simp only [FileSystem.effects] at heq
  split at heq
  · rename_i source e target hpath hslot
    split at heq
    · rename_i hmove
      subst heq
      obtain ⟨above, last, rfl, habove⟩ := exists_parent_of_slotIn? hslot
      have hat : fs.at? source = some e := at?_of_resolveFrom (resolve_eq_ok_iff.mp hpath).2
      obtain ⟨hpre, htarget⟩ := canMove_eq_true hmove
      have hne : source ≠ [] := by
        rintro rfl
        exact hpre List.nil_prefix
      have happly : ∀ l, (fs.apply (.rename path new)).IsDirectory l ↔
          ((fs.take source).put (above ++ [last]) e).IsDirectory l := fun l => by
        rw [apply, heffects, List.foldl_cons, List.foldl_nil, perform, hat]
        rfl
      have hparent : (fs.take source).IsDirectory above :=
        (isDirectory_take hne).mpr ⟨habove, fun hup => hpre (hup.trans (List.prefix_append _ _))⟩
      refine ⟨source, above ++ [last], heffects, hpre, htarget, ⟨above, last, rfl, habove⟩, fun rest => ?_,
        fun l hl => ?_⟩
      · rw [happly, List.append_assoc, List.singleton_append, isDirectory_put_append hparent]
        exact (Entry.hasDirectory_append (e := .directory fs.root) hat rest).symm
      · rw [happly, isDirectory_put hparent hl, isDirectory_take hne]
    · exact absurd heq.symm h
  · exact absurd heq.symm h

theorem relocate_append (source target rest : Location) :
    relocate source target (source ++ rest) = target ++ rest := by
  simp [relocate]

theorem relocate_of_not {source l : Location} (target : Location) (h : ¬ source <+: l) :
    relocate source target l = l := by
  simpa [relocate, List.isPrefixOf_iff_prefix] using fun hpre => absurd hpre h

theorem relocate_inj {source target a b : Location} (ha : ¬ target <+: a) (hb : ¬ target <+: b)
    (h : relocate source target a = relocate source target b) : a = b := by
  by_cases hsa : source <+: a <;> by_cases hsb : source <+: b
  · obtain ⟨rest, rfl⟩ := hsa
    obtain ⟨rest', rfl⟩ := hsb
    rw [relocate_append, relocate_append] at h
    rw [List.append_cancel_left h]
  · obtain ⟨rest, rfl⟩ := hsa
    rw [relocate_append, relocate_of_not target hsb] at h
    exact absurd ⟨rest, h⟩ hb
  · obtain ⟨rest, rfl⟩ := hsb
    rw [relocate_append, relocate_of_not target hsa] at h
    exact absurd ⟨rest, h.symm⟩ ha
  · rwa [relocate_of_not target hsa, relocate_of_not target hsb] at h

section Locks

variable {fs : FileSystem} {l x : Location}

/-- An effect that neither takes away nor moves what is at a location, nor puts something else there. -/
def Effect.Spares (x : Location) : Effect → Prop
  | .create _ _ | .write _ _ | .setAttributes _ => True
  | .delete l => ¬ l <+: x
  | .move source target => ¬ source <+: x ∧ ¬ target <+: x

theorem isLocked_perform {effect : Effect} (h : effect.Spares x) (hx : fs.isLocked x = true) :
    (fs.perform effect).isLocked x = true := by
  cases effect with
  | create l e => rwa [perform, isLocked, locked_put]
  | write l content => rwa [perform, isLocked, locked_put]
  | delete l =>
    have hnot : l.isPrefixOf x = false := Bool.eq_false_iff.mpr fun hpre => h (List.isPrefixOf_iff_prefix.mp hpre)
    simpa [perform, isLocked, hnot] using hx
  | move source target =>
    rw [perform]
    cases fs.at? source with
    | none => exact hx
    | some e =>
      have hnot : target.isPrefixOf x = false :=
        Bool.eq_false_iff.mpr fun hpre => h.2 (List.isPrefixOf_iff_prefix.mp hpre)
      have hmem : x ∈ fs.locked := by simpa [isLocked] using hx
      simp only [isLocked, List.contains_iff_mem]
      exact List.mem_map.mpr ⟨x, List.mem_filter.mpr ⟨hmem, by simp [hnot]⟩, relocate_of_not target h.1⟩
  | setAttributes l => exact hx

theorem isLocked_foldl_perform {effects : List Effect} (h : ∀ effect ∈ effects, effect.Spares x)
    (hx : fs.isLocked x = true) : (effects.foldl perform fs).isLocked x = true := by
  induction effects generalizing fs with
  | nil => exact hx
  | cons effect rest ih =>
    exact ih (fun effect heffect => h effect (by simp [heffect])) (isLocked_perform (h effect (by simp)) hx)

theorem spares_of_isDirectory {c : Change} (hfresh : Fresh fs (fs.effects c)) (hl : fs.IsDirectory l)
    (hkept : .delete l ∉ fs.effects c) (hx : fs.IsDirectory x) (hx' : (fs.apply c).IsDirectory x) :
    ∀ effect ∈ fs.effects c, effect.Spares x := by
  intro effect heffect
  cases c with
  | write path e =>
    obtain ⟨made, rest, hgrowth⟩ := exists_growth hfresh
    rw [hgrowth.effects_eq] at heffect
    rcases List.mem_append.mp heffect with hmem | hmem
    · obtain ⟨y, -, rfl⟩ := List.mem_map.mp hmem
      trivial
    · cases hgrowth.leafy effect hmem <;> trivial
  | remove path =>
    have hremoval := removal_of_remove fs path
    obtain ⟨y, rfl⟩ := hremoval.deletes effect heffect
    intro hpre
    rcases (hremoval.of_apply y (hx'.of_isPrefix hpre)).2 with rfl | hnot
    · exact hkept (hremoval.whole heffect l hl)
    · exact hnot heffect
  | rename path new =>
    obtain ⟨source, target, htransfer⟩ := transfer_of_rename (List.ne_nil_of_mem heffect)
    rw [htransfer.effects_eq, List.mem_singleton] at heffect
    subst heffect
    have htarget : ¬ target <+: x := fun hpre => htransfer.not_isDirectory (hx.of_isPrefix hpre)
    exact ⟨((htransfer.elsewhere x htarget).mp hx').2, htarget⟩
  | setAttributes path =>
    simp only [effects] at heffect
    cases hpath : fs.resolve true path with
    | error cause => simp [hpath] at heffect
    | ok found =>
      simp only [hpath, List.mem_singleton] at heffect
      subst heffect
      trivial

/-- A directory that stays where it is can be listed after a change only if it could be before. -/
theorem isLocked_of_apply {c : Change} (hfresh : Fresh fs (fs.effects c)) (hl : fs.IsDirectory l)
    (hkept : .delete l ∉ fs.effects c) (hx : fs.IsDirectory x) (hx' : (fs.apply c).IsDirectory x)
    (h : (fs.apply c).isLocked x = false) : fs.isLocked x = false := by
  by_contra hlocked
  have hstill := isLocked_foldl_perform (spares_of_isDirectory hfresh hl hkept hx hx')
    (Bool.not_eq_false _ ▸ hlocked)
  rw [apply, hstill] at h
  contradiction

end Locks

end FunctionLength.FileSystem
