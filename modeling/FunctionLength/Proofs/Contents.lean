import FunctionLength.FileSystem.Change
import FunctionLength.Proofs.Resolution

namespace FunctionLength.FileSystem

def Entry.shape : Entry → Entry
  | .file _ => .file ByteArray.empty
  | .directory _ => .directory []
  | e => e

def Progress.shape : Progress → Progress
  | .arrived l e => .arrived l e.shape
  | p => p

/-- File systems with entries of the same shape at all locations. -/
structure Alike (fs fs' : FileSystem) : Prop where
  workingDirectory_eq : fs'.workingDirectory = fs.workingDirectory
  workingPath_eq : fs'.workingPath = fs.workingPath
  locked_eq : fs'.locked = fs.locked
  shape_eq : ∀ l, (fs'.at? l).map Entry.shape = (fs.at? l).map Entry.shape

namespace Alike

variable {fs fs' fs'' : FileSystem}

theorem refl (fs : FileSystem) : Alike fs fs := ⟨rfl, rfl, rfl, fun _ => rfl⟩

theorem trans (h : Alike fs fs') (h' : Alike fs' fs'') : Alike fs fs'' :=
  ⟨h'.workingDirectory_eq.trans h.workingDirectory_eq, h'.workingPath_eq.trans h.workingPath_eq,
    h'.locked_eq.trans h.locked_eq, fun l => (h'.shape_eq l).trans (h.shape_eq l)⟩

theorem shape_advance (h : Alike fs fs') (follow : Bool) (l : Location) (ns : List String) :
    (fs'.advance follow l ns).shape = (fs.advance follow l ns).shape := by
  induction ns generalizing l with
  | nil =>
    have hl := h.shape_eq l
    rw [advance, advance]
    cases hfs : fs.at? l with
    | none =>
      rw [hfs, Option.map_none, Option.map_eq_none_iff] at hl
      rw [hl]
    | some e =>
      rw [hfs, Option.map_some, Option.map_eq_some_iff] at hl
      obtain ⟨e', he', hshape⟩ := hl
      rw [he']
      simp [Progress.shape, hshape]
  | cons name ns ih =>
    have hl := h.shape_eq (l ++ [name])
    simp only [advance, lookup_eq_at?]
    split
    · exact ih l
    split
    · exact ih l.dropLast
    split
    · rfl
    cases hfs : fs.at? (l ++ [name]) with
    | none =>
      rw [hfs, Option.map_none, Option.map_eq_none_iff] at hl
      rw [hl]
    | some e =>
      rw [hfs, Option.map_some, Option.map_eq_some_iff] at hl
      obtain ⟨e', he', hshape⟩ := hl
      rw [he']
      cases e with
      | directory entries =>
        cases e' with
        | directory entries' => exact ih (l ++ [name])
        | _ => simp [Entry.shape] at hshape
      | file content =>
        cases e' with
        | file content' => cases ns <;> rfl
        | _ => simp [Entry.shape] at hshape
      | link target =>
        cases e' with
        | link target' =>
          simp only [Entry.shape, Entry.link.injEq] at hshape
          rw [hshape]
        | _ => simp [Entry.shape] at hshape
      | special reading =>
        cases e' with
        | special reading' =>
          obtain rfl : reading' = reading := Entry.special.inj hshape
          cases ns <;> rfl
        | _ => simp [Entry.shape] at hshape

/-- A path that leads somewhere leads there in both file systems. -/
theorem resolveFrom_eq_ok (h : Alike fs fs') {follow : Bool} {k : Nat} {l l' : Location} {ns : List String}
    {e : Entry} (hok : fs.resolveFrom follow k l ns = .ok (l', e)) :
    ∃ e', fs'.resolveFrom follow k l ns = .ok (l', e') ∧ e'.shape = e.shape := by
  refine resolveFrom_induction ?_ ?_ hok
  · intro k l ns hp
    have hshape := h.shape_advance follow l ns
    rw [hp] at hshape
    cases hp' : fs'.advance follow l ns with
    | arrived l₁ e₁ =>
      simp only [hp', Progress.shape, Progress.arrived.injEq] at hshape
      exact ⟨e₁, resolveFrom_arrived (by rw [hp', hshape.1]), hshape.2⟩
    | detour l₁ ms => simp [hp', Progress.shape] at hshape
    | failed c => simp [hp', Progress.shape] at hshape
  · intro k l ns l₁ ms hp ih
    have hshape := h.shape_advance follow l ns
    rw [hp] at hshape
    cases hp' : fs'.advance follow l ns with
    | arrived l₂ e₂ => simp [hp', Progress.shape] at hshape
    | detour l₂ ms₂ =>
      simp only [hp', Progress.shape, Progress.detour.injEq] at hshape
      rw [hshape.1, hshape.2] at hp'
      rw [resolveFrom_detour hp']
      exact ih
    | failed c => simp [hp', Progress.shape] at hshape

theorem resolve_eq_ok (h : Alike fs fs') {follow : Bool} {path : String} {l : Location} {e : Entry}
    (hok : fs.resolve follow path = .ok (l, e)) :
    ∃ e', fs'.resolve follow path = .ok (l, e') ∧ e'.shape = e.shape := by
  obtain ⟨husable, hreach⟩ := resolve_eq_ok_iff.mp hok
  obtain ⟨e', he', hshape⟩ := h.resolveFrom_eq_ok hreach
  refine ⟨e', resolve_eq_ok_iff.mpr ⟨husable, ?_⟩, hshape⟩
  rw [reach, origin, h.workingDirectory_eq]
  exact he'

end Alike

theorem Entry.shape_eq_file_iff {e : Entry} {content : ByteArray} :
    e.shape = (Entry.file content).shape ↔ ∃ content', e = .file content' := by
  cases e <;> simp [Entry.shape]

theorem lookup_cons_eq (n m : String) (e : Entry) (rest : Entries) :
    List.lookup n ((m, e) :: rest) = if n = m then some e else rest.lookup n := by
  by_cases hn : n = m
  · simp [hn]
  · have hbeq : (n == m) = false := by simpa using hn
    simp [List.lookup_cons, hbeq, hn]

theorem lookup_insert (name n : String) (e : Entry) (entries : Entries) :
    (entries.insert name e).lookup n = if n = name then some e else entries.lookup n := by
  induction entries with
  | nil => simp [Entries.insert, lookup_cons_eq]
  | cons p rest ih =>
    obtain ⟨m, old⟩ := p
    rw [Entries.insert]
    split
    · rw [lookup_cons_eq]
    split
    · rename_i hm
      rw [lookup_cons_eq, lookup_cons_eq, hm]
      split <;> rfl
    · rename_i hm
      rw [lookup_cons_eq, lookup_cons_eq, ih]
      by_cases hn : n = name
      · have hne : n ≠ m := fun heq => hm (hn.symm.trans heq)
        simp [hn, hn ▸ hne]
      · simp [hn]

theorem at?_insert (name : String) (e : Entry) (entries : Entries) (n : String) (rest : Location) :
    Entries.at? (entries.insert name e) (n :: rest) =
      if n = name then e.below? rest else Entries.at? entries (n :: rest) := by
  rw [Entry.at?_cons, lookup_insert, Entry.at?_cons]
  by_cases hn : n = name <;> simp [hn]

section Put

variable {entries : Entries} {above : Location} {name : String} {old content : ByteArray}

theorem at?_modifyAt_insert (h : Entries.at? entries (above ++ [name]) = some (.file old)) :
    Entries.at? (entries.modifyAt (Entries.insert name (.file content)) above) (above ++ [name]) =
      some (.file content) := by
  induction above generalizing entries with
  | nil =>
    rw [List.nil_append, Entries.modifyAt, at?_insert, if_pos rfl]
    rfl
  | cons first above ih =>
    obtain ⟨inner, hinner, hrest⟩ := exists_inner (by simp) h
    rw [Entries.modifyAt, hinner]
    simp only [List.cons_append]
    rw [at?_insert, if_pos rfl]
    exact ih hrest

theorem shape_modifyAt_insert (h : Entries.at? entries (above ++ [name]) = some (.file old)) (l : Location) :
    (Entries.at? (entries.modifyAt (Entries.insert name (.file content)) above) l).map Entry.shape =
      (Entries.at? entries l).map Entry.shape := by
  induction above generalizing entries l with
  | nil =>
    rw [Entries.modifyAt]
    cases l with
    | nil => rfl
    | cons n rest =>
      rw [at?_insert]
      split
      · rename_i hn
        -- Nothing is below a file, neither before nor after.
        have hold : entries.lookup name = some (.file old) :=
          (Entry.below?_directory_singleton entries name).symm.trans h
        rw [hn, Entry.at?_cons, hold]
        cases rest <;> rfl
      · rfl
  | cons first above ih =>
    obtain ⟨inner, hinner, hrest⟩ := exists_inner (by simp) h
    rw [Entries.modifyAt, hinner]
    cases l with
    | nil => rfl
    | cons n rest =>
      simp only
      rw [at?_insert]
      split
      · rename_i hn
        rw [hn, Entry.at?_cons, hinner]
        exact ih hrest rest
      · rfl

end Put

variable {fs : FileSystem} {l : Location} {old content : ByteArray}

theorem at?_put (h : fs.at? l = some (.file old)) : (fs.put l (.file content)).at? l = some (.file content) := by
  cases l using List.reverseRecOn with
  | nil => simp [at?, Entries.at?] at h
  | append_singleton above name _ =>
    rw [put, List.getLast?_concat, List.dropLast_concat]
    exact at?_modifyAt_insert h

theorem alike_put (h : fs.at? l = some (.file old)) : Alike fs (fs.put l (.file content)) := by
  cases l using List.reverseRecOn with
  | nil => simp [at?, Entries.at?] at h
  | append_singleton above name _ =>
    rw [put, List.getLast?_concat, List.dropLast_concat]
    exact ⟨rfl, rfl, rfl, shape_modifyAt_insert h⟩

theorem exists_create_of_mem {absolute : Bool} {above names : List String} {effect : Effect}
    (h : effect ∈ directoryEffects absolute above names fs) : ∃ l e, effect = .create l e := by
  induction names generalizing above fs with
  | nil => simp [directoryEffects] at h
  | cons name rest ih =>
    rw [directoryEffects] at h
    split at h
    · exact ih h
    · split at h
      · rcases List.mem_cons.mp h with rfl | h
        · exact ⟨_, _, rfl⟩
        · exact ih h
      · simp at h

theorem exists_removeEffects_eq (l : Location) (e : Entry) :
    ∃ front, removeEffects l e = front ++ [.delete l] := by
  cases e with
  | directory entries => exact ⟨removeAllEffects l entries, by rw [removeEffects]⟩
  | file content => exact ⟨[], rfl⟩
  | link target => exact ⟨[], rfl⟩
  | special reading => exact ⟨[], rfl⟩

theorem exists_file_of_writeEffects {path : String} {e : Entry} (h : fs.writeEffects path e = [.write l content]) :
    ∃ old, fs.at? l = some (.file old) := by
  cases e with
  | directory entries => simp [writeEffects] at h
  | file new =>
    rw [writeEffects] at h
    split at h
    · rename_i l' old hpath
      simp only [List.cons.injEq, Effect.write.injEq] at h
      obtain ⟨⟨rfl, -⟩, -⟩ := h
      exact ⟨old, at?_of_resolveFrom (resolve_eq_ok_iff.mp hpath).2⟩
    · simp at h
    · cases hslot : fs.writeSlot? linkLimit path <;> simp [hslot] at h
  | link target =>
    rw [writeEffects] at h
    · split at h <;> simp at h
    all_goals simp
  | special reading =>
    rw [writeEffects] at h
    · split at h <;> simp at h
    all_goals simp

theorem exists_file_of_effects {c : Change} (h : fs.effects c = [.write l content]) :
    ∃ old, fs.at? l = some (.file old) := by
  cases c with
  | write path e =>
    simp only [effects] at h
    generalize hparents : fs.makeDirectories _ = parents at h
    cases parents with
    | nil => exact exists_file_of_writeEffects h
    | cons effect rest =>
      have hmem : effect ∈ effect :: rest := by simp
      rw [← hparents] at hmem
      obtain ⟨l', e', rfl⟩ := exists_create_of_mem hmem
      simp at h
  | remove path =>
    simp only [effects] at h
    cases hpath : fs.resolve false path with
    | error cause => simp [hpath] at h
    | ok x =>
      obtain ⟨l', e⟩ := x
      obtain ⟨front, hfront⟩ := exists_removeEffects_eq l' e
      simp only [hpath, hfront] at h
      simp [List.append_eq_singleton_iff] at h
  | rename path target =>
    simp only [effects] at h
    split at h
    · split at h <;> simp at h
    · simp at h
  | setAttributes path =>
    simp only [effects] at h
    split at h <;> simp at h

theorem apply_of_effects {c : Change} (h : fs.effects c = [.write l content]) :
    fs.apply c = fs.put l (.file content) := by
  rw [apply, h]
  rfl

end FunctionLength.FileSystem
