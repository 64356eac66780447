import FunctionLength.FileSystem
import FunctionLength.Proofs.Paths

namespace FunctionLength.FileSystem

def Entry.below? : Entry → Location → Option Entry
  | .directory entries, way => Entries.at? entries way
  | e, [] => some e
  | _, _ :: _ => none

def Entry.isDirectory : Entry → Bool
  | .directory _ => true
  | _ => false

namespace Entry

@[simp] theorem below?_nil (e : Entry) : e.below? [] = some e := by
  cases e <;> simp [below?, Entries.at?]

theorem at?_cons (entries : Entries) (name : String) (rest : Location) :
    Entries.at? entries (name :: rest) = (entries.lookup name).bind (·.below? rest) := by
  rw [Entries.at?]
  cases entries.lookup name with
  | none => rfl
  | some e => cases e <;> cases rest <;> simp [below?]

theorem below?_directory_singleton (entries : Entries) (name : String) :
    (Entry.directory entries).below? [name] = entries.lookup name := by
  rw [below?, at?_cons]
  simp

theorem below?_cons (e : Entry) (name : String) (rest : Location) :
    e.below? (name :: rest) = (e.below? [name]).bind (·.below? rest) := by
  cases e with
  | directory entries =>
    rw [below?_directory_singleton]
    exact at?_cons entries name rest
  | file content => rfl
  | link target => rfl
  | special reading => rfl

theorem below?_append (e : Entry) (front back : Location) :
    e.below? (front ++ back) = (e.below? front).bind (·.below? back) := by
  induction front generalizing e with
  | nil => simp
  | cons name front ih =>
    rw [List.cons_append, below?_cons, below?_cons e name front, Option.bind_assoc]
    congr 1
    funext c
    exact ih c

theorem isDirectory_of_below? {e c : Entry} {name : String} {rest : Location}
    (h : e.below? (name :: rest) = some c) : e.isDirectory = true := by
  cases e with
  | directory entries => rfl
  | file content => simp [below?] at h
  | link target => simp [below?] at h
  | special reading => simp [below?] at h

theorem exists_directory {e : Entry} (h : e.isDirectory = true) : ∃ entries, e = .directory entries := by
  cases e with
  | directory entries => exact ⟨entries, rfl⟩
  | file content => simp [isDirectory] at h
  | link target => simp [isDirectory] at h
  | special reading => simp [isDirectory] at h

end Entry

/-- A name that an entry can have. -/
structure EntryName (name : String) : Prop extends Path.IsName name where
  ne_parent : name ≠ ".."
  no_null : '\x00' ∉ name.toList
  size_le : name.utf8ByteSize ≤ 255

instance (name : String) : Decidable (EntryName name) :=
  decidable_of_iff (((name ≠ "" ∧ name ≠ ".") ∧ '/' ∉ name.toList) ∧ name ≠ ".." ∧ '\x00' ∉ name.toList ∧
      name.utf8ByteSize ≤ 255)
    ⟨fun h => ⟨⟨h.1.1.1, h.1.1.2, h.1.2⟩, h.2.1, h.2.2.1, h.2.2.2⟩,
      fun h => ⟨⟨⟨h.ne_empty, h.ne_dot⟩, h.no_slash⟩, h.ne_parent, h.no_null, h.size_le⟩⟩

mutual

def Entry.isSound : Entry → Bool
  | .directory entries => entriesSound entries
  | _ => true

def entriesSound : List (String × Entry) → Bool
  | [] => true
  | (name, e) :: rest =>
    decide (EntryName name) && rest.all (·.1 ≠ name) && e.isSound && entriesSound rest

end

theorem entriesSound_cons {name : String} {e : Entry} {rest : List (String × Entry)}
    (h : entriesSound ((name, e) :: rest) = true) :
    EntryName name ∧ (∀ p ∈ rest, p.1 ≠ name) ∧ e.isSound = true ∧ entriesSound rest = true := by
  simpa [entriesSound, and_assoc] using h

theorem lookup_eq_some_iff {entries : List (String × Entry)} (h : entriesSound entries = true) {name : String}
    {e : Entry} : entries.lookup name = some e ↔ (name, e) ∈ entries := by
  induction entries with
  | nil => simp
  | cons p rest ih =>
    obtain ⟨n, c⟩ := p
    obtain ⟨-, hfresh, -, hrest⟩ := entriesSound_cons h
    by_cases heq : name = n
    · subst heq
      have hnot : (name, e) ∉ rest := fun hmem => hfresh _ hmem rfl
      simp [hnot, eq_comm]
    · have hbeq : (name == n) = false := by simpa using heq
      simp [List.lookup_cons, hbeq, heq, ih hrest]

theorem entryName_of_mem {entries : List (String × Entry)} (h : entriesSound entries = true)
    {p : String × Entry} (hp : p ∈ entries) : EntryName p.1 ∧ p.2.isSound = true := by
  induction entries with
  | nil => simp at hp
  | cons q rest ih =>
    obtain ⟨hname, -, hsound, hrest⟩ := entriesSound_cons h
    rcases List.mem_cons.mp hp with rfl | hp
    · exact ⟨hname, hsound⟩
    · exact ih hrest hp

theorem Entry.below?_sound {e c : Entry} {way : Location} (h : e.isSound = true)
    (hc : e.below? way = some c) : c.isSound = true ∧ ∀ n ∈ way, EntryName n := by
  induction way generalizing e with
  | nil =>
    rw [below?_nil] at hc
    cases hc
    exact ⟨h, by simp⟩
  | cons name rest ih =>
    obtain ⟨entries, rfl⟩ := exists_directory (isDirectory_of_below? hc)
    rw [below?, at?_cons] at hc
    obtain ⟨d, hd, hc⟩ := Option.bind_eq_some_iff.mp hc
    obtain ⟨hname, hsound⟩ := entryName_of_mem h ((lookup_eq_some_iff h).mp hd)
    obtain ⟨hcsound, hrest⟩ := ih hsound hc
    exact ⟨hcsound, by simpa using ⟨hname, hrest⟩⟩

end FileSystem

namespace FileSystem

/-- What the working directory is called. Without a name for it, relative paths count from the root. -/
def home (fs : FileSystem) : String := fs.workingPath.getD "/"

def absolute (fs : FileSystem) (path : String) : String := Path.absolute fs.home path

/-- A file system as there can be one: names of entries are proper, and the working directory is there. It may
be called by a path that leads through links, or by none. -/
structure Proper (fs : FileSystem) : Prop where
  root : (Entry.directory fs.root).isSound = true
  directory : ∃ entries, fs.at? (Path.names fs.workingDirectory) = some (.directory entries)
  isAbsolute : Path.isAbsolute fs.home = true

/-- The working directory is called by its real path. -/
structure Sound (fs : FileSystem) : Prop extends Proper fs where
  known : fs.workingPath = some fs.workingDirectory
  clean : Path.clean fs.workingDirectory = fs.workingDirectory

variable {fs : FileSystem} {follow : Bool} {l : Location}

theorem at?_append (fs : FileSystem) (l way : Location) :
    fs.at? (l ++ way) = (fs.at? l).bind (·.below? way) :=
  Entry.below?_append (.directory fs.root) l way

theorem Proper.entryName (h : fs.Proper) {e : Entry} (he : fs.at? l = some e) : ∀ n ∈ l, EntryName n :=
  (Entry.below?_sound h.root he).2

theorem Proper.isSound (h : fs.Proper) {e : Entry} (he : fs.at? l = some e) : e.isSound = true :=
  (Entry.below?_sound h.root he).1

theorem Proper.entryName_workingDirectory (h : fs.Proper) :
    ∀ n ∈ Path.names fs.workingDirectory, EntryName n := by
  obtain ⟨entries, hentries⟩ := h.directory
  exact h.entryName hentries

theorem exists_inner {entries : Entries} {first : String} {rest : Location} {e : Entry} (hne : rest ≠ [])
    (h : Entries.at? entries (first :: rest) = some e) :
    ∃ inner, entries.lookup first = some (.directory inner) ∧ Entries.at? inner rest = some e := by
  rw [Entry.at?_cons] at h
  obtain ⟨d, hd, hbelow⟩ := Option.bind_eq_some_iff.mp h
  cases rest with
  | nil => contradiction
  | cons second rest =>
    obtain ⟨inner, rfl⟩ := Entry.exists_directory (Entry.isDirectory_of_below? hbelow)
    exact ⟨inner, hd, hbelow⟩

theorem exists_directory_of_append {way : Location} {entries : Entries}
    (h : fs.at? (l ++ way) = some (.directory entries)) : ∃ above, fs.at? l = some (.directory above) := by
  rw [at?_append] at h
  obtain ⟨e, he, hway⟩ := Option.bind_eq_some_iff.mp h
  cases way with
  | nil =>
    rw [Entry.below?_nil] at hway
    exact ⟨entries, by rw [he, hway]⟩
  | cons name rest =>
    obtain ⟨above, rfl⟩ := Entry.exists_directory (Entry.isDirectory_of_below? hway)
    exact ⟨above, he⟩

theorem lookup_eq_at? (fs : FileSystem) (l : Location) (name : String) :
    (fs.directoryAt? l).bind (·.lookup name) = fs.at? (l ++ [name]) := by
  rw [at?_append, directoryAt?]
  cases fs.at? l with
  | none => rfl
  | some e =>
    cases e with
    | directory entries =>
      exact (Entry.below?_directory_singleton entries name).symm
    | file content => rfl
    | link target => rfl
    | special reading => rfl

theorem advance_cons {name : String} (h : EntryName name) (rest : List String) :
    fs.advance follow l (name :: rest) =
      match fs.at? (l ++ [name]) with
      | none => .failed .notFound
      | some (.directory _) => fs.advance follow (l ++ [name]) rest
      | some (.link target) =>
        if rest.isEmpty && !follow then .arrived (l ++ [name]) (.link target)
        else .detour (if Path.isAbsolute target then [] else l) (steps target ++ rest)
      | some e => if rest.isEmpty then .arrived (l ++ [name]) e else .failed .notDirectory := by
  have hsize : ¬ 255 < name.utf8ByteSize := Nat.not_lt.mpr h.size_le
  rewrite [advance, if_neg h.ne_dot, if_neg h.ne_parent, if_neg hsize, lookup_eq_at?]
  rfl

theorem advance_append {ms : List String} (hms : ∀ m ∈ ms, EntryName m) {entries : Entries}
    (h : fs.at? (l ++ ms) = some (.directory entries)) (rest : List String) :
    fs.advance follow l (ms ++ rest) = fs.advance follow (l ++ ms) rest := by
  induction ms generalizing l with
  | nil => simp
  | cons m ms ih =>
    have hsplit : l ++ m :: ms = (l ++ [m]) ++ ms := by simp
    rw [hsplit] at h ⊢
    obtain ⟨above, habove⟩ := exists_directory_of_append h
    rw [List.cons_append, advance_cons (hms m (by simp)), habove]
    exact ih (fun n hn => hms n (by simp [hn])) h

theorem advance_way {way : List String} (hway : ∀ n ∈ way, EntryName n) {e : Entry}
    (h : fs.at? (l ++ way) = some e) (he : follow = true → ∀ target, e ≠ .link target) :
    fs.advance follow l way = .arrived (l ++ way) e := by
  cases way using List.reverseRecOn with
  | nil =>
    rw [List.append_nil] at h ⊢
    rw [advance, h]
  | append_singleton front name _ =>
    have hname := hway name (by simp)
    rw [← List.append_assoc] at h ⊢
    obtain ⟨d, hd, hbelow⟩ := Option.bind_eq_some_iff.mp ((at?_append fs (l ++ front) [name]).symm.trans h)
    obtain ⟨above, rfl⟩ := Entry.exists_directory (Entry.isDirectory_of_below? hbelow)
    rw [advance_append (fun n hn => hway n (by simp [hn])) hd, advance_cons hname, h]
    cases e with
    | directory entries => rw [advance, h]
    | file content => rfl
    | link target =>
      cases follow with
      | true => exact absurd rfl (he rfl target)
      | false => rfl
    | special reading => rfl

theorem advance_parents (fs : FileSystem) (follow : Bool) (l : Location) (k : Nat) (rest : List String) :
    fs.advance follow l (List.replicate k ".." ++ rest) =
      fs.advance follow (l.take (l.length - k)) rest := by
  induction k generalizing l with
  | zero => simp
  | succ k ih =>
    rw [List.replicate_succ, List.cons_append, advance, if_neg (by decide), if_pos rfl, ih,
      List.length_dropLast, List.dropLast_eq_take, List.take_take]
    congr 2
    omega

/-- What a name does, whatever comes after it: it leads on, it fails, or it leads to an entry with nothing below
it, which may be a link. -/
theorem advance_cases (fs : FileSystem) (l : Location) (name : String) :
    (∃ l', ∀ follow rest, fs.advance follow l (name :: rest) = fs.advance follow l' rest) ∨
      (∃ c, ∀ follow rest, fs.advance follow l (name :: rest) = .failed c) ∨
      (∃ target l₁ ms, fs.at? (l ++ [name]) = some (.link target) ∧
        ∀ follow rest, fs.advance follow l (name :: rest) =
          if rest.isEmpty && !follow then .arrived (l ++ [name]) (.link target) else .detour l₁ (ms ++ rest)) ∨
      ∃ e, fs.at? (l ++ [name]) = some e ∧ e.isDirectory = false ∧ (∀ target, e ≠ .link target) ∧
        ∀ follow rest, fs.advance follow l (name :: rest) =
          if rest.isEmpty then .arrived (l ++ [name]) e else .failed .notDirectory := by
  simp only [advance]
  by_cases hdot : name = "."
  · simp only [if_pos hdot]
    exact .inl ⟨l, fun _ _ => rfl⟩
  simp only [if_neg hdot]
  by_cases hparent : name = ".."
  · simp only [if_pos hparent]
    exact .inl ⟨l.dropLast, fun _ _ => rfl⟩
  simp only [if_neg hparent]
  by_cases hsize : 255 < name.utf8ByteSize
  · simp only [if_pos hsize]
    exact .inr (.inl ⟨_, fun _ _ => rfl⟩)
  simp only [if_neg hsize, lookup_eq_at?]
  cases hat : fs.at? (l ++ [name]) with
  | none => exact .inr (.inl ⟨_, fun _ _ => rfl⟩)
  | some e =>
    cases e with
    | directory entries => exact .inl ⟨l ++ [name], fun _ _ => rfl⟩
    | file content => exact .inr (.inr (.inr ⟨_, rfl, rfl, by simp, fun _ _ => rfl⟩))
    | link target => exact .inr (.inr (.inl ⟨target, _, _, rfl, fun _ _ => rfl⟩))
    | special reading => exact .inr (.inr (.inr ⟨_, rfl, rfl, by simp, fun _ _ => rfl⟩))

theorem at?_of_advance {ns : List String} {l' : Location} {e : Entry}
    (h : fs.advance follow l ns = .arrived l' e) : fs.at? l' = some e := by
  induction ns generalizing l with
  | nil =>
    rw [advance] at h
    cases hl : fs.at? l with
    | none => simp [hl] at h
    | some e' =>
      rw [hl] at h
      cases h
      exact hl
  | cons name ns ih =>
    rcases advance_cases fs l name with ⟨l₁, hstep⟩ | ⟨c, hstep⟩ | ⟨target, l₁, ms, hat, hstep⟩ |
      ⟨e', hat, -, -, hstep⟩
    · exact ih ((hstep follow ns).symm.trans h)
    · rw [hstep] at h
      contradiction
    · rw [hstep] at h
      split at h
      · cases h
        exact hat
      · contradiction
    · rw [hstep] at h
      split at h
      · cases h
        exact hat
      · contradiction

/-- Where names lead if others follow: on from a directory, or on from a link on the way. -/
def Progress.extend (fs : FileSystem) (follow : Bool) (rest : List String) : Progress → Option Progress
  | .arrived l (.directory _) => some (fs.advance follow l rest)
  | .detour l names => some (.detour l (names ++ rest))
  | _ => none

/-- If others follow, it does not matter whether a link at the end would be followed. -/
theorem advance_of_extend {final : Bool} {ns rest : List String} {p : Progress}
    (hrest : final = true → rest ≠ []) (h : (fs.advance final l ns).extend fs follow rest = some p) :
    fs.advance follow l (ns ++ rest) = p := by
  induction ns generalizing l with
  | nil =>
    rw [advance] at h
    cases hl : fs.at? l with
    | none => simp [hl, Progress.extend] at h
    | some e =>
      cases e with
      | directory entries => simpa [hl, Progress.extend] using h
      | file content => simp [hl, Progress.extend] at h
      | link target => simp [hl, Progress.extend] at h
      | special reading => simp [hl, Progress.extend] at h
  | cons name ns ih =>
    rw [List.cons_append]
    rcases advance_cases fs l name with ⟨l₁, hstep⟩ | ⟨c, hstep⟩ | ⟨target, l₁, ms, -, hstep⟩ |
      ⟨e, -, hleaf, -, hstep⟩
    · rw [hstep] at h ⊢
      exact ih h
    · rw [hstep] at h
      contradiction
    · rw [hstep] at h ⊢
      cases ns with
      | nil =>
        cases final with
        | false => contradiction
        | true => simpa [Progress.extend, hrest rfl] using h
      | cons m ns => simpa [Progress.extend] using h
    · rw [hstep] at h
      cases ns with
      | nil => cases e <;> simp_all [Progress.extend, Entry.isDirectory]
      | cons m ns => contradiction

/-- Whether links are followed at the end matters only if there is one. -/
theorem advance_follow {ns : List String} (h : ∀ l' target, fs.advance false l ns ≠ .arrived l' (.link target)) :
    fs.advance true l ns = fs.advance false l ns := by
  induction ns generalizing l with
  | nil => rfl
  | cons name ns ih =>
    rcases advance_cases fs l name with ⟨l₁, hstep⟩ | ⟨c, hstep⟩ | ⟨target, l₁, ms, -, hstep⟩ |
      ⟨e, -, -, -, hstep⟩
    · rw [hstep, hstep]
      exact ih fun l' target => hstep false ns ▸ h l' target
    · rw [hstep, hstep]
    · rw [hstep, hstep]
      cases ns with
      | nil => exact absurd (hstep false []) (h (l ++ [name]) target)
      | cons m ns => rfl
    · rw [hstep, hstep]

theorem link_or_advance_follow (fs : FileSystem) (l : Location) (ns : List String) :
    (∃ l' target, fs.advance false l ns = .arrived l' (.link target)) ∨
      fs.advance true l ns = fs.advance false l ns := by
  by_cases hlink : ∃ l' target, fs.advance false l ns = .arrived l' (.link target)
  · exact .inl hlink
  · exact .inr (advance_follow fun l' target heq => hlink ⟨l', target, heq⟩)

theorem resolveFrom_eq (fs : FileSystem) (follow : Bool) (k : Nat) (l : Location) (ns : List String) :
    fs.resolveFrom follow k l ns =
      match fs.advance follow l ns, k with
      | .arrived l e, _ => .ok (l, e)
      | .failed c, _ => .error c
      | .detour _ _, 0 => .error .tooManyLinks
      | .detour l ms, k + 1 => fs.resolveFrom follow k l ms := by
  cases k <;> rw [resolveFrom] <;> cases fs.advance follow l ns <;> rfl

theorem resolveFrom_arrived {k : Nat} {ns : List String} {l' : Location} {e : Entry}
    (h : fs.advance follow l ns = .arrived l' e) : fs.resolveFrom follow k l ns = .ok (l', e) := by
  rw [resolveFrom_eq, h]

theorem resolveFrom_congr {k : Nat} {ns ms : List String} {l' : Location}
    (h : fs.advance follow l ns = fs.advance follow l' ms) :
    fs.resolveFrom follow k l ns = fs.resolveFrom follow k l' ms := by
  rw [resolveFrom_eq, resolveFrom_eq fs follow k l' ms, h]

/-- A path leads to its goal straight, or first to a link and then on the way that the link gives. -/
@[elab_as_elim]
theorem resolveFrom_induction {l' : Location} {e : Entry} {motive : Nat → Location → List String → Prop}
    (arrived : ∀ k l ns, fs.advance follow l ns = .arrived l' e → motive k l ns)
    (detour : ∀ k l ns l₁ ms, fs.advance follow l ns = .detour l₁ ms → motive k l₁ ms → motive (k + 1) l ns)
    {k : Nat} {ns : List String} (h : fs.resolveFrom follow k l ns = .ok (l', e)) : motive k l ns := by
  induction k generalizing l ns with
  | zero =>
    rw [resolveFrom_eq] at h
    cases hp : fs.advance follow l ns with
    | arrived l₁ e₁ =>
      simp only [hp] at h
      cases h
      exact arrived 0 l ns hp
    | failed c => simp [hp] at h
    | detour l₁ ms => simp [hp] at h
  | succ k ih =>
    rw [resolveFrom_eq] at h
    cases hp : fs.advance follow l ns with
    | arrived l₁ e₁ =>
      simp only [hp] at h
      cases h
      exact arrived (k + 1) l ns hp
    | failed c => simp [hp] at h
    | detour l₁ ms =>
      simp only [hp] at h
      exact detour k l ns l₁ ms hp (ih h)

theorem at?_of_resolveFrom {k : Nat} {ns : List String} {l' : Location} {e : Entry}
    (h : fs.resolveFrom follow k l ns = .ok (l', e)) : fs.at? l' = some e :=
  resolveFrom_induction (fun _ _ _ hp => at?_of_advance hp) (fun _ _ _ _ _ _ ih => ih) h

theorem resolveFrom_detour {k : Nat} {ns ms : List String} {l' : Location}
    (h : fs.advance follow l ns = .detour l' ms) :
    fs.resolveFrom follow (k + 1) l ns = fs.resolveFrom follow k l' ms := by
  rw [resolveFrom_eq, h]

theorem resolveFrom_follow {k : Nat} {ns : List String} {l' : Location} {e : Entry}
    (h : fs.resolveFrom false k l ns = .ok (l', e)) (he : ∀ target, e ≠ .link target) :
    fs.resolveFrom true k l ns = .ok (l', e) := by
  refine resolveFrom_induction ?_ ?_ h
  · intro k l ns hp
    have hsame : fs.advance true l ns = fs.advance false l ns := by
      refine advance_follow fun l₁ target heq => ?_
      rw [hp] at heq
      cases heq
      exact he target rfl
    exact resolveFrom_arrived (hsame.trans hp)
  · intro k l ns l₁ ms hp ih
    have hsame : fs.advance true l ns = fs.advance false l ns := by
      refine advance_follow fun l₁ target heq => ?_
      rw [hp] at heq
      contradiction
    rw [resolveFrom_detour (hsame.trans hp)]
    exact ih

/-- A path that leads somewhere if links are followed leads there anyway, or to a link at its end. -/
theorem resolveFrom_of_follow {k : Nat} {ns : List String} {l' : Location} {e : Entry}
    (h : fs.resolveFrom true k l ns = .ok (l', e)) :
    fs.resolveFrom false k l ns = .ok (l', e) ∨
      ∃ l₁ target, fs.resolveFrom false k l ns = .ok (l₁, .link target) := by
  refine resolveFrom_induction ?_ ?_ h
  · intro k l ns hp
    rcases link_or_advance_follow fs l ns with ⟨l₁, target, hlink⟩ | hsame
    · exact .inr ⟨l₁, target, resolveFrom_arrived hlink⟩
    · exact .inl (resolveFrom_arrived (hsame.symm.trans hp))
  · intro k l ns l₁ ms hp ih
    rcases link_or_advance_follow fs l ns with ⟨l₂, target, hlink⟩ | hsame
    · exact .inr ⟨l₂, target, resolveFrom_arrived hlink⟩
    · rwa [resolveFrom_detour (hsame.symm.trans hp)]

/-- A path that leads to a directory can be continued there, with the links that are left. -/
theorem resolveFrom_append_of {final : Bool} {k : Nat} {ns : List String} {l' : Location} {entries : Entries}
    (h : fs.resolveFrom final k l ns = .ok (l', .directory entries)) :
    ∃ k', ∀ follow rest, (final = true → rest ≠ []) →
      fs.resolveFrom follow k l (ns ++ rest) = fs.resolveFrom follow k' l' rest := by
  refine resolveFrom_induction ?_ ?_ h
  · intro k l ns hp
    exact ⟨k, fun follow rest hrest => resolveFrom_congr (advance_of_extend hrest (by rw [hp]; rfl))⟩
  · rintro k l ns l₁ ms hp ⟨k', hk'⟩
    refine ⟨k', fun follow rest hrest => ?_⟩
    have hdetour : fs.advance follow l (ns ++ rest) = .detour l₁ (ms ++ rest) :=
      advance_of_extend hrest (by rw [hp]; rfl)
    rw [resolveFrom_detour hdetour]
    exact hk' follow rest hrest

theorem resolveFrom_append {k : Nat} {ns : List String} {l' : Location} {entries : Entries}
    (h : fs.resolveFrom false k l ns = .ok (l', .directory entries)) :
    ∃ k', ∀ follow rest, fs.resolveFrom follow k l (ns ++ rest) = fs.resolveFrom follow k' l' rest := by
  obtain ⟨k', hk'⟩ := resolveFrom_append_of h
  exact ⟨k', fun follow rest => hk' follow rest (by simp)⟩

theorem advance_concat_of_file {ns : List String} {l' : Location} {content : ByteArray} {name : String}
    (h : fs.advance false l ns = .arrived l' (.file content)) (hname : Path.IsName name) (hne : name ≠ "..") :
    ∃ c, fs.advance follow l (ns ++ [name]) = .failed c := by
  induction ns generalizing l with
  | nil =>
    have hl := at?_of_advance h
    have heq : l = l' := by
      rw [advance] at h
      split at h
      · cases h
        rfl
      · contradiction
    have hnone : fs.directoryAt? l = none := by rw [directoryAt?, heq, hl]
    rw [List.nil_append, advance, if_neg hname.ne_dot, if_neg hne, hnone]
    split
    · exact ⟨_, rfl⟩
    · exact ⟨_, rfl⟩
  | cons n ns ih =>
    rw [List.cons_append]
    rcases advance_cases fs l n with ⟨l₁, hstep⟩ | ⟨c, hstep⟩ | ⟨target, l₁, ms, -, hstep⟩ | ⟨e, -, -, -, hstep⟩
    · rw [hstep] at h ⊢
      exact ih h
    · rw [hstep] at h
      contradiction
    · rw [hstep] at h
      cases ns <;> simp at h
    · rw [hstep]
      exact ⟨.notDirectory, by simp⟩

theorem resolveFrom_concat_of_file {k : Nat} {ns : List String} {l' : Location} {content : ByteArray}
    {name : String} (h : fs.resolveFrom false k l ns = .ok (l', .file content)) (hname : Path.IsName name)
    (hne : name ≠ "..") : ∃ c, fs.resolveFrom follow k l (ns ++ [name]) = .error c := by
  refine resolveFrom_induction ?_ ?_ h
  · intro k l ns hp
    obtain ⟨c, hc⟩ : ∃ c, fs.advance follow l (ns ++ [name]) = .failed c :=
      advance_concat_of_file hp hname hne
    exact ⟨c, by rw [resolveFrom_eq, hc]⟩
  · intro k l ns l₁ ms hp ih
    have hdetour : fs.advance follow l (ns ++ [name]) = .detour l₁ (ms ++ [name]) :=
      advance_of_extend (by simp) (by rw [hp]; rfl)
    rwa [resolveFrom_detour hdetour]

theorem resolveFrom_singleton {k : Nat} {name : String} {l' : Location} {content : ByteArray}
    (h : fs.resolveFrom false k l [name] = .ok (l', .file content)) (hname : Path.IsName name)
    (hne : name ≠ "..") : l' = l ++ [name] := by
  rw [resolveFrom_eq, advance, if_neg hname.ne_dot, if_neg hne, lookup_eq_at?] at h
  by_cases hsize : 255 < name.utf8ByteSize
  · simp [hsize] at h
  rw [if_neg hsize] at h
  cases hl : fs.at? (l ++ [name]) with
  | none => simp [hl] at h
  | some e =>
    rw [hl] at h
    cases e with
    | directory entries => simp [advance, hl] at h
    | file content => simpa [eq_comm] using (Prod.mk.inj (Except.ok.inj h)).1
    | link target => simp at h
    | special reading => simp at h

def chunks (path : String) : List String := ((Path.pieces path.toList).filter (· ≠ [])).map String.ofList

@[simp] theorem chunks_empty : chunks "" = [] := rfl

theorem chunks_append_slash (a b : String) : chunks (a ++ "/" ++ b) = chunks a ++ chunks b := by
  have hchars : (a ++ "/" ++ b).toList = a.toList ++ '/' :: b.toList := by simp
  rw [chunks, hchars, Path.pieces_append_slash, List.filter_append, List.map_append]
  rfl

theorem chunks_of_isName {name : String} (h : Path.IsName name) : chunks name = [name] := by
  simp [chunks, Path.pieces_of_not_mem h.no_slash, h.ne_empty]

theorem chunks_joinNames {ns : List String} (h : ∀ n ∈ ns, Path.IsName n) :
    chunks (Path.joinNames ns) = ns := by
  induction ns with
  | nil => rfl
  | cons n ns ih =>
    have hn := chunks_of_isName (h n (by simp))
    by_cases hns : ns = []
    · simpa [hns, Path.joinNames] using hn
    · rw [Path.joinNames_cons n hns, chunks_append_slash, hn, ih fun m hm => h m (by simp [hm])]
      rfl

theorem steps_of_last {path : String} (h : path.toList.getLast? ≠ some '/') : steps path = chunks path :=
  if_neg h

theorem getLast?_append_joinNames (a : String) {ns : List String} (hne : ns ≠ [])
    (h : ∀ n ∈ ns, Path.IsName n) : (a ++ Path.joinNames ns).toList.getLast? ≠ some '/' := by
  induction ns generalizing a with
  | nil => contradiction
  | cons n ns ih =>
    by_cases hns : ns = []
    · subst hns
      have hn := h n (by simp)
      have hjoin : Path.joinNames [n] = n := by simp [Path.joinNames]
      rw [hjoin, String.toList_append, List.getLast?_append]
      cases hlast : n.toList.getLast? with
      | none => exact absurd (by simpa using hlast) hn.ne_empty
      | some c =>
        rintro hc
        cases hc
        exact hn.no_slash (List.mem_of_getLast? hlast)
    · rw [Path.joinNames_cons n hns, ← String.append_assoc]
      exact ih _ hns fun m hm => h m (by simp [hm])

theorem steps_append_slash (a : String) {ns : List String} (hne : ns ≠ []) (h : ∀ n ∈ ns, Path.IsName n) :
    steps (a ++ "/" ++ Path.joinNames ns) = chunks a ++ ns := by
  rw [steps_of_last (getLast?_append_joinNames _ hne h), chunks_append_slash, chunks_joinNames h]

theorem steps_ofNames {absolute : Bool} {ns : List String} (h : ∀ n ∈ ns, Path.IsName n) :
    steps (Path.ofNames absolute ns) = if ns = [] then ["."] else ns := by
  by_cases hns : ns = []
  · subst hns
    cases absolute <;> decide +kernel
  · rw [if_neg hns]
    cases absolute with
    | true => simpa [Path.ofNames] using steps_append_slash "" hns h
    | false =>
      have hlast := getLast?_append_joinNames "" hns h
      rw [String.empty_append] at hlast
      simpa [Path.ofNames, hns] using (steps_of_last hlast).trans (chunks_joinNames h)

def origin (fs : FileSystem) (absolute : Bool) : Location :=
  if absolute then [] else Path.names fs.workingDirectory

def reach (fs : FileSystem) (follow : Bool) (path : String) : Except Cause (Location × Entry) :=
  fs.resolveFrom follow linkLimit (fs.origin (Path.isAbsolute path)) (steps path)

structure Usable (path : String) : Prop where
  no_null : '\x00' ∉ path.toList
  ne_empty : path ≠ ""
  size_lt : path.utf8ByteSize < pathLimit

theorem resolve_eq {path : String} (hnull : '\x00' ∉ path.toList) (hne : path ≠ "") :
    fs.resolve follow path =
      if pathLimit ≤ path.utf8ByteSize then .error .nameTooLong else fs.reach follow path := by
  have hcontains : ¬ path.toList.contains '\x00' = true := by simpa using hnull
  rw [resolve, if_neg hcontains, if_neg hne]
  rfl

theorem resolve_of_usable {path : String} (h : Usable path) : fs.resolve follow path = fs.reach follow path := by
  rw [resolve_eq h.no_null h.ne_empty, if_neg (Nat.not_le.mpr h.size_lt)]

theorem resolve_eq_ok_iff {path : String} {x : Location × Entry} :
    fs.resolve follow path = .ok x ↔ Usable path ∧ fs.reach follow path = .ok x := by
  constructor
  · intro h
    have husable : Usable path := by
      unfold resolve at h
      split at h
      · cases h
      · rename_i hnull
        split at h
        · cases h
        · rename_i hempty
          split at h
          · cases h
          · rename_i hsize
            exact ⟨by simpa using hnull, hempty, Nat.not_le.mp hsize⟩
    exact ⟨husable, by rw [← resolve_of_usable husable, h]⟩
  · rintro ⟨husable, h⟩
    rw [resolve_of_usable husable, h]

theorem resolve_follow {path : String} {l' : Location} {e : Entry} (h : fs.resolve false path = .ok (l', e))
    (he : ∀ target, e ≠ .link target) : fs.resolve true path = .ok (l', e) := by
  obtain ⟨husable, hreach⟩ := resolve_eq_ok_iff.mp h
  exact resolve_eq_ok_iff.mpr ⟨husable, resolveFrom_follow hreach he⟩

theorem resolve_of_follow {path : String} {l' : Location} {e : Entry} (h : fs.resolve true path = .ok (l', e)) :
    fs.resolve false path = .ok (l', e) ∨ ∃ l₁ target, fs.resolve false path = .ok (l₁, .link target) := by
  obtain ⟨husable, hreach⟩ := resolve_eq_ok_iff.mp h
  rw [resolve_of_usable husable]
  exact resolveFrom_of_follow hreach

theorem reach_ofNames {absolute : Bool} {ns : List String} (h : ∀ n ∈ ns, Path.IsName n) :
    fs.reach follow (Path.ofNames absolute ns) =
      fs.resolveFrom follow linkLimit (fs.origin absolute) ns := by
  rw [reach, Path.isAbsolute_ofNames h, steps_ofNames h]
  by_cases hns : ns = []
  · subst hns
    exact resolveFrom_congr rfl
  · rw [if_neg hns]

theorem reach_append_slash {ns ms : List String} (hns : ∀ n ∈ ns, Path.IsName n) (hne : ms ≠ [])
    (hms : ∀ m ∈ ms, Path.IsName m) :
    fs.reach follow (Path.ofNames true ns ++ "/" ++ Path.joinNames ms) =
      fs.reach follow (Path.ofNames true (ns ++ ms)) := by
  have hboth : ∀ n ∈ ns ++ ms, Path.IsName n := by
    intro n hn
    rcases List.mem_append.mp hn with hn | hn
    · exact hns n hn
    · exact hms n hn
  have hchunks : chunks (Path.ofNames true ns) = ns := by
    simpa [Path.ofNames, chunks_joinNames hns] using chunks_append_slash "" (Path.joinNames ns)
  have habs : Path.isAbsolute (Path.ofNames true ns ++ "/" ++ Path.joinNames ms) = true := by
    rw [String.append_assoc, Path.isAbsolute_append _ (Path.ofNames_ne_empty hns),
      Path.isAbsolute_ofNames hns]
  rw [reach_ofNames hboth, reach, habs, steps_append_slash _ hne hms, hchunks]

theorem absolute?_eq (fs : FileSystem) (path : String) :
    fs.absolute? path =
      if Path.isAbsolute path || fs.workingPath.isSome then some (fs.absolute path) else none := by
  rw [absolute?, absolute, home, Path.absolute]
  cases habs : Path.isAbsolute path <;> cases fs.workingPath <;> simp [Path.absolute, habs]

theorem absolute?_eq_some {path full : String} (h : fs.absolute? path = some full) : full = fs.absolute path := by
  rw [absolute?_eq] at h
  split at h
  · exact (Option.some.inj h).symm
  · cases h

theorem Sound.absolute?_eq (h : fs.Sound) (path : String) : fs.absolute? path = some (fs.absolute path) := by
  simp [FileSystem.absolute?_eq, h.known]

theorem Sound.home_eq (h : fs.Sound) : fs.home = fs.workingDirectory := by simp [home, h.known]

theorem Proper.isAbsolute_absolute (h : fs.Proper) (path : String) : Path.isAbsolute (fs.absolute path) = true :=
  Path.isAbsolute_absolute h.isAbsolute path

theorem Proper.clean_absolute (h : fs.Proper) (path : String) : Path.clean (fs.absolute path) = fs.absolute path :=
  Path.clean_absolute h.isAbsolute path

theorem Proper.absolute_clean (h : fs.Proper) (path : String) : fs.absolute (Path.clean path) = fs.absolute path :=
  Path.absolute_clean h.isAbsolute path

theorem Proper.not_mem_workingDirectory (h : fs.Proper) : ".." ∉ Path.names fs.workingDirectory :=
  fun hmem => (h.entryName_workingDirectory _ hmem).ne_parent rfl

/-- A shortest path leads where its absolute path leads: parents at its front lead up through real
directories, since the working directory is given by its real path. -/
theorem Sound.reach_absolute (h : fs.Sound) {path : String} (hclean : Path.clean path = path) :
    fs.reach follow (fs.absolute path) = fs.reach follow path := by
  cases ha : Path.isAbsolute path with
  | true => rw [absolute, Path.absolute, if_pos ha, hclean]
  | false =>
    obtain ⟨k, ds, hnames, hds, -⟩ := Path.normal_of_clean hclean
    set wd := Path.names fs.workingDirectory with hwd
    have habs : fs.absolute path = Path.ofNames true (wd.take (wd.length - k) ++ ds) := by
      rw [absolute, Path.absolute_eq h.isAbsolute, h.home_eq, ha, if_neg (by simp), hnames, ← List.append_assoc,
        Path.normalize_append_of_plain _ hds, Path.normalize_parents h.not_mem_workingDirectory]
    obtain ⟨entries, hentries⟩ := h.directory
    rw [← hwd, ← List.take_append_drop (wd.length - k) wd] at hentries
    obtain ⟨above, habove⟩ := exists_directory_of_append hentries
    have hup : ∀ n ∈ wd.take (wd.length - k), EntryName n :=
      fun n hn => h.entryName_workingDirectory n (List.mem_of_mem_take hn)
    have hdown : ∀ n ∈ ds, Path.IsName n := by
      intro n hn
      have hmem : n ∈ Path.names path := by simp [hnames, hn]
      exact Path.isName_of_mem_names hmem
    have hall : ∀ n ∈ wd.take (wd.length - k) ++ ds, Path.IsName n := by
      intro n hn
      rcases List.mem_append.mp hn with hn | hn
      · exact (hup n hn).toIsName
      · exact hdown n hn
    have hreach : fs.reach follow (Path.ofNames false (Path.names path)) =
        fs.resolveFrom follow linkLimit wd (Path.names path) :=
      reach_ofNames fun n hn => Path.isName_of_mem_names hn
    have hpath := Path.eq_ofNames_of_clean hclean
    rw [ha] at hpath
    rw [habs, reach_ofNames hall, hpath, hreach, hnames]
    apply resolveFrom_congr
    rw [advance_parents]
    exact advance_append (l := []) hup habove ds

end FileSystem
end FunctionLength
