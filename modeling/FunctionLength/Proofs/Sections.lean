import FunctionLength.Settings.Project
import Mathlib.Data.List.Basic

namespace FunctionLength.Settings
open FunctionLength.Text FunctionLength.Toml

def valuesOf (key : String) (t : Table) : List Value :=
  (t.filter fun e => equalFolded key e.1).map (·.2)

/-- What a key says in the entries of a section. If it is there in several spellings, the last one counts. -/
def said {α : Type} (read : Value → Option α) (key : String) (entries : Table) : Option α :=
  ((valuesOf key entries).filterMap read).getLast?

theorem said_append {α : Type} (read : Value → Option α) (key : String) (xs ys : Table) :
    said read key (xs ++ ys) = (said read key ys).or (said read key xs) := by
  simp [said, valuesOf, List.getLast?_append]

def Layer.onto (upper lower : Layer) : Layer where
  errorLimit := upper.errorLimit.or lower.errorLimit
  warningLimit := upper.warningLimit.or lower.warningLimit
  output := upper.output.or lower.output
  ignoredDirectories := upper.ignoredDirectories.or lower.ignoredDirectories
  ignoredFiles := upper.ignoredFiles.or lower.ignoredFiles

@[simp] theorem Layer.onto_empty (l : Layer) : l.onto {} = l := by simp [onto]

@[simp] theorem Layer.empty_onto (l : Layer) : ({} : Layer).onto l = l := by simp [onto]

theorem Layer.onto_assoc (a b c : Layer) : (a.onto b).onto c = a.onto (b.onto c) := by
  simp [onto, Option.or_assoc]

def layerFrom (entries : Table) : Layer where
  errorLimit := said integer "error_line_limit" entries
  warningLimit := said integer "warning_line_limit" entries
  output := said boolean "enable_output" entries
  ignoredDirectories := said texts "ignore_directories" entries
  ignoredFiles := said texts "ignore_files" entries

@[simp] theorem layerFrom_nil : layerFrom [] = {} := rfl

theorem layerFrom_append (xs ys : Table) : layerFrom (xs ++ ys) = (layerFrom ys).onto (layerFrom xs) := by
  simp [layerFrom, Layer.onto, said_append]

def Readable {α : Type} (read : Value → Option α) (key : String) (entries : Table) : Prop :=
  ∀ v ∈ valuesOf key entries, (read v).isSome

@[simp] theorem readable_nil {α : Type} (read : Value → Option α) (key : String) : Readable read key [] := by
  simp [Readable, valuesOf]

theorem readable_cons {α : Type} {read : Value → Option α} {key name : String} {v : Value} {entries : Table} :
    Readable read key ((name, v) :: entries) ↔
      (equalFolded key name = true → (read v).isSome) ∧ Readable read key entries := by
  by_cases h : equalFolded key name = true <;> simp [Readable, valuesOf, h]

@[mk_iff]
structure Typed (entries : Table) : Prop where
  errorLimit : Readable integer "error_line_limit" entries
  warningLimit : Readable integer "warning_line_limit" entries
  output : Readable boolean "enable_output" entries
  ignoredDirectories : Readable texts "ignore_directories" entries
  ignoredFiles : Readable texts "ignore_files" entries

theorem equalFolded_eq {key name : String} (h : equalFolded key name = true) (key' : String) :
    equalFolded key' name = equalFolded key' key := by
  have hname : key.toList.map folded = name.toList.map folded := by simpa [equalFolded] using h
  simp [equalFolded, hname]

theorem said_singleton {α : Type} (read : Value → Option α) (key name : String) (v : Value) :
    said read key [(name, v)] = if equalFolded key name then read v else none := by
  by_cases h : equalFolded key name = true
  · cases hread : read v <;> simp [said, valuesOf, h, hread]
  · simp [said, valuesOf, h]

def keys : List String :=
  ["error_line_limit", "warning_line_limit", "enable_output", "ignore_directories", "ignore_files"]

theorem equalFolded_keys : ∀ key ∈ keys, ∀ key' ∈ keys, equalFolded key key' = decide (key = key') := by
  decide +kernel

theorem set_eq_some_iff {l l' : Layer} {name : String} {v : Value} :
    l.set name v = some l' ↔ Typed [(name, v)] ∧ (layerFrom [(name, v)]).onto l = l' := by
  rw [typed_iff, Layer.set]
  simp only [readable_cons, readable_nil, and_true, layerFrom, said_singleton, Layer.onto]
  -- No two keys are spellings of each other, so at most one of the five tests holds.
  by_cases hkey : ∃ key ∈ keys, equalFolded key name = true
  · obtain ⟨key, hkey, hname⟩ := hkey
    have hother : ∀ key' ∈ keys, equalFolded key' name = decide (key' = key) := by
      intro key' hkey'
      rw [equalFolded_eq hname, equalFolded_keys key' hkey' key hkey]
    simp only [keys, List.forall_mem_cons, List.not_mem_nil, false_imp_iff, implies_true, and_true] at hother
    obtain ⟨herror, hwarning, houtput, hdirectories, hfiles⟩ := hother
    rw [herror, hwarning, houtput, hdirectories, hfiles]
    simp only [keys, List.mem_cons, List.not_mem_nil, or_false] at hkey
    rcases hkey with rfl | rfl | rfl | rfl | rfl
    · cases integer v <;> simp
    · cases integer v <;> simp
    · cases boolean v <;> simp
    · cases texts v <;> simp
    · cases texts v <;> simp
  · push Not at hkey
    simp only [keys, List.forall_mem_cons, List.not_mem_nil, false_imp_iff, implies_true, and_true] at hkey
    obtain ⟨herror, hwarning, houtput, hdirectories, hfiles⟩ := hkey
    simp [herror, hwarning, houtput, hdirectories, hfiles]

theorem readable_iff_forall {α : Type} {read : Value → Option α} {key : String} {entries : Table} :
    Readable read key entries ↔ ∀ e ∈ entries, Readable read key [e] := by
  induction entries with
  | nil => simp
  | cons e entries ih =>
    rw [List.forall_mem_cons, ← ih, readable_cons, readable_cons]
    simp

theorem typed_iff_forall {entries : Table} : Typed entries ↔ ∀ e ∈ entries, Typed [e] := by
  constructor
  · intro h e he
    constructor
    · exact readable_iff_forall.mp h.errorLimit e he
    · exact readable_iff_forall.mp h.warningLimit e he
    · exact readable_iff_forall.mp h.output e he
    · exact readable_iff_forall.mp h.ignoredDirectories e he
    · exact readable_iff_forall.mp h.ignoredFiles e he
  · intro h
    constructor <;> refine readable_iff_forall.mpr fun e he => ?_
    · exact (h e he).errorLimit
    · exact (h e he).warningLimit
    · exact (h e he).output
    · exact (h e he).ignoredDirectories
    · exact (h e he).ignoredFiles

theorem foldlM_eq_some_iff {α β : Type} {step : β → α → Option β} {p : α → Prop} {next : β → α → β}
    (h : ∀ x b b', step b x = some b' ↔ p x ∧ next b x = b') (xs : List α) (b b' : β) :
    xs.foldlM step b = some b' ↔ (∀ x ∈ xs, p x) ∧ xs.foldl next b = b' := by
  induction xs generalizing b with
  | nil => simp
  | cons x xs ih =>
    simp only [List.foldlM_cons, Option.bind_eq_bind, Option.bind_eq_some_iff, h, ih, List.forall_mem_cons,
      List.foldl_cons]
    constructor
    · rintro ⟨c, ⟨hx, rfl⟩, hxs, hb⟩
      exact ⟨⟨hx, hxs⟩, hb⟩
    · rintro ⟨⟨hx, hxs⟩, hb⟩
      exact ⟨_, ⟨hx, rfl⟩, hxs, hb⟩

theorem foldl_layerFrom (entries : Table) (l : Layer) :
    entries.foldl (fun l e => (layerFrom [e]).onto l) l = (layerFrom entries).onto l := by
  induction entries generalizing l with
  | nil => simp
  | cons e entries ih =>
    rw [List.foldl_cons, ih, ← Layer.onto_assoc, ← layerFrom_append, List.singleton_append]

theorem layerOf_eq_some_iff {l l' : Layer} {entries : Table} :
    layerOf l entries = some l' ↔ Typed entries ∧ (layerFrom entries).onto l = l' := by
  have hstep : layerOf l entries = entries.foldlM (fun l e => l.set e.1 e.2) l := rfl
  have hset : ∀ (e : String × Value) (l l' : Layer),
      l.set e.1 e.2 = some l' ↔ Typed [e] ∧ (layerFrom [e]).onto l = l' := fun _ _ _ => set_eq_some_iff
  rw [hstep, foldlM_eq_some_iff hset, foldl_layerFrom, typed_iff_forall]

def table? : Value → Option Table
  | .table t => some t
  | _ => none

def tablesOf (key : String) (t : Table) : List Table := (valuesOf key t).filterMap table?

theorem foldlM_tablesOf {β : Type} (key : String) (visit : β → Table → Option β) (t : Table) (b b' : β) :
    t.foldlM (fun b e => if equalFolded key e.1 then (table? e.2).bind (visit b) else some b) b = some b' ↔
      Readable table? key t ∧ (tablesOf key t).foldlM visit b = some b' := by
  induction t generalizing b with
  | nil => simp [tablesOf, valuesOf]
  | cons e t ih =>
    obtain ⟨name, v⟩ := e
    rw [List.foldlM_cons, readable_cons]
    by_cases hname : equalFolded key name = true
    · have htables : tablesOf key ((name, v) :: t) = (table? v).toList ++ tablesOf key t := by
        cases hv : table? v <;> simp [tablesOf, valuesOf, hname, hv]
      rw [htables, if_pos hname]
      cases table? v with
      | none => simp [hname]
      | some u =>
        simp only [Option.bind_eq_bind, Option.bind_some, Option.bind_eq_some_iff, ih, Option.toList_some,
          List.singleton_append, List.foldlM_cons, Option.isSome_some, implies_true, true_and]
        grind
    · have htables : tablesOf key ((name, v) :: t) = tablesOf key t := by simp [tablesOf, valuesOf, hname]
      simp [hname, ih, htables]

def stack (l : Option Layer) (sections : List Table) : Option Layer :=
  sections.foldl (fun l t => some ((layerFrom t).onto (l.getD {}))) l

theorem stack_some (l : Layer) (sections : List Table) :
    stack (some l) sections = some ((layerFrom sections.flatten).onto l) := by
  induction sections generalizing l with
  | nil => simp [stack]
  | cons t sections ih =>
    have hstep : stack (some l) (t :: sections) = stack (some ((layerFrom t).onto l)) sections := rfl
    rw [hstep, ih, List.flatten_cons, layerFrom_append, Layer.onto_assoc]

theorem stack_none {sections : List Table} (h : sections ≠ []) :
    stack none sections = some (layerFrom sections.flatten) := by
  cases sections with
  | nil => contradiction
  | cons t sections =>
    have hstep : stack none (t :: sections) = stack (some ((layerFrom t).onto {})) sections := rfl
    rw [hstep, stack_some, List.flatten_cons, layerFrom_append, Layer.onto_empty]

theorem layerOfTools_eq_some_iff {l l' : Option Layer} {tools : Table} :
    layerOfTools l tools = some l' ↔
      (Readable table? sectionName tools ∧ ∀ t ∈ tablesOf sectionName tools, Typed t) ∧
        stack l (tablesOf sectionName tools) = l' := by
  have hstep : layerOfTools l tools = tools.foldlM (fun l e =>
      if equalFolded sectionName e.1 then
        (table? e.2).bind fun t => (layerOf (l.getD {}) t).map some
      else some l) l := by
    unfold layerOfTools
    congr 1
    funext l ⟨name, v⟩
    cases v <;> rfl
  have hsection : ∀ t (l l' : Option Layer),
      (layerOf (l.getD {}) t).map some = some l' ↔ Typed t ∧ some ((layerFrom t).onto (l.getD {})) = l' := by
    intro t l l'
    simp only [Option.map_eq_some_iff, layerOf_eq_some_iff]
    grind
  rw [hstep, foldlM_tablesOf, foldlM_eq_some_iff hsection, and_assoc, stack]

def sections (document : Table) : List Table :=
  (tablesOf "tool" document).flatMap (tablesOf sectionName)

/-- All that matters in a document has the right type. -/
structure WellTyped (document : Table) : Prop where
  tools : Readable table? "tool" document
  tables : ∀ tools ∈ tablesOf "tool" document, Readable table? sectionName tools
  entries : ∀ entries ∈ sections document, Typed entries

theorem layerOfDocument_eq_some_iff {l : Option Layer} {document : Table} :
    layerOfDocument document = some l ↔ WellTyped document ∧ stack none (sections document) = l := by
  have hstep : layerOfDocument document = document.foldlM (fun l e =>
      if equalFolded "tool" e.1 then (table? e.2).bind (layerOfTools l) else some l) none := by
    unfold layerOfDocument
    congr 1
    funext l ⟨name, v⟩
    cases v <;> rfl
  have hstack : (tablesOf "tool" document).foldl (fun l tools => stack l (tablesOf sectionName tools)) none =
      stack none (sections document) := by
    simp only [stack, sections, List.foldl_flatMap]
  have htools : ∀ tools (l l' : Option Layer),
      layerOfTools l tools = some l' ↔
        (Readable table? sectionName tools ∧ ∀ t ∈ tablesOf sectionName tools, Typed t) ∧
          stack l (tablesOf sectionName tools) = l' := fun _ _ _ => layerOfTools_eq_some_iff
  rw [hstep, foldlM_tablesOf, foldlM_eq_some_iff htools, hstack]
  constructor
  · rintro ⟨htools, hsections, hl⟩
    refine ⟨⟨htools, fun tools h => (hsections tools h).1, fun entries h => ?_⟩, hl⟩
    obtain ⟨tools, ht, hentries⟩ := List.mem_flatMap.mp h
    exact (hsections tools ht).2 entries hentries
  · rintro ⟨⟨htools, hsections, hentries⟩, hl⟩
    refine ⟨htools, fun tools h => ⟨hsections tools h, fun t ht => ?_⟩, hl⟩
    exact hentries t (List.mem_flatMap.mpr ⟨tools, h, ht⟩)

def Decodes (fs : FileSystem) (path : String) (entries : Table) : Prop :=
  ∃ content document, fs.readFile path = .ok content ∧ Toml.read? content = some document ∧
    WellTyped document ∧ sections document ≠ [] ∧ (sections document).flatten = entries

theorem loadLayer_eq_ok_iff {fs : FileSystem} {path : String} {l : Layer} :
    loadLayer fs path = .ok l ↔ ∃ entries, Decodes fs path entries ∧ layerFrom entries = l := by
  unfold loadLayer
  constructor
  · intro h
    split at h
    · cases h
    · rename_i content hcontent
      split at h
      · cases h
      · rename_i document hdocument
        split at h
        · cases h
        · cases h
        · rename_i l' hl
          obtain ⟨htyped, hstack⟩ := layerOfDocument_eq_some_iff.mp hl
          have hne : sections document ≠ [] := by
            intro hnil
            rw [hnil] at hstack
            cases hstack
          rw [stack_none hne] at hstack
          refine ⟨_, ⟨content, document, hcontent, hdocument, htyped, hne, rfl⟩, ?_⟩
          exact (Option.some.inj hstack).trans (Except.ok.inj h)
  · rintro ⟨entries, ⟨content, document, hcontent, hdocument, htyped, hne, rfl⟩, rfl⟩
    have hlayer := layerOfDocument_eq_some_iff.mpr ⟨htyped, stack_none hne⟩
    simp only [hcontent, hdocument, hlayer]

end FunctionLength.Settings
