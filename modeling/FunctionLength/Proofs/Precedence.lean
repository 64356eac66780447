import FunctionLength.CommandLine.Program
import FunctionLength.Proofs.Sections

/-!
Which settings hold. A flag that is given comes before the project file, and this before what is built in, each
setting on its own. The file counts as a whole or not at all.
-/

namespace FunctionLength.CommandLine
open FunctionLength.Settings FunctionLength.Toml

/-- The flags that a command line sets by name, in order. What letters can set is no part of the settings. -/
def given : List String → List (Flag × String)
  | [] => []
  | argument :: rest =>
    match Argument.ofText argument with
    | .word => given rest
    | .endOfFlags => []
    | .malformed => []
    | .letters _ => given rest
    | .named name value =>
      match Flag.ofName? (String.ofList name) with
      | none => []
      | some flag =>
        match Options.ownValue? flag value with
        | some value => (flag, value) :: given rest
        | none =>
          match rest with
          | [] => []
          | value :: rest => (flag, value) :: given rest

def lastText (flag : Flag) (given : List (Flag × String)) : Option String :=
  ((given.filter (·.1 = flag)).map (·.2)).getLast?

theorem lastText_cons_self (flag : Flag) (value : String) (given : List (Flag × String)) :
    lastText flag ((flag, value) :: given) = some ((lastText flag given).getD value) := by
  simp [lastText, List.getLast?_cons]

theorem lastText_cons_of_ne {flag f : Flag} (h : f ≠ flag) (value : String) (given : List (Flag × String)) :
    lastText flag ((f, value) :: given) = lastText flag given := by
  simp [lastText, h]

theorem bind_eq_ok {ε α β : Type} {x : Except ε α} {f : α → Except ε β} {b : β} (h : x >>= f = .ok b) :
    ∃ a, x = .ok a ∧ f a = .ok b := by
  cases x with
  | error e => cases h
  | ok a => exact ⟨a, rfl, h⟩

theorem map_eq_ok {ε α β : Type} {x : Except ε α} {f : α → β} {b : β} (h : x.map f = .ok b) :
    ∃ a, x = .ok a ∧ f a = b := by
  cases x with
  | error e => cases h
  | ok a => exact ⟨a, rfl, Except.ok.inj h⟩

namespace Options

inductive Assigned (o : Options) (value : String) : Flag → Options → Prop where
  | config : Assigned o value .config { o with config := value }
  | logLevel : Assigned o value .logLevel { o with logLevel := value }
  | ignoreTest {b : Bool} (h : readSwitch value = .ok b) : Assigned o value .ignoreTest { o with ignoreTests := b }
  | lineLimit {n : Int64} (h : readInteger value = .ok n) : Assigned o value .lineLimit { o with lineLimit := some n }
  | warningLineLimit {n : Int64} (h : readInteger value = .ok n) :
    Assigned o value .warningLineLimit { o with warningLineLimit := some n }
  | disableOutput {b : Bool} (h : readSwitch value = .ok b) :
    Assigned o value .disableOutput { o with disableOutput := some b }
  | help {b : Bool} (h : readSwitch value = .ok b) : Assigned o value .help { o with help := b }

theorem assigned_of_set {o o' : Options} {flag : Flag} {value : String} (h : o.set flag value = .ok o') :
    Assigned o value flag o' := by
  have ha : o.assign value flag = .ok o' := by
    cases ha : o.assign value flag with
    | error e => rw [set, ha] at h; cases h
    | ok o₁ => rw [set, ha] at h; exact congrArg _ (Except.ok.inj h)
  cases flag with
  | config => cases ha; exact .config
  | logLevel => cases ha; exact .logLevel
  | ignoreTest => obtain ⟨b, hb, rfl⟩ := map_eq_ok ha; exact .ignoreTest hb
  | lineLimit => obtain ⟨n, hn, rfl⟩ := map_eq_ok ha; exact .lineLimit hn
  | warningLineLimit => obtain ⟨n, hn, rfl⟩ := map_eq_ok ha; exact .warningLineLimit hn
  | disableOutput => obtain ⟨b, hb, rfl⟩ := map_eq_ok ha; exact .disableOutput hb
  | help => obtain ⟨b, hb, rfl⟩ := map_eq_ok ha; exact .help hb

/-- A part of the options holds what a flag was set to, and no other flag changes it. -/
structure Tracks {α : Type} (flag : Flag) (read : String → Except ValueError α) (get : Options → Option α) :
    Prop where
  letter : flag.letter? = none
  own : ∀ {o o' : Options} {value : String}, Assigned o value flag o' → (get o').map .ok = some (read value)
  other : ∀ {o o' : Options} {f : Flag} {value : String}, f ≠ flag → Assigned o value f o' → get o' = get o

theorem tracks_lineLimit : Tracks .lineLimit readInteger lineLimit where
  letter := rfl
  own h := by cases h with | lineLimit hn => simp [hn]
  other hf h := by cases h with | lineLimit => contradiction | _ => rfl

theorem tracks_warningLineLimit : Tracks .warningLineLimit readInteger warningLineLimit where
  letter := rfl
  own h := by cases h with | warningLineLimit hn => simp [hn]
  other hf h := by cases h with | warningLineLimit => contradiction | _ => rfl

theorem tracks_disableOutput : Tracks .disableOutput readSwitch disableOutput where
  letter := rfl
  own h := by cases h with | disableOutput hb => simp [hb]
  other hf h := by cases h with | disableOutput => contradiction | _ => rfl

namespace Tracks

variable {α : Type} {flag : Flag} {read : String → Except ValueError α} {get : Options → Option α}

theorem setLetters (h : Tracks flag read get) {o o' : Options} {cs : List Char} (hset : o.setLetters cs = .ok o') :
    get o' = get o := by
  -- A flag without a letter is not found by one.
  have hother : ∀ {c f}, Flag.ofLetter? c = some f → f ≠ flag := by
    rintro c f hf rfl
    rw [Flag.ofLetter?] at hf
    have hletter := List.find?_some hf
    simp [h.letter] at hletter
  fun_induction Options.setLetters o cs with
  | case1 => cases hset; rfl
  | case2 => cases hset
  | case3 o c f d value hf => exact h.other (hother hf) (assigned_of_set hset)
  | case4 o c f rest _ hf ih =>
    obtain ⟨o₁, hfirst, hrest⟩ := bind_eq_ok hset
    rw [ih o₁ hrest, h.other (hother hf) (assigned_of_set hfirst)]

theorem set_then (h : Tracks flag read get) {o o₁ o' : Options} {f : Flag} {value : String}
    {later : List (Flag × String)} (hset : o.set f value = .ok o₁)
    (hlater : (get o').map .ok = ((lastText flag later).map read).or ((get o₁).map .ok)) :
    (get o').map .ok = ((lastText flag ((f, value) :: later)).map read).or ((get o).map .ok) := by
  by_cases hf : f = flag
  · subst hf
    rw [hlater, h.own (assigned_of_set hset), lastText_cons_self]
    cases lastText f later <;> rfl
  · rw [hlater, h.other hf (assigned_of_set hset), lastText_cons_of_ne hf]

/-- After the flags of a command line are read, the last setting of a flag is what holds. -/
theorem ofRead (h : Tracks flag read get) {o o' : Options} {arguments words : List String}
    (hread : o.read arguments = .ok (o', words)) :
    (get o').map .ok = ((lastText flag (given arguments)).map read).or ((get o).map .ok) := by
  fun_induction Options.read o arguments generalizing words with
  | case1 o =>
    cases hread
    rfl
  | case2 o argument rest hargument ih =>
    obtain ⟨⟨o₁, words₁⟩, hrest, hwords⟩ := map_eq_ok hread
    cases hwords
    rw [given, hargument]
    exact ih hrest
  | case3 o argument rest hargument =>
    cases hread
    rw [given, hargument]
    rfl
  | case4 => cases hread
  | case5 o argument rest cs hargument ih =>
    obtain ⟨o₁, hletters, hrest⟩ := bind_eq_ok hread
    rw [given, hargument, ← h.setLetters hletters]
    exact ih o₁ hrest
  | case6 => cases hread
  | case7 o argument rest name value hargument f hf text htext ih =>
    obtain ⟨o₁, hset, hrest⟩ := bind_eq_ok hread
    simp only [given, hargument, hf, htext]
    exact h.set_then hset (ih o₁ hrest)
  | case8 => cases hread
  | case9 o argument name value hargument f hf htext text rest ih =>
    obtain ⟨o₁, hset, hrest⟩ := bind_eq_ok hread
    simp only [given, hargument, hf, htext]
    exact h.set_then hset (ih o₁ hrest)

end Tracks

def merged (o : Options) (entries : Table) : Settings where
  errorLimit := (o.lineLimit.or (said integer "error_line_limit" entries)).getD builtIn.errorLimit
  warningLimit := (o.warningLineLimit.or (said integer "warning_line_limit" entries)).getD builtIn.warningLimit
  output := ((o.disableOutput.map (!·)).or (said boolean "enable_output" entries)).getD builtIn.output
  ignoredDirectories := (said texts "ignore_directories" entries).getD builtIn.ignoredDirectories
  ignoredFiles := (said texts "ignore_files" entries).getD builtIn.ignoredFiles

theorem merged_eq_apply (o : Options) (entries : Table) :
    o.merged entries = (builtIn.apply (layerFrom entries)).apply o.layer := by
  simp [merged, Settings.apply, layer, layerFrom, Option.getD_or]

theorem resolve_of_decodes {o : Options} {fs : FileSystem} {entries : Table} (h : Decodes fs o.config entries) :
    (o.resolve fs).settings = o.merged entries ∧ (o.resolve fs).source = some o.config := by
  have hlayer := loadLayer_eq_ok_iff.mpr ⟨entries, h, rfl⟩
  have hload : load fs o.config = .ok (builtIn.apply (layerFrom entries)) := by rw [load, hlayer]
  rw [resolve, hload]
  exact ⟨(o.merged_eq_apply entries).symm, rfl⟩

theorem resolve_of_not_decodes {o : Options} {fs : FileSystem} (h : ∀ entries, ¬ Decodes fs o.config entries) :
    (o.resolve fs).settings = o.merged [] ∧ (o.resolve fs).source = none := by
  cases hlayer : loadLayer fs o.config with
  | ok l =>
    obtain ⟨entries, hentries, -⟩ := loadLayer_eq_ok_iff.mp hlayer
    exact absurd hentries (h entries)
  | error cause =>
    have hload : load fs o.config = .error ⟨o.config, cause⟩ := by rw [load, hlayer]
    rw [resolve, hload]
    exact ⟨(o.merged_eq_apply []).symm, rfl⟩

def projectFile (text : String) : FileSystem where
  root := [("pyproject.toml", .file text.toUTF8)]
  workingDirectory := "/"

def projectText : String :=
  "[tool.FunctionLengthAnalyzer]\nerror_line_limit = 10\nenable_output = false\nignore_files = []\n"

def spoiltText : String := "[tool.FunctionLengthAnalyzer]\nerror_line_limit = 10\nenable_output = 1\n"

theorem readFile_projectFile (text : String) : (projectFile text).readFile "pyproject.toml" = .ok text.toUTF8 := by
  have hnul : "pyproject.toml".toList.contains '\x00' = false := by decide +kernel
  have hlimit : ¬ FileSystem.pathLimit ≤ "pyproject.toml".utf8ByteSize := by decide +kernel
  have hshort : ¬ 255 < "pyproject.toml".utf8ByteSize := by decide +kernel
  have hrelative : Path.isAbsolute "pyproject.toml" = false := by decide +kernel
  have hstart : Path.names (projectFile text).workingDirectory = [] := by
    rw [show (projectFile text).workingDirectory = "/" from rfl]
    decide +kernel
  have hsteps : FileSystem.steps "pyproject.toml" = ["pyproject.toml"] := by decide +kernel
  have harrived : (projectFile text).advance true [] ["pyproject.toml"] =
      .arrived ["pyproject.toml"] (.file text.toUTF8) := by
    simp [FileSystem.advance, projectFile, FileSystem.directoryAt?, FileSystem.at?, FileSystem.Entries.at?, hshort]
  have hfrom : (projectFile text).resolveFrom true FileSystem.linkLimit [] ["pyproject.toml"] =
      .ok (["pyproject.toml"], .file text.toUTF8) := by rw [FileSystem.resolveFrom, harrived]
  have hresolve : (projectFile text).resolve true "pyproject.toml" =
      .ok (["pyproject.toml"], .file text.toUTF8) := by
    simp only [FileSystem.resolve, hnul, hlimit, hrelative, hstart, hsteps]
    simpa using hfrom
  rw [FileSystem.readFile, hresolve]
  rfl

theorem fromUTF8?_toUTF8 (text : String) : String.fromUTF8? text.toUTF8 = some text := by
  simp only [String.fromUTF8?, String.toUTF8_eq_toByteArray, text.isValidUTF8, dite_true]
  rfl

theorem loadLayer_projectFile {text : String} {l : Layer} :
    loadLayer (projectFile text) "pyproject.toml" = .ok l ↔
      (Toml.read? text.toUTF8).bind layerOfDocument = some (some l) := by
  simp only [loadLayer, readFile_projectFile]
  cases Toml.read? text.toUTF8 with
  | none => simp
  | some document =>
    simp only [Option.bind_some]
    cases layerOfDocument document with
    | none => simp
    | some found => cases found <;> simp

theorem exists_decodes_projectText : ∃ entries, Decodes (projectFile projectText) "pyproject.toml" entries ∧
    layerFrom entries = { errorLimit := some 10, output := some false, ignoredFiles := some [] } := by
  refine loadLayer_eq_ok_iff.mp (loadLayer_projectFile.mpr ?_)
  -- The bytes are taken back to the text first, since checking them by evaluation is far too slow.
  rw [Toml.read?, Read.document, fromUTF8?_toUTF8]
  decide +kernel

theorem not_decodes_spoiltText (entries : Table) : ¬ Decodes (projectFile spoiltText) "pyproject.toml" entries := by
  intro h
  have hlayer := loadLayer_projectFile.mp (loadLayer_eq_ok_iff.mpr ⟨entries, h, rfl⟩)
  have hnone : (Toml.read? spoiltText.toUTF8).bind layerOfDocument = none := by
    rw [Toml.read?, Read.document, fromUTF8?_toUTF8]
    decide +kernel
  rw [hnone] at hlayer
  cases hlayer

end Options
end FunctionLength.CommandLine
