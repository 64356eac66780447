import FunctionLength.Proofs.Notices

/-!
Notices that come one soon after the other. A change of attributes is not reported, but it counts as the last
notice about its path, so it hides what happens to this path in the pause that follows.
-/

namespace FunctionLength.Watch
open FunctionLength.FileSystem

namespace Delivery

def path (a : Delivery) : String := a.notice.path

def isSilent (a : Delivery) : Bool := a.notice.operation = .setAttributes

def isNewDirectory (a : Delivery) : Bool := (a.notice.newDirectory? a.fs).isSome

theorem isNewDirectory_of_isSilent {a : Delivery} (h : a.isSilent = true) : a.isNewDirectory = false := by
  have hop : a.notice.operation = .setAttributes := of_decide_eq_true h
  rw [isNewDirectory, Notice.newDirectory?_of_ne_create (by simp [hop])]
  rfl

/-- The later one is no sooner than a pause after the earlier one, if this is silent and hides it otherwise. -/
def Spaced (a b : Delivery) : Prop :=
  a.isSilent = true → b.isSilent = false → b.path = a.path → a.time + pause ≤ b.time

end Delivery

namespace Loop

def isPaused (loop : Loop) (path : String) (time : Nat) : Bool :=
  (loop.seen.lookup path).any fun last => time - last < pause

theorem receive_eq (ignored : List String) (a : Delivery) (loop : Loop) :
    receive ignored a.fs a.time a.notice loop =
      if a.isNewDirectory || Path.mentions ignored (Path.directory a.path) || loop.isPaused a.path a.time then
        (loop, none)
      else loop.count a.notice.operation a.path a.time := by
  unfold receive
  change (if a.isNewDirectory || Path.mentions ignored (Path.directory a.path) then _ else _) = _
  cases a.isNewDirectory || Path.mentions ignored (Path.directory a.path) with
  | true => simp
  | false =>
    cases hlast : loop.seen.lookup a.path with
    | none => simp [show a.notice.path = a.path from rfl, isPaused, hlast]
    | some last => simp [show a.notice.path = a.path from rfl, isPaused, hlast]

theorem lookup_filter_ne {path p : String} (h : p ≠ path) (seen : List (String × Nat)) :
    (seen.filter (·.1 ≠ path)).lookup p = seen.lookup p := by
  induction seen with
  | nil => rfl
  | cons x seen ih =>
    obtain ⟨q, last⟩ := x
    by_cases hq : q = path
    · subst hq
      simpa [List.lookup_cons, beq_false_of_ne h] using ih
    · by_cases hpq : p = q
      · simp [hpq, hq]
      · simpa [hq, List.lookup_cons, beq_false_of_ne hpq] using ih

theorem lookup_count (loop : Loop) (op : Operation) (path : String) (time : Nat) (p : String) :
    (loop.count op path time).1.seen.lookup p = if p = path then some time else loop.seen.lookup p := by
  by_cases h : p = path
  · simp [count, h]
  · rw [if_neg h, ← lookup_filter_ne h loop.seen]
    simp [count, List.lookup_cons, beq_false_of_ne h]

/-- A loop that has got all notices beside one that has got none that are silent, before further ones arrive.
Where they know different times of a path, the first one has counted a silent notice, and it is over for all
that is still to be reported. -/
def Beside (rest : List Delivery) (loop loop' : Loop) : Prop :=
  ∀ p, loop.seen.lookup p = loop'.seen.lookup p ∨
    ∃ t, loop.seen.lookup p = some t ∧ (∀ last, loop'.seen.lookup p = some last → last + pause ≤ t) ∧
      ∀ a ∈ rest, a.isSilent = false → a.path = p → t + pause ≤ a.time

namespace Beside

variable {a : Delivery} {rest : List Delivery} {loop loop' : Loop}

theorem tail (h : Beside (a :: rest) loop loop') : Beside rest loop loop' := by
  refine fun p => (h p).imp_right ?_
  rintro ⟨t, ht, hlast, hrest⟩
  exact ⟨t, ht, hlast, fun b hb => hrest b (List.mem_cons_of_mem a hb)⟩

theorem isPaused_eq (h : Beside (a :: rest) loop loop') (ha : a.isSilent = false) :
    loop.isPaused a.path a.time = loop'.isPaused a.path a.time := by
  rcases h a.path with heq | ⟨t, ht, hlast, hrest⟩
  · simp only [isPaused, heq]
  · have hover := hrest a (by simp) ha rfl
    have hfull : loop.isPaused a.path a.time = false := by
      simp only [isPaused, ht, Option.any_some, decide_eq_false_iff_not]
      omega
    have hpart : loop'.isPaused a.path a.time = false := by
      cases hs : loop'.seen.lookup a.path with
      | none => simp [isPaused, hs]
      | some last =>
        have hbefore := hlast last hs
        simp only [isPaused, hs, Option.any_some, decide_eq_false_iff_not]
        omega
    rw [hfull, hpart]

theorem count (h : Beside rest loop loop') (op : Operation) (path : String) (time : Nat) :
    Beside rest (loop.count op path time).1 (loop'.count op path time).1 := by
  intro p
  rw [lookup_count, lookup_count]
  by_cases hp : p = path
  · simp [hp]
  · simpa only [if_neg hp] using h p

theorem receive (h : Beside (a :: rest) loop loop') (ha : a.isSilent = false) (ignored : List String) :
    Beside rest (receive ignored a.fs a.time a.notice loop).1 (receive ignored a.fs a.time a.notice loop').1 ∧
      (receive ignored a.fs a.time a.notice loop).2 = (receive ignored a.fs a.time a.notice loop').2 := by
  rw [receive_eq, receive_eq, h.isPaused_eq ha]
  split
  · exact ⟨h.tail, rfl⟩
  · exact ⟨h.tail.count _ _ _, rfl⟩

/-- What is silent can be left out for the second loop. -/
theorem receive_silent (h : Beside (a :: rest) loop loop') (ha : a.isSilent = true)
    (hspaced : ∀ b ∈ rest, a.Spaced b) (ignored : List String) :
    Beside rest (Loop.receive ignored a.fs a.time a.notice loop).1 loop' ∧
      (Loop.receive ignored a.fs a.time a.notice loop).2 = none := by
  rw [receive_eq, Delivery.isNewDirectory_of_isSilent ha]
  split
  · exact ⟨h.tail, rfl⟩
  · rename_i hcounts
    have hop : a.notice.operation = .setAttributes := of_decide_eq_true ha
    refine ⟨fun p => ?_, by simp [Loop.count, hop]⟩
    rw [lookup_count]
    by_cases hp : p = a.path
    · subst hp
      rw [if_pos rfl]
      refine Or.inr ⟨a.time, rfl, fun last hlast => ?_, fun b hb => hspaced b hb ha⟩
      -- It counts, so what the second loop knows of the path is at least a pause older.
      have hpause : 0 < pause := by decide
      have hcounts : loop.isPaused a.path a.time = false :=
        (Bool.or_eq_false_iff.mp (Bool.not_eq_true _ ▸ hcounts)).2
      rcases h a.path with heq | ⟨t, ht, hbefore, -⟩
      · simp only [isPaused, heq, hlast, Option.any_some, decide_eq_false_iff_not] at hcounts
        omega
      · have hearlier := hbefore last hlast
        simp only [isPaused, ht, Option.any_some, decide_eq_false_iff_not] at hcounts
        omega
    · simpa only [if_neg hp] using h.tail p

end Beside

section Reports

variable {ignored : List String} {loop : Loop}

theorem receiveEach_filter {deliveries : List Delivery} (hspaced : deliveries.Pairwise Delivery.Spaced)
    {loop loop' : Loop} (h : Beside deliveries loop loop') :
    (receiveEach ignored (deliveries.filter fun a => !a.isSilent) loop').2 =
      (receiveEach ignored deliveries loop).2 := by
  induction deliveries generalizing loop loop' with
  | nil => rfl
  | cons a rest ih =>
    obtain ⟨hfirst, hrest⟩ := List.pairwise_cons.mp hspaced
    rw [receiveEach_cons]
    cases ha : a.isSilent with
    | true =>
      obtain ⟨hnext, hnone⟩ := h.receive_silent ha hfirst ignored
      rw [List.filter_cons_of_neg (by simp [ha]), ih hrest hnext, hnone]
      rfl
    | false =>
      obtain ⟨hnext, hsame⟩ := h.receive ha ignored
      rw [List.filter_cons_of_pos (by simp [ha]), receiveEach_cons, ih hrest hnext, hsame]

theorem receive_of_counts {a : Delivery} (hnew : a.isNewDirectory = false)
    (hignored : Path.mentions ignored (Path.directory a.path) = false)
    (hcounts : loop.isPaused a.path a.time = false) :
    receive ignored a.fs a.time a.notice loop = loop.count a.notice.operation a.path a.time := by
  rw [receive_eq, hnew, hignored, hcounts]
  rfl

/-- A silent notice that counts takes what comes in the pause after it for a repetition. -/
theorem hidden_by_silent {a b : Delivery} (ha : a.isSilent = true) (hb : b.isSilent = false)
    (hnew : b.isNewDirectory = false) (hpath : b.path = a.path)
    (hignored : Path.mentions ignored (Path.directory a.path) = false)
    (hcounts : loop.isPaused a.path a.time = false) (hafter : a.time ≤ b.time) (hsoon : b.time < a.time + pause) :
    (receiveEach ignored [a, b] loop).2 = [] ∧ (receiveEach ignored [b] loop).2 = [b.path] := by
  have hop : a.notice.operation = .setAttributes := of_decide_eq_true ha
  have hopb : b.notice.operation ≠ .setAttributes := of_decide_eq_false hb
  have hfirst := receive_of_counts (Delivery.isNewDirectory_of_isSilent ha) hignored hcounts
  have hhidden : (loop.count a.notice.operation a.path a.time).1.isPaused b.path b.time = true := by
    rw [isPaused, lookup_count, if_pos hpath]
    simp only [Option.any_some, decide_eq_true_eq]
    omega
  have hshown : loop.isPaused b.path b.time = false := by
    rw [hpath]
    cases hlast : loop.seen.lookup a.path with
    | none => simp [isPaused, hlast]
    | some last =>
      simp only [isPaused, hlast, Option.any_some, decide_eq_false_iff_not] at hcounts ⊢
      omega
  constructor
  · rw [receiveEach_cons, receiveEach_cons, hfirst, receive_eq, hhidden]
    simp [count, hop, receiveEach]
  · rw [receiveEach_cons, receive_of_counts hnew (hpath ▸ hignored) hshown]
    simp [count, hopb, receiveEach]

end Reports

/-- What is reported does not depend on changes of attributes, as long as each of them is a pause away from what
is still to be reported about its path. Where one counts and is closer, it hides the next report. -/
theorem reports_without_silent (ignored : List String) (loop : Loop) :
    (∀ deliveries : List Delivery, deliveries.Pairwise Delivery.Spaced →
      (receiveEach ignored (deliveries.filter fun a => !a.isSilent) loop).2 =
        (receiveEach ignored deliveries loop).2) ∧
    ∀ a b : Delivery, a.isSilent = true → b.isSilent = false → b.isNewDirectory = false → b.path = a.path →
      Path.mentions ignored (Path.directory a.path) = false → loop.isPaused a.path a.time = false →
      a.time ≤ b.time → b.time < a.time + pause →
      (receiveEach ignored [a, b] loop).2 = [] ∧
        (receiveEach ignored ([a, b].filter fun a => !a.isSilent) loop).2 = [b.path] := by
  refine ⟨fun deliveries hspaced => receiveEach_filter hspaced fun p => Or.inl rfl, ?_⟩
  intro a b ha hb hnew hpath hignored hcounts hafter hsoon
  have hrest : [a, b].filter (fun a => !a.isSilent) = [b] := by simp [ha, hb]
  rw [hrest]
  exact hidden_by_silent ha hb hnew hpath hignored hcounts hafter hsoon

def savedFile (gap : Nat) : List Delivery :=
  let fs : FileSystem := { root := [("w", .directory [("a.py", .file ByteArray.empty)])], workingDirectory := "/" }
  [⟨0, fs, ⟨.setAttributes, "/w/a.py"⟩⟩, ⟨gap, fs, ⟨.write, "/w/a.py"⟩⟩]

theorem reports_without_silent_savedFile :
    (receiveEach [".git"] (savedFile 50) {}).2 = ["/w/a.py"] ∧
      (receiveEach [".git"] (savedFile 49) {}).2 = [] ∧
      (receiveEach [".git"] ((savedFile 49).filter fun a => !a.isSilent) {}).2 = ["/w/a.py"] := by
  obtain ⟨hspaced, hsoon⟩ := reports_without_silent [".git"] {}
  constructor
  · have hgap : (savedFile 50).Pairwise Delivery.Spaced := by simp [savedFile, Delivery.Spaced, pause]
    rw [← hspaced (savedFile 50) hgap]
    rfl
  · exact hsoon _ _ rfl rfl rfl rfl (by decide) rfl (by decide) (by decide)

theorem reports_savedFile :
    ((savedFile 10).Pairwise fun a b => a.time ≤ b.time) ∧ (∀ a ∈ savedFile 10, a.isNewDirectory = false) ∧
      (receiveEach [] (savedFile 10) {}).2 = [] ∧
      (receiveEach [] ((savedFile 10).filter fun a => !a.isSilent) {}).2 = ["/w/a.py"] := by
  refine ⟨by simp [savedFile], fun a ha => ?_, rfl, rfl⟩
  simp only [savedFile, List.mem_cons, List.not_mem_nil, or_false] at ha
  rcases ha with rfl | rfl <;> rfl

end Loop
end FunctionLength.Watch
