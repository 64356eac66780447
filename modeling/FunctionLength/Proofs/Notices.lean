import FunctionLength.Proofs.Changes
import FunctionLength.Watch.Watcher

namespace FunctionLength.Watch
open FunctionLength.FileSystem

/-- What one who is subscribed under a path can be told: something about the directory, or about an entry of
it. The directory itself is never new. -/
inductive Notice.About (path : String) (n : Notice) : Prop where
  | self (hpath : n.path = path) (hop : n.operation ≠ .create)
  | entry (name : String) (hname : EntryName name) (hpath : n.path = path ++ "/" ++ name)

def paths (subs : List Subscription) : List String := subs.map (·.path)

section Notices

variable {subs : List Subscription} {n : Notice}

theorem mem_paths {s : Subscription} (h : s ∈ subs) : s.path ∈ paths subs := List.mem_map_of_mem h

theorem about_of_mem_aboutEntry {op : Operation} {l : Location} (hl : ∀ n ∈ l, EntryName n)
    (h : n ∈ aboutEntry subs op l) : ∃ path ∈ paths subs, n.About path := by
  rw [aboutEntry] at h
  split at h
  · simp at h
  · rename_i name hname
    obtain ⟨s, hs, rfl⟩ := List.mem_map.mp h
    exact ⟨s.path, mem_paths (List.mem_of_mem_filter hs),
      .entry name (hl name (List.mem_of_mem_getLast? hname)) rfl⟩

theorem about_of_mem_aboutSelf {op : Operation} {l : Location} (hop : op ≠ .create)
    (h : n ∈ aboutSelf subs op l) : ∃ path ∈ paths subs, n.About path := by
  obtain ⟨s, hs, rfl⟩ := List.mem_map.mp h
  exact ⟨s.path, mem_paths (List.mem_of_mem_filter hs), .self rfl hop⟩

theorem about_of_mem_notices {effect : Effect} (heffect : effect.Proper) (h : n ∈ (notices subs effect).1) :
    ∃ path ∈ paths subs, n.About path := by
  cases effect with
  | create l e =>
    cases e with
    | file content =>
      rcases List.mem_append.mp h with h | h
      · exact about_of_mem_aboutEntry heffect.1 h
      · split at h
        · simp at h
        · exact about_of_mem_aboutEntry heffect.1 h
    | directory entries => exact about_of_mem_aboutEntry heffect.1 h
    | link target => exact about_of_mem_aboutEntry heffect.1 h
    | special reading => exact about_of_mem_aboutEntry heffect.1 h
  | write l content => exact about_of_mem_aboutEntry heffect h
  | delete l =>
    rcases List.mem_append.mp h with h | h
    · exact about_of_mem_aboutEntry heffect h
    · exact about_of_mem_aboutSelf (by decide) h
  | move source target =>
    rcases List.mem_append.mp h with h | h
    · rcases List.mem_append.mp h with h | h
      · exact about_of_mem_aboutEntry heffect.1 h
      · exact about_of_mem_aboutEntry heffect.2 h
    · exact about_of_mem_aboutSelf (by decide) h
  | setAttributes l =>
    rcases List.mem_append.mp h with h | h
    · exact about_of_mem_aboutEntry heffect h
    · exact about_of_mem_aboutSelf (by decide) h

theorem paths_notices_subset (subs : List Subscription) (effect : Effect) :
    paths (notices subs effect).2 ⊆ paths subs := by
  cases effect with
  | create l e => cases e <;> exact List.Subset.refl _
  | write l content => exact List.Subset.refl _
  | delete l => exact List.map_subset _ (List.filter_subset_self _)
  | move source target =>
    simp only [notices, paths, List.map_map]
    exact List.map_subset _ (List.filter_subset_self _)
  | setAttributes l => exact List.Subset.refl _

theorem about_of_mem_allNotices {effects : List Effect} (heffects : ∀ effect ∈ effects, effect.Proper)
    (h : n ∈ (allNotices subs effects).1) : ∃ path ∈ paths subs, n.About path := by
  induction effects generalizing subs with
  | nil => simp [allNotices] at h
  | cons effect rest ih =>
    rcases List.mem_append.mp h with h | h
    · exact about_of_mem_notices (heffects effect (by simp)) h
    · obtain ⟨path, hpath, hn⟩ := ih (fun x hx => heffects x (by simp [hx])) h
      exact ⟨path, paths_notices_subset subs effect hpath, hn⟩

theorem allNotices_cons (subs : List Subscription) (effect : Effect) (rest : List Effect) :
    allNotices subs (effect :: rest) =
      ((notices subs effect).1 ++ (allNotices (notices subs effect).2 rest).1,
        (allNotices (notices subs effect).2 rest).2) := rfl

theorem operation_of_mem_aboutEntry {op : Operation} {l : Location} (h : n ∈ aboutEntry subs op l) :
    n.operation = op := by
  unfold aboutEntry at h
  split at h
  · simp at h
  · obtain ⟨s, -, rfl⟩ := List.mem_map.mp h
    rfl

theorem aboutEntry_concat (subs : List Subscription) (op : Operation) (l : Location) (name : String) :
    aboutEntry subs op (l ++ [name]) =
      (subs.filter (·.location = l)).map fun s => ⟨op, s.path ++ "/" ++ name⟩ := by
  rw [aboutEntry, List.getLast?_concat, List.dropLast_concat]

theorem exists_aboutEntry_eq {s : Subscription} (hs : s ∈ subs)
    (hunique : ∀ x ∈ subs, x.location = s.location → x = s) (op : Operation) (name : String) :
    ∃ others, aboutEntry subs op (s.location ++ [name]) = ⟨op, s.path ++ "/" ++ name⟩ :: others ∧
      ∀ n ∈ others, n.path = s.path ++ "/" ++ name := by
  have hsame : ∀ x ∈ subs.filter (·.location = s.location), x = s := fun x hx => by
    obtain ⟨hx, hlocation⟩ := List.mem_filter.mp hx
    exact hunique x hx (of_decide_eq_true hlocation)
  have hmem : s ∈ subs.filter (·.location = s.location) := List.mem_filter.mpr ⟨hs, by simp⟩
  obtain ⟨first, rest, hfilter⟩ := List.exists_cons_of_ne_nil (List.ne_nil_of_mem hmem)
  rw [hfilter] at hsame
  refine ⟨rest.map fun x => ⟨op, x.path ++ "/" ++ name⟩, ?_, fun n hn => ?_⟩
  · rw [aboutEntry_concat, hfilter, List.map_cons, hsame first (by simp)]
  · obtain ⟨x, hx, rfl⟩ := List.mem_map.mp hn
    rw [hsame x (by simp [hx])]

theorem paths_allNotices_subset (subs : List Subscription) (effects : List Effect) :
    paths (allNotices subs effects).2 ⊆ paths subs := by
  induction effects generalizing subs with
  | nil => exact List.Subset.refl _
  | cons effect rest ih => exact List.Subset.trans (ih _) (paths_notices_subset subs effect)

end Notices

section Subscribe

variable {subs : List Subscription} {x : Subscription} {l : Location} {path : String}

theorem mem_of_mem_subscribe (h : x ∈ subscribe l path subs) :
    x ∈ subs ∨ x = ⟨l, path⟩ ∧ ∀ y ∈ subs, y.location ≠ l := by
  simp only [subscribe] at h
  split at h
  · exact .inl (List.mem_of_mem_filter h)
  · rename_i hnone
    rcases List.mem_append.mp h with h | h
    · exact .inl (List.mem_of_mem_filter h)
    · refine .inr ⟨List.mem_singleton.mp h, fun y hy hl => hnone ?_⟩
      exact List.any_eq_true.mpr ⟨y, List.mem_filter.mpr ⟨hy, by simp [hl]⟩, by simp [hl]⟩

theorem mem_subscribe_of_mem (h : x ∈ subs) (hpath : x.path = path → x.location = l) :
    x ∈ subscribe l path subs := by
  have hkept : x ∈ subs.filter fun s => s.location = l || s.path ≠ path := by
    refine List.mem_filter.mpr ⟨h, ?_⟩
    by_cases heq : x.path = path
    · simp [hpath heq]
    · simp [heq]
  simp only [subscribe]
  split
  · exact hkept
  · exact List.mem_append_left _ hkept

theorem mem_subscribe_self (h : ∀ y ∈ subs, y.location ≠ l) : ⟨l, path⟩ ∈ subscribe l path subs := by
  have hnone : ¬ (subs.filter fun s => s.location = l || s.path ≠ path).any (·.location = l) := fun hany => by
    obtain ⟨y, hy, hl⟩ := List.any_eq_true.mp hany
    exact h y (List.mem_of_mem_filter hy) (of_decide_eq_true hl)
  simp only [subscribe, if_neg hnone]
  simp

/-- Subscribing one more directory loses no other one. -/
theorem mem_subscribe_iff (h : ∀ y ∈ subs, y.location = l ↔ y.path = path) :
    x ∈ subscribe l path subs ↔ x ∈ subs ∨ x = ⟨l, path⟩ := by
  constructor
  · intro hx
    exact (mem_of_mem_subscribe hx).imp_right And.left
  · rintro (hx | rfl)
    · exact mem_subscribe_of_mem hx (h x hx).mpr
    · by_cases hold : ∃ y ∈ subs, y.location = l
      · obtain ⟨y, hy, hl⟩ := hold
        have hself : y = ⟨l, path⟩ := by rw [← hl, ← (h y hy).mp hl]
        exact mem_subscribe_of_mem (hself ▸ hy) fun _ => rfl
      · exact mem_subscribe_self fun y hy hl => hold ⟨y, hy, hl⟩

theorem subscribeAll_cons (t : Location × String) (ts : List (Location × String)) (subs : List Subscription) :
    subscribeAll (t :: ts) subs = subscribeAll ts (subscribe t.1 t.2 subs) := rfl

theorem mem_subscribeAll_of_mem {ts : List (Location × String)} (h : x ∈ subs)
    (hts : ∀ t ∈ ts, x.path = t.2 → x.location = t.1) : x ∈ subscribeAll ts subs := by
  induction ts generalizing subs with
  | nil => exact h
  | cons t ts ih => exact ih (mem_subscribe_of_mem h (hts t (by simp))) fun u hu => hts u (by simp [hu])

theorem mem_subscribeAll_iff {ts : List (Location × String)}
    (hts : ∀ t ∈ ts, ∀ u ∈ ts, t.1 = u.1 ↔ t.2 = u.2)
    (hsubs : ∀ x ∈ subs, ∀ t ∈ ts, x.location = t.1 ↔ x.path = t.2) :
    x ∈ subscribeAll ts subs ↔ x ∈ subs ∨ (x.location, x.path) ∈ ts := by
  induction ts generalizing subs with
  | nil => simp [subscribeAll]
  | cons t ts ih =>
    obtain ⟨l, path⟩ := t
    have hfirst : ∀ x, x ∈ subscribe l path subs ↔ x ∈ subs ∨ x = ⟨l, path⟩ :=
      fun x => mem_subscribe_iff fun y hy => hsubs y hy (l, path) (by simp)
    have hrest : x ∈ subscribeAll ts (subscribe l path subs) ↔
        x ∈ subscribe l path subs ∨ (x.location, x.path) ∈ ts := by
      refine ih (fun t ht u hu => hts t (by simp [ht]) u (by simp [hu])) fun x hx t ht => ?_
      rcases (hfirst x).mp hx with hx | rfl
      · exact hsubs x hx t (by simp [ht])
      · exact hts (l, path) (by simp) t (by simp [ht])
    refine hrest.trans ?_
    rw [hfirst, or_assoc]
    refine or_congr_right ?_
    cases x
    simp

theorem paths_subscribeAll_subset (ts : List (Location × String)) (subs : List Subscription) :
    paths (subscribeAll ts subs) ⊆ paths subs ++ ts.map (·.2) := by
  induction ts generalizing subs with
  | nil => simp [subscribeAll]
  | cons t ts ih =>
    intro q hq
    rcases List.mem_append.mp (ih (subscribe t.1 t.2 subs) hq) with hq | hq
    · obtain ⟨x, hx, rfl⟩ := List.mem_map.mp hq
      rcases mem_of_mem_subscribe hx with hx | ⟨rfl, -⟩
      · exact List.mem_append_left _ (mem_paths hx)
      · simp
    · exact List.mem_append_right _ (List.mem_cons_of_mem _ hq)

end Subscribe

section Directories

variable {ignored : List String} {fs : FileSystem} {n : Notice} {l : Location}

theorem Notice.newDirectory?_eq_some_iff : n.newDirectory? fs = some l ↔
    n.operation = .create ∧ ∃ entries, fs.resolve true n.path = .ok (l, .directory entries) := by
  rw [newDirectory?]
  split
  · rename_i place entries hop hpath
    simp only [hop, hpath, Option.some.injEq, Except.ok.injEq, Prod.mk.injEq, Entry.directory.injEq, true_and]
    exact ⟨fun h => ⟨entries, h, rfl⟩, fun ⟨_, h, _⟩ => h⟩
  · rename_i hother
    simp only [reduceCtorEq, false_iff, not_and, not_exists]
    exact fun hop entries hpath => hother l entries hop hpath

theorem Notice.newDirectory?_of_ne_create (h : n.operation ≠ .create) : n.newDirectory? fs = none :=
  Option.eq_none_iff_forall_ne_some.mpr fun _ hl => h (newDirectory?_eq_some_iff.mp hl).1

theorem Watcher.addition?_eq_some_iff {path : String} : addition? ignored fs n = some (l, path) ↔
    n.newDirectory? fs = some l ∧ Path.mentions ignored n.path = false ∧ fs.isLocked l = false ∧
      Path.clean n.path = path := by
  rw [addition?]
  constructor
  · intro h
    split at h
    · rename_i place hnew
      split at h
      · cases h
      · rename_i hopen
        obtain ⟨rfl, rfl⟩ := Prod.mk.inj (Option.some.inj h)
        have hopen : Path.mentions ignored n.path = false ∧ fs.isLocked place = false := by simpa using hopen
        exact ⟨hnew, hopen.1, hopen.2, rfl⟩
    · cases h
  · rintro ⟨hnew, hignored, hlocked, rfl⟩
    simp [hnew, hignored, hlocked]

theorem Watcher.addition?_of_ne_create (h : n.operation ≠ .create) : addition? ignored fs n = none := by
  rw [addition?, Notice.newDirectory?_of_ne_create h]

end Directories

structure Notice.Reportable (ignored : List String) (fs : FileSystem) (n : Notice) : Prop where
  not_ignored : Path.mentions ignored (Path.directory n.path) = false
  operation_ne : n.operation ≠ .setAttributes
  not_directory : n.newDirectory? fs = none

structure Delivery where
  time : Nat
  fs : FileSystem
  notice : Notice

namespace Loop

section Receive

variable {ignored : List String} {fs : FileSystem} {time : Nat} {n : Notice} {loop : Loop}

theorem receive_cases (ignored : List String) (fs : FileSystem) (time : Nat) (n : Notice) (loop : Loop) :
    receive ignored fs time n loop = (loop, none) ∨
      receive ignored fs time n loop = loop.count n.operation n.path time ∧ n.newDirectory? fs = none ∧
        Path.mentions ignored (Path.directory n.path) = false := by
  unfold receive
  split
  · exact .inl rfl
  rename_i hskip
  have hopen : n.newDirectory? fs = none ∧ Path.mentions ignored (Path.directory n.path) = false := by
    simpa using hskip
  split
  · split
    · exact .inl rfl
    · exact .inr ⟨rfl, hopen⟩
  · exact .inr ⟨rfl, hopen⟩

theorem held_receive (ignored : List String) (fs : FileSystem) (time : Nat) (n : Notice) (loop : Loop) :
    (receive ignored fs time n loop).1.held = loop.held := by
  rcases receive_cases ignored fs time n loop with h | ⟨h, -⟩ <;> rw [h]
  rfl

theorem seen_receive {x : String × Nat} (h : x ∈ (receive ignored fs time n loop).1.seen) :
    x ∈ loop.seen ∨ x.2 = time := by
  rcases receive_cases ignored fs time n loop with heq | ⟨heq, -⟩ <;> rw [heq] at h
  · exact .inl h
  · rcases List.mem_cons.mp h with rfl | h
    · exact .inr rfl
    · exact .inl (List.mem_of_mem_filter h)

theorem reportable_of_receive {path : String} (h : (receive ignored fs time n loop).2 = some path) :
    n.path = path ∧ n.Reportable ignored fs := by
  rcases receive_cases ignored fs time n loop with heq | ⟨heq, hnew, hignored⟩ <;> rw [heq] at h
  · cases h
  · simp only [count] at h
    split at h
    · cases h
    · rename_i hop
      exact ⟨Option.some.inj h, hignored, hop, hnew⟩

/-- A notice counts if the last one about its path is long ago. -/
theorem receive_of_fresh (hnew : n.newDirectory? fs = none)
    (hignored : Path.mentions ignored (Path.directory n.path) = false)
    (hseen : ∀ x ∈ loop.seen, x.2 + pause ≤ time) :
    receive ignored fs time n loop = loop.count n.operation n.path time := by
  simp only [receive, hnew, hignored, Option.isSome_none, Bool.or_false, Bool.false_eq_true, if_false]
  split
  · rename_i last hlast
    obtain ⟨front, back, heq, -⟩ := List.lookup_eq_some_iff.mp hlast
    have hold := hseen (n.path, last) (by simp [heq])
    rw [if_neg (by omega)]
  · rfl

end Receive

def receiveEach (ignored : List String) : List Delivery → Loop → Loop × List String
  | [], loop => (loop, [])
  | d :: rest, loop =>
    let (loop, path) := receive ignored d.fs d.time d.notice loop
    let (loop, paths) := receiveEach ignored rest loop
    (loop, path.toList ++ paths)

section ReceiveEach

variable {ignored : List String} {ds : List Delivery} {loop : Loop}

theorem receiveEach_cons (ignored : List String) (d : Delivery) (rest : List Delivery) (loop : Loop) :
    receiveEach ignored (d :: rest) loop =
      ((receiveEach ignored rest (receive ignored d.fs d.time d.notice loop).1).1,
        (receive ignored d.fs d.time d.notice loop).2.toList ++
          (receiveEach ignored rest (receive ignored d.fs d.time d.notice loop).1).2) := rfl

theorem held_receiveEach (ignored : List String) (ds : List Delivery) (loop : Loop) :
    (receiveEach ignored ds loop).1.held = loop.held := by
  induction ds generalizing loop with
  | nil => rfl
  | cons d rest ih => rw [receiveEach_cons, ih, held_receive]

theorem seen_receiveEach {x : String × Nat} (h : x ∈ (receiveEach ignored ds loop).1.seen) :
    x ∈ loop.seen ∨ ∃ d ∈ ds, d.time = x.2 := by
  induction ds generalizing loop with
  | nil => exact .inl h
  | cons d rest ih =>
    rcases ih h with hx | ⟨d', hd', htime⟩
    · exact (seen_receive hx).imp_right fun htime => ⟨d, by simp, htime.symm⟩
    · exact .inr ⟨d', List.mem_cons_of_mem _ hd', htime⟩

theorem exists_of_mem_receiveEach {path : String} (h : path ∈ (receiveEach ignored ds loop).2) :
    ∃ d ∈ ds, d.notice.path = path ∧ d.notice.Reportable ignored d.fs := by
  induction ds generalizing loop with
  | nil => simp [receiveEach] at h
  | cons d rest ih =>
    rcases List.mem_append.mp h with h | h
    · obtain ⟨hpath, hreportable⟩ := reportable_of_receive (Option.mem_toList.mp h)
      exact ⟨d, by simp, hpath, hreportable⟩
    · obtain ⟨d', hd', hpath⟩ := ih h
      exact ⟨d', List.mem_cons_of_mem _ hd', hpath⟩

end ReceiveEach

end Loop

namespace Watcher

/-- A watcher at work that has dealt with all it was told, and when it did so. -/
structure Resting (seen : List (String × Nat)) (w : Watcher) : Prop where
  stopped_eq : w.stopped = false
  pending_eq : w.pending = []
  loop_eq : w.loops[w.loops.length - 1]? = some ⟨seen, none⟩

section Work

variable {w : Watcher} {fs : FileSystem} {time i : Nat} {seen : List (String × Nat)}

theorem deal_take (hstopped : w.stopped = false) (hloop : w.loops[i]? = some ⟨seen, none⟩) {n : Notice}
    {rest : List Notice} (hpending : w.pending = n :: rest) :
    (w.take i).deal fs time i = ({ w with
      pending := rest
      subscriptions := subscribeAll (addition? w.ignored fs n).toList w.subscriptions
      loops := w.loops.set i (Loop.receive w.ignored fs time n ⟨seen, none⟩).1 },
      (Loop.receive w.ignored fs time n ⟨seen, none⟩).2) := by
  have hi : i < w.loops.length := (List.getElem?_eq_some_iff.mp hloop).1
  simp [take, deal, hloop, hpending, hstopped, List.getElem?_set_self hi]

theorem work_eq (hstopped : w.stopped = false) (hloop : w.loops[i]? = some ⟨seen, none⟩) :
    work fs time i w.pending.length w = ({ w with
      pending := []
      subscriptions := subscribeAll (w.pending.filterMap (addition? w.ignored fs)) w.subscriptions
      loops := w.loops.set i
        (Loop.receiveEach w.ignored (w.pending.map fun n => ⟨time, fs, n⟩) ⟨seen, none⟩).1 },
      (Loop.receiveEach w.ignored (w.pending.map fun n => ⟨time, fs, n⟩) ⟨seen, none⟩).2) := by
  obtain ⟨ignored, subscriptions, pending, loops, stopped⟩ := w
  induction pending generalizing subscriptions loops seen with
  | nil =>
    obtain ⟨hi, hself⟩ := List.getElem?_eq_some_iff.mp hloop
    simp only at hself hi
    simp [work, Loop.receiveEach, subscribeAll, ← hself]
  | cons n rest ih =>
    have hi : i < loops.length := (List.getElem?_eq_some_iff.mp hloop).1
    have hheld := Loop.held_receive ignored fs time n ⟨seen, none⟩
    rw [List.length_cons, work, deal_take hstopped hloop rfl]
    cases hfirst : Loop.receive ignored fs time n ⟨seen, none⟩ with
    | mk next path =>
      obtain ⟨later, held⟩ := next
      rw [hfirst] at hheld
      obtain rfl : held = none := hheld
      have hnext : (loops.set i ⟨later, none⟩)[i]? = some ⟨later, none⟩ := List.getElem?_set_self hi
      simp only [ih (subscribeAll (addition? ignored fs n).toList subscriptions) (loops.set i ⟨later, none⟩)
        hstopped hnext, List.set_set, List.map_cons, Loop.receiveEach_cons, hfirst]
      cases hadd : addition? ignored fs n <;> simp [hadd, subscribeAll]

end Work

section Observe

variable {w : Watcher} {fs : FileSystem} {time : Nat} {c : Change} {seen : List (String × Nat)}

theorem observe_eq (h : Resting seen w) :
    w.observe fs time c =
      let told := (allNotices w.subscriptions (fs.effects c)).1
      let received := Loop.receiveEach w.ignored (told.map fun n => ⟨time, fs.apply c, n⟩) ⟨seen, none⟩
      ({ w with
        subscriptions := subscribeAll (told.filterMap (addition? w.ignored (fs.apply c)))
          (allNotices w.subscriptions (fs.effects c)).2
        loops := w.loops.set (w.loops.length - 1) received.1 }, received.2) := by
  have hpending : (w.notify (fs.effects c)).pending = (allNotices w.subscriptions (fs.effects c)).1 := by
    simp [notify, h.pending_eq]
  rw [observe]
  refine (work_eq (w := w.notify (fs.effects c)) h.stopped_eq h.loop_eq).trans ?_
  rw [hpending]
  simp [notify, h.pending_eq]

theorem exists_resting_observe (h : Resting seen w) (fs : FileSystem) (time : Nat) (c : Change) :
    ∃ later, Resting later (w.observe fs time c).1 ∧ ∀ x ∈ later, x ∈ seen ∨ x.2 = time := by
  have hi : w.loops.length - 1 < w.loops.length := (List.getElem?_eq_some_iff.mp h.loop_eq).1
  let ds : List Delivery := (allNotices w.subscriptions (fs.effects c)).1.map fun n => ⟨time, fs.apply c, n⟩
  have hheld := Loop.held_receiveEach w.ignored ds ⟨seen, none⟩
  rw [observe_eq h]
  refine ⟨(Loop.receiveEach w.ignored ds ⟨seen, none⟩).1.seen, ⟨h.stopped_eq, h.pending_eq, ?_⟩, fun x hx => ?_⟩
  · change (w.loops.set _ (Loop.receiveEach w.ignored ds ⟨seen, none⟩).1)[_]? = _
    rw [List.length_set, List.getElem?_set_self hi]
    exact congrArg (fun held => some (Loop.mk _ held)) hheld
  · refine (Loop.seen_receiveEach hx).imp_right ?_
    rintro ⟨d, hd, htime⟩
    obtain ⟨n, -, rfl⟩ := List.mem_map.mp hd
    exact htime.symm

theorem ignored_observe (h : Resting seen w) : (w.observe fs time c).1.ignored = w.ignored := by
  rw [observe_eq h]

theorem subscriptions_observe (h : Resting seen w) (fs : FileSystem) (time : Nat) (c : Change) :
    (w.observe fs time c).1.subscriptions =
      subscribeAll ((allNotices w.subscriptions (fs.effects c)).1.filterMap (addition? w.ignored (fs.apply c)))
        (allNotices w.subscriptions (fs.effects c)).2 := by
  rw [observe_eq h]

section Write

variable {l : Location} {name : String} {content : ByteArray}

theorem subscriptions_observe_write (h : Resting seen w) (heffects : fs.effects c = [.write l content]) :
    (w.observe fs time c).1.subscriptions = w.subscriptions := by
  have hnone : (aboutEntry w.subscriptions .write l).filterMap (addition? w.ignored (fs.apply c)) = [] :=
    List.filterMap_eq_nil_iff.mpr fun n hn =>
      addition?_of_ne_create (by simp [operation_of_mem_aboutEntry hn])
  rw [subscriptions_observe h, heffects]
  simp [allNotices, notices, hnone, subscribeAll]

theorem reports_observe_write (h : Resting seen w) (heffects : fs.effects c = [.write l content]) :
    (w.observe fs time c).2 = (Loop.receiveEach w.ignored
      ((aboutEntry w.subscriptions .write l).map fun n => ⟨time, fs.apply c, n⟩) ⟨seen, none⟩).2 := by
  rw [observe_eq h, heffects]
  simp [allNotices, notices]

/-- What is written in a directory with one subscription is reported by the path of that subscription. -/
theorem mem_observe_iff (h : Resting seen w) (hseen : ∀ x ∈ seen, x.2 + pause ≤ time) {s : Subscription}
    (hs : s ∈ w.subscriptions) (hunique : ∀ x ∈ w.subscriptions, x.location = s.location → x = s)
    (heffects : fs.effects c = [.write (s.location ++ [name]) content]) {changed : String} :
    changed ∈ (w.observe fs time c).2 ↔
      changed = s.path ++ "/" ++ name ∧ Path.mentions w.ignored (Path.directory changed) = false := by
  obtain ⟨others, habout, hothers⟩ := exists_aboutEntry_eq hs hunique .write name
  rw [reports_observe_write h heffects, habout]
  constructor
  · intro hchanged
    obtain ⟨d, hd, rfl, hreportable⟩ := Loop.exists_of_mem_receiveEach hchanged
    refine ⟨?_, hreportable.not_ignored⟩
    obtain ⟨n, hn, rfl⟩ := List.mem_map.mp hd
    rcases List.mem_cons.mp hn with rfl | hn
    · rfl
    · exact hothers n hn
  · rintro ⟨rfl, hignored⟩
    have hnew : (⟨.write, s.path ++ "/" ++ name⟩ : Notice).newDirectory? (fs.apply c) = none :=
      Notice.newDirectory?_of_ne_create (by simp)
    rw [List.map_cons, Loop.receiveEach_cons, Loop.receive_of_fresh hnew hignored hseen]
    simp [Loop.count]

theorem reports_of_no_subscription (h : Resting seen w) (hnone : ∀ x ∈ w.subscriptions, x.location ≠ l)
    (heffects : fs.effects c = [.write (l ++ [name]) content]) : (w.observe fs time c).2 = [] := by
  have hfilter : w.subscriptions.filter (·.location = l) = [] :=
    List.filter_eq_nil_iff.mpr fun x hx => by simpa using hnone x hx
  rw [reports_observe_write h heffects, aboutEntry_concat, hfilter]
  rfl

end Write

end Observe

end Watcher

end FunctionLength.Watch
