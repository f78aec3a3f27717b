import Mathlib.Logic.Relation
import ParamTidy.Proofs.Evolution
import ParamTidy.Proofs.Listing

/-!
# The rounds of a walk

A walk past its root has nothing pending that could stop it (`Underway.Goes`): each round either finds everything handed out or
makes one of the visits that are left, if any (`Goes.round`), so all rounds together carry out these visits (`Goes.run`).
Before that it is at one of two other stages (`Underway.Stage`): it stands before its root, or this is all that is pending,
that the root cannot be listed. So what stops a walk stops it before its first step (`Stage.of_stopped`), and all that may
become of a walk is one of three things (`FileSystem.Becomes`).
-/

namespace ParamTidy

theorem FileSystem.SameLayout.items {a b : FileSystem} (same : SameLayout a b) (r : Root) (depth : Nat) (rel : Location) :
    r.items b depth rel = r.items a depth rel := by rw [Root.items, Root.items, same.list]

/-! ## Rounds past the root -/

namespace Underway

/-- The file system of a walk is as its steps have left it, and laid out as it was. -/
structure Sound (fs : FileSystem) (w : Underway) : Prop where
  now : w.now = fs.afterSteps w.steps.reverse
  same : FileSystem.SameLayout fs w.now

/-- A walk past its root has nothing pending that it could not come to, so nothing that could stop it. -/
structure Goes (r : Root) (s : Settings) (fs : FileSystem) (w : Underway) : Prop extends Sound fs w where
  inside : ∃ opened, w.rest = .inside opened ∧ ∀ item ∈ opened.flatten, item.Fits r fs s.skip

section
variable {r : Root} {s : Settings} {fs : FileSystem} {w : Underway}

theorem sound_ofStart (fs : FileSystem) : Sound fs (ofStart fs) := ⟨rfl,.refl fs⟩

theorem Sound.goOn (sound : w.Sound fs) (rest : Traversal) (v? : Option Visit) : (w.goOn s rest v?).Sound fs := by
  cases v? with
  | none => exact ⟨sound.now,sound.same⟩
  | some v =>
    refine ⟨?_,sound.same.trans (w.now.perform_tidies s.encodings s.mode v).toSameLayout⟩
    simp [Underway.goOn, FileSystem.afterSteps]

/-- The steps behind a walk and those of the visits before it are the same in the end, whichever of these has been made. -/
theorem goOn_performAll (w : Underway) (rest : Traversal) (v? : Option Visit) (visits : List Visit) :
    (w.goOn s rest v?).steps.reverse ++ (w.goOn s rest v?).now.performAll s.encodings s.mode visits =
      w.steps.reverse ++ w.now.performAll s.encodings s.mode (v?.toList ++ visits) := by
  cases v? with
  | none => rfl
  | some v => simp [Underway.goOn, FileSystem.performAll]

theorem Goes.goOn (sound : w.Sound fs) {opened : List (List Item)} (v? : Option Visit)
    (fits : ∀ item ∈ opened.flatten, item.Fits r fs s.skip) : (w.goOn s (.inside opened) v?).Goes r s fs where
  toSound := sound.goOn _ _
  inside := by
    refine ⟨opened,?_,fits⟩
    cases v? <;> rfl

/-- In one round a walk gets past its root, or goes on there, and makes the first of the visits that are left, if what it is
handed calls for one. -/
def Advances (r : Root) (s : Settings) (fs : FileSystem) (w : Underway) (visits : List Visit) : Prop :=
  ∃ rest v?, w.round r s = .onward (w.goOn s rest v?) ∧ (w.goOn s rest v?).Goes r s fs ∧
    visits = v?.toList ++ rest.visits r fs s.skip

section
variable {p : Path} (found : fs.findRoot p = .ok r) (goes : w.Goes r s fs) {opened outer : List (List Item)} {rel : Location}
  (at_opened : w.rest = .inside opened) (fits : ∀ item ∈ outer.flatten, item.Fits r fs s.skip)
include goes at_opened fits

theorem Goes.round_refusal {e : SystemError} {depth : Nat} (inner : depth ≠ 0)
    (given : Traversal.handOut opened = some (.refusal rel e depth,outer)) :
    w.Advances r s fs ((Item.refusal rel e depth).visits r fs s.skip ++ Traversal.visits r fs s.skip (.inside outer)) := by
  obtain ⟨depth,rfl⟩ := Nat.exists_eq_succ_of_ne_zero inner
  refine ⟨.inside outer,some (.unlistable (r.path rel) e),?_,.goOn goes.toSound _ fits,rfl⟩
  simp [Underway.round, at_opened, Traversal.next, given]

theorem Goes.round_file (there : (fs.layout.node? (r.place rel)).map Node.kind = some .file)
    (given : Traversal.handOut opened = some (.entry rel .file,outer)) :
    w.Advances r s fs ((Item.entry rel .file).visits r fs s.skip ++ Traversal.visits r fs s.skip (.inside outer)) := by
  refine ⟨.inside outer,r.visitFile? s.skip rel,?_,.goOn goes.toSound _ fits,?_⟩
  · simp [Underway.round, at_opened, Traversal.next, given]
  · rw [Item.visits_of_file there]

theorem Goes.round_link (there : (fs.layout.node? (r.place rel)).map Node.kind = some .link)
    (given : Traversal.handOut opened = some (.entry rel .link,outer)) :
    w.Advances r s fs ((Item.entry rel .link).visits r fs s.skip ++ Traversal.visits r fs s.skip (.inside outer)) := by
  refine ⟨.inside outer,if fs.leadsToFile (r.path rel) then r.visitFile? s.skip rel else none,?_,.goOn goes.toSound _ fits,?_⟩
  · simp [Underway.round, at_opened, Traversal.next, given, goes.same.leadsToFile]
  · rw [Item.visits_of_link there]

include found

/-- A directory is left at once, or what it holds comes next. -/
theorem Goes.round_directory (below : rel ≠ []) (met : r.Meets fs s.skip rel) (directory : fs.layout.isDirectory (r.place rel))
    (given : Traversal.handOut opened = some (.entry rel .directory,outer)) :
    w.Advances r s fs ((Item.entry rel .directory).visits r fs s.skip ++ Traversal.visits r fs s.skip (.inside outer)) := by
  by_cases left : s.skip.skipsDir (r.lastName rel)
  · refine ⟨.inside outer,some (.pruned (r.path rel)),?_,.goOn goes.toSound _ fits,?_⟩
    · simp [Underway.round, at_opened, Traversal.next, given, left, Traversal.leave]
    · rw [Item.visits_of_leavesAlone directory ⟨fun top => below top.1,left⟩]
      rfl
  · have kept : ¬ r.LeavesAlone s.skip rel := fun alone => left alone.2
    refine ⟨.inside (r.items fs outer.length rel :: outer),none,?_,.goOn goes.toSound _ ?_,?_⟩
    · simp [Underway.round, at_opened, Traversal.next, given, left, goes.same.items]
    · intro item member
      rw [List.flatten_cons, List.mem_append] at member
      refine member.elim (Root.fits_items found met directory kept (.inl ?_)) (fits item)
      simpa using Traversal.ne_nil_of_handOut given
    · rw [← Root.flatMap_items found met directory kept outer.length]
      simp [Traversal.visits]

end

/-- One round of a walk past its root: either all has been handed out, or the walk goes on. -/
theorem Goes.round {p : Path} (found : fs.findRoot p = .ok r) (goes : w.Goes r s fs) :
    (w.round r s = .ended ∧ w.rest.visits r fs s.skip = []) ∨ w.Advances r s fs (w.rest.visits r fs s.skip) := by
  obtain ⟨opened,at_opened,fits⟩ := goes.inside
  cases given : Traversal.handOut opened with
  | none =>
    left
    simp [Underway.round, at_opened, Traversal.next, given, Traversal.visits, Traversal.flatten_eq_nil_of_handOut given]
  | some taken =>
    right
    obtain ⟨item,outer⟩ := taken
    have split := Traversal.flatten_of_handOut given
    have fits_outer : ∀ item ∈ outer.flatten, item.Fits r fs s.skip := fun i member => fits i (by simp [split, member])
    have left_over : w.rest.visits r fs s.skip =
        item.visits r fs s.skip ++ Traversal.visits r fs s.skip (.inside outer) := by
      rw [at_opened, Traversal.visits, split, List.flatMap_cons]
      rfl
    rw [left_over]
    cases fits item (by simp [split]) with
    | refusal inner => exact goes.round_refusal at_opened fits_outer inner given
    | @entry rel kind below met there =>
      cases kind with
      | file => exact goes.round_file at_opened fits_outer there given
      | link => exact goes.round_link at_opened fits_outer there given
      | directory => exact goes.round_directory found at_opened fits_outer below met (Layout.isDirectory_of_kind there) given

/-- A walk past its root makes all the visits that are left, whatever fails at them. -/
theorem Goes.run {p : Path} (found : fs.findRoot p = .ok r) (goes : w.Goes r s fs) :
    w.run r s = .ofSteps fs (r.path []) (w.steps.reverse ++ w.now.performAll s.encodings s.mode (w.rest.visits r fs s.skip)) := by
  fun_induction Underway.run r s w with
  | case1 w ended =>
    rcases goes.round found with ⟨_,none⟩ | ⟨rest,v?,onward,_⟩
    · rw [none, FileSystem.performAll, List.append_nil, finish, Walk.ofSteps, ← goes.now]
      rfl
    · rw [ended] at onward
      cases onward
  | case2 w f stopped =>
    rcases goes.round found with ⟨ended,_⟩ | ⟨rest,v?,onward,_⟩
    · rw [stopped] at ended
      cases ended
    · rw [stopped] at onward
      cases onward
  | case3 w w' onward ih =>
    rcases goes.round found with ⟨ended,_⟩ | ⟨rest,v?,onward',goes',visits⟩
    · rw [onward] at ended
      cases ended
    · rw [onward] at onward'
      cases onward'
      rw [ih goes', visits, ← goOn_performAll w rest v?]
      cases v? <;> rfl

end

/-! ## The first rounds -/

section
variable {r : Root} {s : Settings} {fs : FileSystem} {p : Path} (found : fs.findRoot p = .ok r)
include found

/-- A link at the root leads to a directory, so to no file, and its name is not looked at. -/
theorem round_ofStart : (ofStart fs).round r s = .onward (if r.prunes s.skip [] then
    (ofStart fs).goOn s (.inside []) (some (.pruned (r.path []))) else (ofStart fs).goOn s (.inside [r.items fs 0 []]) none) := by
  obtain ⟨_,base,directory,_⟩ := FileSystem.findRoot_eq_ok_iff.1 found
  have no_file : fs.leadsToFile (r.path []) = false := by
    rw [Root.path, List.append_nil, FileSystem.leadsToFile, base]
    exact Layout.not_isFile_of_isDirectory directory
  cases linked : r.linked with
  | true => simp [round, ofStart, Traversal.next, Root.kind, Root.prunes, linked, no_file]
  | false =>
    by_cases left : s.skip.skipsDir (r.lastName [])
    · simp [round, ofStart, Traversal.next, Root.kind, Root.prunes, linked, left, Traversal.leave]
    · simp [round, ofStart, Traversal.next, Root.kind, Root.prunes, linked, left]

/-- If the root is left alone or can be listed, the first round brings a walk past it. -/
theorem goes_of_begun (begun : r.prunes s.skip [] ∨ fs.listingError? (r.path []) = none) :
    (ofStart fs).Advances r s fs (r.visits fs s.skip) := by
  obtain ⟨_,_,base,_⟩ := FileSystem.findRoot_eq_ok_iff.1 found
  have directory : fs.layout.isDirectory (r.place []) := by rwa [Root.place, List.append_nil]
  have whole : r.visits fs s.skip = (Item.entry [] r.kind).visits r fs s.skip := by
    rw [← Root.map_snd_itinerary, ← Root.descend_eq_itinerary base begun fs.layout.lists_held]
    rfl
  have first := round_ofStart (s := s) found
  by_cases left : r.prunes s.skip []
  · rw [if_pos left] at first
    refine ⟨_,_,first,.goOn (sound_ofStart fs) _ (by simp),?_⟩
    rw [whole, Item.visits_of_leavesAlone directory (Root.prunes_iff.1 left)]
    rfl
  · have kept : ¬ r.LeavesAlone s.skip [] := fun alone => left (Root.prunes_iff.2 alone)
    rw [if_neg left] at first
    refine ⟨_,_,first,.goOn (sound_ofStart fs) _ ?_,?_⟩
    · rw [List.flatten_singleton]
      exact fun item => Root.fits_items found .root directory kept (.inr (begun.resolve_left left))
    · rw [whole, ← Root.flatMap_items found .root directory kept 0]
      simp [Traversal.visits]

/-- If it cannot be listed, and is not left alone, this is all that the second round is handed. -/
theorem round_ofStart_of_refused {e : SystemError} (kept : ¬ r.prunes s.skip []) (refused : fs.listingError? (r.path []) = some e) :
    (ofStart fs).round r s = .onward ⟨.inside [[.refusal [] e 0]],[],fs⟩ := by
  rw [round_ofStart found, if_neg kept, Root.items, FileSystem.list_of_refused refused]
  rfl

end

theorem round_of_refused (r : Root) (s : Settings) (fs : FileSystem) (e : SystemError) :
    round r s ⟨.inside [[.refusal [] e 0]],[],fs⟩ = .stopped (.environment (r.path []) (.unlistable (r.path []) e)) := by
  simp [round, Traversal.next, Traversal.handOut]

/-- The stages of a walk: it stands before its root, the one thing pending is that the root cannot be listed, or it is past its
root. -/
inductive Stage (r : Root) (s : Settings) (fs : FileSystem) : Underway → Prop
  | ready : Stage r s fs (ofStart fs)
  | refused {e : SystemError} (kept : ¬ r.prunes s.skip []) (refused : fs.listingError? (r.path []) = some e) :
      Stage r s fs ⟨.inside [[.refusal [] e 0]],[],fs⟩
  | past {w : Underway} (goes : w.Goes r s fs) : Stage r s fs w

/-- One round leads to another. -/
def Follows (r : Root) (s : Settings) (w w' : Underway) : Prop := w.round r s = .onward w'

section
variable {r : Root} {s : Settings} {fs : FileSystem} {p : Path} (found : fs.findRoot p = .ok r) {w : Underway}
include found

theorem Stage.follows {w' : Underway} (stage : Stage r s fs w) (follows : Follows r s w w') : Stage r s fs w' := by
  cases stage with
  | ready =>
    by_cases kept : r.prunes s.skip []
    · obtain ⟨rest,v?,first,goes,_⟩ := goes_of_begun (s := s) found (.inl kept)
      cases first.symm.trans follows
      exact .past goes
    · cases refused : fs.listingError? (r.path []) with
      | none =>
        obtain ⟨rest,v?,first,goes,_⟩ := goes_of_begun (s := s) found (.inr refused)
        cases first.symm.trans follows
        exact .past goes
      | some e =>
        cases (round_ofStart_of_refused found kept refused).symm.trans follows
        exact .refused kept refused
  | refused => cases (round_of_refused r s fs _).symm.trans follows
  | past goes =>
    rcases goes.round found with ⟨ended,_⟩ | ⟨rest,v?,onward,goes',_⟩
    · cases ended.symm.trans follows
    · cases onward.symm.trans follows
      exact .past goes'

/-- Every walk is at one of these stages, however many rounds it has taken. -/
theorem stage_of_reached (reached : Relation.ReflTransGen (Follows r s) (ofStart fs) w) : Stage r s fs w := by
  induction reached with
  | refl => exact .ready
  | tail _ follows ih => exact ih.follows found follows

/-- What stops a walk is that its root cannot be listed, and it stops it before it has made a step. -/
theorem Stage.of_stopped {f : Failure} (stage : Stage r s fs w) (stopped : w.round r s = .stopped f) :
    (∃ e, ¬ r.prunes s.skip [] ∧ fs.listingError? (r.path []) = some e ∧
      f = .environment (r.path []) (.unlistable (r.path []) e)) ∧ w.steps = [] ∧ w.now = fs := by
  cases stage with
  | ready => cases (round_ofStart found).symm.trans stopped
  | refused kept refused =>
    cases (round_of_refused r s fs _).symm.trans stopped
    exact ⟨⟨_,kept,refused,rfl⟩,rfl,rfl⟩
  | past goes =>
    rcases goes.round found with ⟨ended,_⟩ | ⟨rest,v?,onward,_⟩
    · cases ended.symm.trans stopped
    · cases onward.symm.trans stopped

end

theorem run_of_onward {r : Root} {s : Settings} {w w' : Underway} (onward : w.round r s = .onward w') :
    w.run r s = w'.run r s := by
  rw [run]
  split
  · next ended => cases onward.symm.trans ended
  · next stopped => cases onward.symm.trans stopped
  · next onward' =>
    cases onward.symm.trans onward'
    rfl

theorem run_of_stopped {r : Root} {s : Settings} {w : Underway} {f : Failure} (stopped : w.round r s = .stopped f) :
    w.run r s = ⟨.error f,w.log,w.now⟩ := by
  rw [run]
  split
  · next ended => cases stopped.symm.trans ended
  · next stopped' =>
    cases stopped.symm.trans stopped'
    rfl
  · next onward => cases stopped.symm.trans onward

end Underway

/-! ## Walks -/

namespace FileSystem

theorem walk_eq_of_findRoot {fs : FileSystem} {s : Settings} {r : Root} (found : fs.findRoot s.root = .ok r)
    (begun : r.prunes s.skip [] ∨ fs.listingError? (r.path []) = none) :
    fs.walk s = .ofSteps fs (r.path []) (fs.performAll s.encodings s.mode (r.visits fs s.skip)) := by
  obtain ⟨rest,v?,first,goes,visits⟩ := Underway.goes_of_begun (s := s) found begun
  have left_over : ((Underway.ofStart fs).goOn s rest v?).rest = rest := by cases v? <;> rfl
  simp only [walk, found]
  rw [Underway.run_of_onward first, goes.run found, left_over, Underway.goOn_performAll, visits]
  rfl

theorem walk_eq_of_refused {fs : FileSystem} {s : Settings} {r : Root} {e : SystemError} (found : fs.findRoot s.root = .ok r)
    (kept : ¬ r.prunes s.skip []) (refused : fs.listingError? (r.path []) = some e) :
    fs.walk s = .ofFailure fs (.environment (r.path []) (.unlistable (r.path []) e)) := by
  simp only [walk, found]
  rw [Underway.run_of_onward (Underway.round_ofStart_of_refused found kept refused),
    Underway.run_of_stopped (Underway.round_of_refused r s fs e)]
  rfl

/-- All that may become of a walk: its root is not found, or cannot be listed and is not left alone, or all visits are made. -/
inductive Becomes (fs : FileSystem) (s : Settings) : Walk → Prop
  | lost {f : Failure} (missing : fs.findRoot s.root = .error f) : Becomes fs s (.ofFailure fs f)
  | refused {r : Root} {e : SystemError} (found : fs.findRoot s.root = .ok r) (kept : ¬ r.prunes s.skip [])
      (refused : fs.listingError? (r.path []) = some e) :
      Becomes fs s (.ofFailure fs (.environment (r.path []) (.unlistable (r.path []) e)))
  | walked {r : Root} (found : fs.findRoot s.root = .ok r)
      (begun : r.prunes s.skip [] ∨ fs.listingError? (r.path []) = none) :
      Becomes fs s (.ofSteps fs (r.path []) (fs.performAll s.encodings s.mode (r.visits fs s.skip)))

theorem walk_becomes (fs : FileSystem) (s : Settings) : fs.Becomes s (fs.walk s) := by
  cases found : fs.findRoot s.root with
  | error f =>
    simp only [walk, found]
    exact .lost found
  | ok r =>
    by_cases begun : r.prunes s.skip [] ∨ fs.listingError? (r.path []) = none
    · rw [walk_eq_of_findRoot found begun]
      exact .walked found begun
    · obtain ⟨kept,refused⟩ := not_or.1 begun
      obtain ⟨e,refused⟩ := Option.ne_none_iff_exists'.1 refused
      rw [walk_eq_of_refused found kept refused]
      exact .refused found kept refused

/-- A walk that succeeds has found its root, either prunes or lists it, carries out its visits and reports them. -/
theorem walk_eq_of_ok {fs : FileSystem} {s : Settings} {report : Report} (h : (fs.walk s).result = .ok report) :
    ∃ r, fs.findRoot s.root = .ok r ∧ (r.prunes s.skip [] ∨ fs.listingError? (r.path []) = none) ∧
      fs.walk s = .ofSteps fs (r.path []) (fs.performAll s.encodings s.mode (r.visits fs s.skip)) ∧
      report = ⟨r.path [],(fs.performAll s.encodings s.mode (r.visits fs s.skip)).map Step.entry⟩ := by
  have becomes := fs.walk_becomes s
  generalize fs.walk s = walk at h becomes
  cases becomes with
  | walked found begun =>
    cases h
    exact ⟨_,found,begun,rfl,rfl⟩
  | _ => cases h

/-- A walk that fails has done nothing and logged nothing. -/
theorem walk_eq_of_error {fs : FileSystem} {s : Settings} {f : Failure} (h : (fs.walk s).result = .error f) :
    fs.walk s = .ofFailure fs f := by
  have becomes := fs.walk_becomes s
  generalize fs.walk s = walk at h becomes
  cases becomes with
  | walked => cases h
  | _ =>
    cases h
    rfl

theorem walk_tidies (fs : FileSystem) (s : Settings) : Tidies {s.encodings} fs (fs.walk s).after := by
  cases ended : (fs.walk s).result with
  | ok report =>
    obtain ⟨r,_,_,same,_⟩ := walk_eq_of_ok ended
    rw [same]
    exact fs.performAll_tidies s.encodings s.mode (r.visits fs s.skip)
  | error f =>
    rw [walk_eq_of_error ended]
    exact .refl fs

end FileSystem

theorem Sample.walk_result : (disk.walk settings).result = .ok report := by decide +kernel

end ParamTidy
