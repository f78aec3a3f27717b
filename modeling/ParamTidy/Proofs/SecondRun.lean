import Mathlib.Data.List.Forall2
import ParamTidy.Proofs.Rounds

/-!
# The second walk

A writing walk that succeeds can be repeated at once: nothing on the disk changes any more, and the second report tells of the
same paths in the same order. `perform_again` is the step, from any later file system that the rest of the first walk may have
left, and `performAll_again` the run.
-/

namespace ParamTidy

/-- How an entry of one walk shows up in the next: a file that was read is unchanged, everything else is told again. -/
inductive Entry.Repeats : Entry → Entry → Prop
  | unchanged {p : Path} {o : Outcome} {e : Encoding} : Repeats (.processed p o) (.processed p (.unchanged e))
  | again {entry : Entry} (unread : entry.outcome? = none) : Repeats entry entry

theorem Entry.Repeats.path {entry entry' : Entry} (repeats : entry.Repeats entry') : entry'.path = entry.path := by
  cases repeats <;> rfl

theorem Entry.Repeats.substitutions {entry entry' : Entry} {o : Outcome} (repeats : entry.Repeats entry')
    (told : entry'.outcome? = some o) : o.substitutions = 0 := by
  cases repeats with
  | unchanged =>
    cases told
    rfl
  | again unread =>
    rw [unread] at told
    cases told

theorem repeats_paths {entries entries' : List Entry} (repeats : List.Forall₂ Entry.Repeats entries entries') :
    entries'.map Entry.path = entries.map Entry.path := by
  induction repeats with
  | nil => rfl
  | cons head _ ih => rw [List.map_cons, List.map_cons, head.path, ih]

theorem repeats_substitutions {root : Path} {entries entries' : List Entry}
    (repeats : List.Forall₂ Entry.Repeats entries entries') :
    ∀ o ∈ Report.outcomes ⟨root,entries'⟩, o.substitutions = 0 := by
  intro o member
  obtain ⟨entry',there,told⟩ := List.mem_filterMap.1 member
  induction repeats with
  | nil => cases there
  | cons head _ ih =>
    rcases List.mem_cons.1 there with rfl | there
    · exact head.substitutions told
    · exact ih (List.mem_filterMap.2 ⟨entry',there,told⟩) there

theorem Report.totals_eq_zero {r : Report} (quiet : ∀ o ∈ r.outcomes, o.substitutions = 0) :
    r.substitutions = 0 ∧ r.filesChanged = 0 := by
  unfold substitutions allSubstitutions filesChanged
  generalize r.outcomes = outcomes at quiet ⊢
  constructor
  · have all : outcomes.foldr (fun o total => o.substitutions + total) 0 = 0 := by
      induction outcomes with
      | nil => rfl
      | cons o outcomes ih =>
        rw [List.foldr_cons, quiet o (by simp), ih fun x member => quiet x (List.mem_cons_of_mem _ member)]
    rw [all]
    rfl
  · refine List.countP_eq_zero.2 fun o member => ?_
    simp [quiet o member]

namespace FileSystem

section
variable {fs final : FileSystem} {p : Path} {chain : List Encoding} {bytes : Bytes}

theorem read_again_of_rewritten?_eq_none (later : Tidies {chain} fs final) (read : fs.read p = .ok bytes)
    (nothing : rewritten? chain bytes = none) : final.read p = .ok bytes := by
  obtain ⟨bytes',read',rfl | ⟨_,found⟩⟩ := later.read read
  · exact read'
  · rw [nothing] at found
    cases found

theorem read_again_of_write_error {bytes' : Bytes} {error : SystemError} (later : Tidies {chain} fs final)
    (read : fs.read p = .ok bytes) (write : fs.write p bytes' = .error error) : final.read p = .ok bytes := by
  obtain ⟨_,read',rfl | ⟨⟨l,opens⟩,_⟩⟩ := later.read read
  · exact read'
  · rw [opens.write] at write
    cases write

end

/-- Carrying out a visit again, when more has been tidied since, does nothing and tells what has been told before. -/
theorem perform_again {fs final : FileSystem} {chain : List Encoding} {v : Visit}
    (later : Tidies {chain} (fs.perform chain .write v).after final) :
    (final.perform chain .write v).after = final ∧
      (fs.perform chain .write v).entry.Repeats (final.perform chain .write v).entry := by
  cases v with
  | pruned p => exact ⟨rfl,.again rfl⟩
  | unlistable p e => exact ⟨rfl,.again rfl⟩
  | excluded p => exact ⟨rfl,.again rfl⟩
  | candidate p =>
    have treated := fs.simplifyFile_treated p chain .write
    rw [perform, perform]
    rw [perform] at later
    generalize fs.simplifyFile p chain .write = attempt at treated later ⊢
    cases treated with
    | unreadable read =>
      have again : Treated final p chain .write _ := .unreadable (later.read_error read)
      rw [treated_iff.1 again]
      exact ⟨rfl,.again rfl⟩
    | undecodable read decoded =>
      have read' := read_again_of_rewritten?_eq_none later read (rewritten?_of_none decoded)
      have again : Treated final p chain .write _ := .undecodable read' decoded
      rw [treated_iff.1 again]
      exact ⟨rfl,.again rfl⟩
    | unchanged read decoded free =>
      have read' := read_again_of_rewritten?_eq_none later read (rewritten?_of_free decoded free)
      have again : Treated final p chain .write _ := .unchanged read' decoded free
      rw [treated_iff.1 again]
      exact ⟨rfl,.unchanged⟩
    | foreseen read decoded holds dry => cases dry
    | unwritable read decoded holds writing write =>
      have read' := read_again_of_write_error later read write
      have again : Treated final p chain .write _ := .unwritable read' decoded holds rfl (later.write_error write)
      rw [treated_iff.1 again]
      exact ⟨rfl,.again rfl⟩
    | @simplified bytes reading after read decoded holds writing write =>
      -- The second time the file is read in the first encoding, whichever it was read in before.
      obtain ⟨l,opens,rfl,rfl⟩ := opens_of_read_of_write read write
      have tidy := isTidy_of_rewritten? (rewritten?_of_holds decoded holds)
      have written := opens.read_setContent (Utf8.encode (simplify reading.text).text)
      have read' := read_again_of_rewritten?_eq_none later written (tidy.rewritten?_eq_none chain)
      cases chain with
      | nil => cases decoded
      | cons e chain =>
        rw [simplifyFile_of_isTidy read' tidy]
        exact ⟨rfl,.unchanged⟩

theorem performAll_again {fs final : FileSystem} {chain : List Encoding} {visits : List Visit}
    (later : Tidies {chain} (fs.afterSteps (fs.performAll chain .write visits)) final) :
    final.afterSteps (final.performAll chain .write visits) = final ∧
      List.Forall₂ Entry.Repeats ((fs.performAll chain .write visits).map Step.entry)
        ((final.performAll chain .write visits).map Step.entry) := by
  induction visits generalizing fs with
  | nil => exact ⟨rfl,.nil⟩
  | cons v visits ih =>
    rw [performAll, afterSteps_cons] at later
    have tidied := (fs.perform chain .write v).after.performAll_tidies chain .write visits
    obtain ⟨stays,repeats⟩ := perform_again (tidied.trans later)
    obtain ⟨rest_stays,rest_repeats⟩ := ih later
    simp only [performAll, afterSteps_cons, List.map_cons, stays]
    exact ⟨rest_stays,.cons repeats rest_repeats⟩

end FileSystem

/-- After a writing walk that succeeds the same walk succeeds again and leaves the disk as it is. Its report tells of the same
paths in the same order; what was skipped or failed is told in the same words, and every file that was read is unchanged now. -/
theorem walk_again {fs : FileSystem} {s : Settings} {report : Report} (writing : s.mode = .write)
    (ended : (fs.walk s).result = .ok report) :
    ∃ again, ((fs.walk s).after.walk s).result = .ok again ∧ ((fs.walk s).after.walk s).after = (fs.walk s).after ∧
      again.root = report.root ∧ again.substitutions = 0 ∧ again.filesChanged = 0 ∧
      again.entries.map Entry.path = report.entries.map Entry.path ∧
      List.Forall₂ Entry.Repeats report.entries again.entries := by
  obtain ⟨r,found,begun,walked,rfl⟩ := FileSystem.walk_eq_of_ok ended
  have after : (fs.walk s).after = fs.afterSteps (fs.performAll s.encodings .write (r.visits fs s.skip)) := by
    rw [walked, writing, Walk.ofSteps]
  have later : FileSystem.Tidies {s.encodings}
      (fs.afterSteps (fs.performAll s.encodings .write (r.visits fs s.skip))) (fs.walk s).after := by
    rw [← after]
    exact .refl _
  obtain ⟨stays,repeats⟩ := FileSystem.performAll_again later
  have same := (fs.walk_tidies s).toSameLayout
  have found' : (fs.walk s).after.findRoot s.root = .ok r := by rw [same.findRoot, found]
  have begun' : r.prunes s.skip [] ∨ (fs.walk s).after.listingError? (r.path []) = none := by
    rwa [same.listingError?]
  rw [FileSystem.walk_eq_of_findRoot found' begun', same.visits, writing, Walk.ofSteps]
  obtain ⟨substitutions,filesChanged⟩ := Report.totals_eq_zero (repeats_substitutions repeats)
  exact ⟨_,rfl,stays,rfl,substitutions,filesChanged,repeats_paths repeats,repeats⟩

/-- The second time the file rewritten through a link is read as UTF-8 and stays, and the one that cannot be written fails
again. -/
theorem sample_walk_again : Sample.settings.mode = .write ∧ (Sample.disk.walk Sample.settings).result = .ok Sample.report ∧
    ∃ again, ((Sample.disk.walk Sample.settings).after.walk Sample.settings).result = .ok again ∧
      again.filesChanged = 0 ∧ List.Forall₂ Entry.Repeats Sample.report.entries again.entries := by
  obtain ⟨again,ended,_,_,_,filesChanged,_,repeats⟩ := walk_again (s := Sample.settings) rfl Sample.walk_result
  exact ⟨rfl,Sample.walk_result,again,ended,filesChanged,repeats⟩

end ParamTidy
