import Mathlib.Data.Set.Card
import ParamTidy.Proofs.Effect

/-!
# What a report tells of the disk

The report of a writing walk is true of the files themselves, not only of the paths that lead to them (`Report.Tells`): it
counts each rewritten file once and names it once, although links may lead to it from many places. `tells_cons_rewrites` and
`tells_cons_leaves` add one visit in front of a run, `performAll_tells` is the run.
-/

namespace ParamTidy

/-- A report is true of what files held before a walk and hold after it: as many files have changed as it says, one entry tells
of each of them and no other that leads there tells of more, and a file that it calls simplified has changed. -/
structure Report.Tells (report : Report) (before after : FileSystem) : Prop where
  changed : {f | before.layout.isFile f ∧ after.content f ≠ before.content f}.encard = report.filesChanged
  once : ∀ f, after.content f ≠ before.content f → ∃ earlier p n e later,
    report.entries = earlier ++ .processed p (.simplified n e) :: later ∧ before.resolve p = .ok f ∧
      ∀ q o, .processed q o ∈ earlier ++ later → before.resolve q = .ok f → ∃ e, o = .unchanged e
  processed : ∀ p o, .processed p o ∈ report.entries → (∃ e, o = .unchanged e) ∨
    ∃ n e f, o = .simplified n e ∧ before.resolve p = .ok f ∧ before.layout.isFile f ∧
      after.content f ≠ before.content f

namespace FileSystem

section
variable {before after : FileSystem} {l : Location} {bytes : Bytes} (differs : bytes ≠ before.content l)
  (kept : after.content l = bytes)

include kept in
theorem ne_of_content_setContent_ne {f : Location} (later : after.content f ≠ (before.setContent l bytes).content f) :
    f ≠ l := by
  rintro rfl
  rw [setContent_content, if_pos rfl] at later
  exact later kept

include differs kept

/-- Rewriting a file that is not touched again changes this file and what changes later. -/
theorem content_ne_iff (f : Location) : after.content f ≠ before.content f ↔
    f = l ∨ after.content f ≠ (before.setContent l bytes).content f := by
  by_cases here : f = l
  · subst here
    simp [kept, differs]
  · simp [setContent_content, here]

theorem encard_content_ne (file : before.layout.isFile l) :
    {f | before.layout.isFile f ∧ after.content f ≠ before.content f}.encard =
      {f | (before.setContent l bytes).layout.isFile f ∧
        after.content f ≠ (before.setContent l bytes).content f}.encard + 1 := by
  have fresh : l ∉ {f | (before.setContent l bytes).layout.isFile f ∧
      after.content f ≠ (before.setContent l bytes).content f} :=
    fun ⟨_,later⟩ => ne_of_content_setContent_ne kept later rfl
  rw [← Set.encard_insert_of_notMem fresh]
  congr 1
  ext f
  simp only [Set.mem_ofPred_eq, Set.mem_insert_iff, content_ne_iff differs kept, setContent_layout]
  constructor
  · rintro ⟨file',rfl | later⟩
    · exact .inl rfl
    · exact .inr ⟨file',later⟩
  · rintro (rfl | ⟨file',later⟩)
    · exact ⟨file,.inl rfl⟩
    · exact ⟨file',.inr later⟩

end

section
variable {before after : FileSystem} {root : Path} {entries : List Entry}

theorem tells_nil (fs : FileSystem) (root : Path) : Report.Tells ⟨root,[]⟩ fs fs where
  changed := by simp [Report.filesChanged, Report.outcomes]
  once := fun f changed => absurd rfl changed
  processed := fun p o member => by cases member

theorem tells_cons_rewrites {p : Path} {l : Location} {bytes : Bytes} {n : Nat} {e : Encoding}
    (opens : before.Opens p l) (positive : 0 < n) (differs : bytes ≠ before.content l)
    (kept : after.content l = bytes) (rest : Report.Tells ⟨root,entries⟩ (before.setContent l bytes) after) :
    Report.Tells ⟨root,.processed p (.simplified n e) :: entries⟩ before after := by
  have same : SameLayout before (before.setContent l bytes) := sameLayout_setContent before l bytes
  constructor
  · have one : Report.filesChanged ⟨root,.processed p (.simplified n e) :: entries⟩ =
        Report.filesChanged ⟨root,entries⟩ + 1 := by
      simp [Report.filesChanged, Report.outcomes, Entry.outcome?, Outcome.substitutions, positive]
    rw [encard_content_ne differs kept opens.isFile, rest.changed, one]
    rfl
  · intro f changed
    rcases (content_ne_iff differs kept f).1 changed with rfl | later
    · refine ⟨[],p,n,e,entries,rfl,opens.1,fun q o member leads => ?_⟩
      rcases rest.processed q o member with unchanged | ⟨_,_,f',_,leads',_,later⟩
      · exact unchanged
      · rw [same.resolve, leads, Except.ok.injEq] at leads'
        exact absurd leads'.symm (ne_of_content_setContent_ne kept later)
    · obtain ⟨earlier,p',n',e',others,split,leads,quiet⟩ := rest.once f later
      refine ⟨.processed p (.simplified n e) :: earlier,p',n',e',others,?_,same.resolve p' ▸ leads,?_⟩
      · exact congrArg (List.cons _) split
      · intro q o member leads'
        rw [List.cons_append] at member
        rcases List.mem_cons.1 member with head | member
        · cases head
          rw [opens.1, Except.ok.injEq] at leads'
          exact absurd leads'.symm (ne_of_content_setContent_ne kept later)
        · exact quiet q o member (same.resolve q ▸ leads')
  · intro q o member
    rcases List.mem_cons.1 member with head | member
    · cases head
      exact .inr ⟨n,e,l,rfl,opens.1,opens.isFile,kept ▸ differs⟩
    · refine (rest.processed q o member).imp_right ?_
      rintro ⟨n',e',f,rfl,leads,file,later⟩
      exact ⟨n',e',f,rfl,same.resolve q ▸ leads,file,(content_ne_iff differs kept f).2 (.inr later)⟩

theorem tells_cons_leaves {entry : Entry} (quiet : ∀ p o, entry = .processed p o → ∃ e, o = .unchanged e)
    (rest : Report.Tells ⟨root,entries⟩ before after) : Report.Tells ⟨root,entry :: entries⟩ before after where
  changed := by
    have none_more : Report.filesChanged ⟨root,entry :: entries⟩ = Report.filesChanged ⟨root,entries⟩ := by
      cases entry with
      | processed p o =>
        obtain ⟨e,rfl⟩ := quiet p o rfl
        simp [Report.filesChanged, Report.outcomes, Entry.outcome?, Outcome.substitutions]
      | _ => rfl
    rw [none_more]
    exact rest.changed
  once := by
    intro f changed
    obtain ⟨earlier,p,n,e,later,split,leads,others⟩ := rest.once f changed
    refine ⟨entry :: earlier,p,n,e,later,congrArg (List.cons _) split,leads,fun q o member leads' => ?_⟩
    rw [List.cons_append] at member
    rcases List.mem_cons.1 member with head | member
    · exact quiet q o head.symm
    · exact others q o member leads'
  processed := by
    intro p o member
    rcases List.mem_cons.1 member with head | member
    · exact .inl (quiet p o head.symm)
    · exact rest.processed p o member

end

theorem performAll_tells (fs : FileSystem) (chain : List Encoding) (root : Path) (visits : List Visit) :
    Report.Tells ⟨root,(fs.performAll chain .write visits).map Step.entry⟩ fs
      (fs.afterSteps (fs.performAll chain .write visits)) := by
  induction visits generalizing fs with
  | nil => exact tells_nil fs root
  | cons v visits ih =>
    have later := (fs.perform chain .write v).after.performAll_tidies chain .write visits
    have step := fs.perform_write chain v
    rw [performAll, afterSteps_cons, List.map_cons]
    specialize ih (fs.perform chain .write v).after
    generalize fs.perform chain .write v = performed at ih later step ⊢
    cases step with
    | @rewrites p l bytes n e log candidate opens found positive =>
      exact tells_cons_rewrites opens positive (rewritten?_ne found) (later.content_of_rewritten? found) ih
    | leaves nothing quiet => exact tells_cons_leaves quiet ih

end FileSystem

/-- The report of a writing walk that succeeds is true of the disk. -/
theorem walk_tells {fs : FileSystem} {s : Settings} {report : Report} (writing : s.mode = .write)
    (ended : (fs.walk s).result = .ok report) : report.Tells fs (fs.walk s).after := by
  obtain ⟨r,_,_,walked,rfl⟩ := FileSystem.walk_eq_of_ok ended
  rw [walked, writing]
  exact fs.performAll_tells s.encodings (r.path []) (r.visits fs s.skip)

/-- Two entries lead to the one file that is rewritten, and only the first of them tells of it. -/
theorem sample_walk_tells : Sample.settings.mode = .write ∧ (Sample.disk.walk Sample.settings).result = .ok Sample.report ∧
    Sample.report.Tells Sample.disk (Sample.disk.walk Sample.settings).after :=
  ⟨rfl,Sample.walk_result,walk_tells rfl Sample.walk_result⟩

end ParamTidy
