import ParamTidy.Proofs.Agreement
import ParamTidy.Proofs.DryRun

/-!
# More exclusions, less work

A walk that leaves more alone works at fewer paths and changes fewer files, and what it changes it changes alike
(`walk_excluding_more`), although another link may lead to a file now than the one through which it was rewritten before.
-/

namespace ParamTidy

/-- What one set of exclusions excludes the other excludes as well. -/
structure SkipSet.Within (skip more : SkipSet) : Prop where
  dirs : ∀ n, n ∈ skip.dirs → n ∈ more.dirs
  files : ∀ k, k ∈ skip.files → k ∈ more.files

/-- An entry tells of work: a file was read, or something failed. -/
def Entry.IsWork : Entry → Prop
  | .processed _ _ | .failed _ _ => True
  | .skippedDirectory _ | .skippedFile _ => False

def Report.WorksAt (report : Report) (p : Path) : Prop := ∃ entry ∈ report.entries, entry.path = p ∧ entry.IsWork

def Visit.IsWork : Visit → Prop
  | .unlistable _ _ | .candidate _ => True
  | .pruned _ | .excluded _ => False

namespace SkipSet.Within

variable {skip more : SkipSet} (within : skip.Within more)
include within

theorem skipsDir {name : Text} (skipped : skip.skipsDir name) : more.skipsDir name := within.dirs _ skipped

theorem skipsFile {p : Path} (skipped : skip.skipsFile p) : more.skipsFile p := within.files _ skipped

theorem leavesAlone {r : Root} {rel : Location} (left : r.LeavesAlone skip rel) : r.LeavesAlone more rel :=
  ⟨left.1,within.skipsDir left.2⟩

/-- A walk that leaves less alone gets to all that one that leaves more alone gets to. -/
theorem meets {r : Root} {fs : FileSystem} {rel : Location} (met : r.Meets fs more rel) : r.Meets fs skip rel := by
  induction met with
  | root => exact .root
  | inside _ directory listable kept there ih =>
    exact .inside ih directory listable (fun counts skipped => kept counts (within.skipsDir skipped)) there

/-- Work that is left with more exclusions was there with fewer. -/
theorem mem_visits {r : Root} {fs : FileSystem} {v : Visit} (visited : v ∈ r.visits fs more) (work : v.IsWork) :
    v ∈ r.visits fs skip := by
  obtain ⟨rel,listed⟩ := Root.mem_visits_iff.1 visited
  refine Root.mem_visits_iff.2 ⟨rel,Root.mem_itinerary.2 ?_⟩
  rcases Root.mem_itinerary.1 listed with ⟨_,_,rfl⟩ | ⟨below,met,calls⟩
  · cases work
  · refine .inr ⟨below,within.meets met,?_⟩
    cases calls with
    | pruned _ _ => cases work
    | unlistable directory kept refused => exact .unlistable directory (fun left => kept (within.leavesAlone left)) refused
    | excluded _ _ => cases work
    | candidate source kept => exact .candidate source fun skipped => kept (within.skipsFile skipped)

end SkipSet.Within

namespace FileSystem

theorem perform_isWork (fs : FileSystem) (chain : List Encoding) (mode : Mode) (v : Visit) :
    (fs.perform chain mode v).entry.IsWork ↔ v.IsWork := by
  cases v with
  | candidate p =>
    rw [perform, Step.ofAttempt]
    cases (fs.simplifyFile p chain mode).result <;> exact Iff.rfl
  | _ => exact Iff.rfl

/-- The report of a run tells of work exactly at the paths where there was some. -/
theorem performAll_worksAt_iff (fs : FileSystem) (chain : List Encoding) (mode : Mode) (visits : List Visit)
    (root p : Path) : Report.WorksAt ⟨root,(fs.performAll chain mode visits).map Step.entry⟩ p ↔
      ∃ v ∈ visits, v.path = p ∧ v.IsWork := by
  induction visits generalizing fs with
  | nil => simp [Report.WorksAt, performAll]
  | cons v visits ih =>
    have rest := ih (fs.perform chain mode v).after
    simp only [Report.WorksAt, performAll, List.map_cons, List.mem_cons, exists_eq_or_imp, perform_entry_path,
      perform_isWork] at rest ⊢
    rw [rest]

end FileSystem

/-- Where two walks succeed and the second leaves more alone, it works at no other paths than the first, and any file that it
changes the first one changes to the same bytes. -/
theorem walk_excluding_more {fs : FileSystem} {s : Settings} {more : SkipSet} {report less : Report}
    (within : s.skip.Within more) (ended : (fs.walk s).result = .ok report)
    (ended' : (fs.walk (s.withSkip more)).result = .ok less) :
    (∀ p, less.WorksAt p → report.WorksAt p) ∧
      ∀ l, (fs.walk (s.withSkip more)).after.content l ≠ fs.content l →
        (fs.walk s).after.content l = (fs.walk (s.withSkip more)).after.content l := by
  obtain ⟨r,found,_,walked,rfl⟩ := FileSystem.walk_eq_of_ok ended
  obtain ⟨r',found',_,walked',rfl⟩ := FileSystem.walk_eq_of_ok ended'
  obtain rfl : r = r' := Except.ok.inj (found.symm.trans found')
  constructor
  · intro p
    rw [FileSystem.performAll_worksAt_iff, FileSystem.performAll_worksAt_iff]
    rintro ⟨v,visited,path,work⟩
    exact ⟨v,within.mem_visits visited work,path,work⟩
  · intro l changed
    have writing : s.mode = .write := by
      cases mode : s.mode with
      | write => rfl
      | dryRun =>
        have stays := fs.performAll_dryRun_after s.encodings (r.visits fs more)
        rw [walked'] at changed
        simp only [Walk.ofSteps, Settings.withSkip, mode, stays] at changed
        exact absurd rfl changed
    have changed' : (fs.walk s).after.content l ≠ fs.content l := by
      rw [walked'] at changed
      simp only [Walk.ofSteps, Settings.withSkip, writing] at changed
      obtain ⟨p,bytes,member,opens,written⟩ := (fs.performAll_write_content_iff _ _ l).1 changed
      rw [walked, writing]
      exact (fs.performAll_write_content_iff _ _ l).2 ⟨p,bytes,within.mem_visits member trivial,opens,written⟩
    -- One chain rewrites the same bytes to the same bytes.
    obtain ⟨_,chain,rfl,written⟩ := ((fs.walk_tidies s).content l).resolve_left changed'
    obtain ⟨_,chain,rfl,written'⟩ := ((fs.walk_tidies (s.withSkip more)).content l).resolve_left changed
    exact Option.some.inj (written.symm.trans written')

namespace Sample

/-- The link `a.c` is excluded as well. -/
def moreSkip : SkipSet := ⟨SkipSet.standard.dirs,.ofList [Path.key (Location.path [a])]⟩

theorem within_moreSkip : settings.skip.Within moreSkip where
  dirs := fun _ there => there
  files := by
    intro k there
    exact absurd there Std.ExtTreeSet.not_mem_empty

def lessReport : Report where
  root := ⟨[slash]⟩
  entries := [.skippedFile (Location.path [a]), .processed (Location.path [b]) (.simplified 1 .latin1),
    .failed (Location.path [c]) "i/o error on /c.c: Permission denied (os error 13)",
    .skippedDirectory (Location.path [libs])]

theorem less_walk_result : (disk.walk (settings.withSkip moreSkip)).result = .ok lessReport := by decide +kernel

end Sample

/-- Without the link that came first the file is rewritten through its own path, to the same bytes. -/
theorem sample_walk_excluding_more : Sample.settings.skip.Within Sample.moreSkip ∧
    (Sample.disk.walk Sample.settings).result = .ok Sample.report ∧
    (Sample.disk.walk (Sample.settings.withSkip Sample.moreSkip)).result = .ok Sample.lessReport ∧
    (Sample.disk.walk (Sample.settings.withSkip Sample.moreSkip)).after.content [Sample.b] ≠ Sample.form ∧
    (Sample.disk.walk Sample.settings).after.content [Sample.b] =
      (Sample.disk.walk (Sample.settings.withSkip Sample.moreSkip)).after.content [Sample.b] := by
  obtain ⟨_,alike⟩ := walk_excluding_more Sample.within_moreSkip Sample.walk_result Sample.less_walk_result
  have changed : (Sample.disk.walk (Sample.settings.withSkip Sample.moreSkip)).after.content [Sample.b] ≠ Sample.form := by
    decide +kernel
  have held : Sample.disk.content [Sample.b] = Sample.form := by decide +kernel
  exact ⟨Sample.within_moreSkip,Sample.walk_result,Sample.less_walk_result,changed,alike _ (held ▸ changed)⟩

end ParamTidy
