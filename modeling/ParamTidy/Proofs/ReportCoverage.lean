import ParamTidy.Proofs.Rounds

/-!
# What a report accounts for

The report of a walk that succeeds accounts for exactly what the walk meets: one entry for each place that there is something
to tell of, and no other (`walk_covers`). An entry is told from what lies at its place, and for a file that is to be simplified
from what came of it at that point of the walk (`Root.Accounts`). `perform_accounts` is one visit, `performAll_accounts` the
run.
-/

namespace ParamTidy

namespace FileSystem

/-- What fails about one file names the file. -/
theorem simplifyFile_error {fs : FileSystem} {p : Path} {chain : List Encoding} {mode : Mode} {f : Failure}
    (failed : (fs.simplifyFile p chain mode).result = .error f) : (∃ c, f = .io p c) ∨ f = .undecodable p := by
  have treated := fs.simplifyFile_treated p chain mode
  generalize fs.simplifyFile p chain mode = attempt at treated failed
  cases treated with
  | unreadable read =>
    cases failed
    exact .inl ⟨_,rfl⟩
  | undecodable read decoded =>
    cases failed
    exact .inr rfl
  | unwritable read decoded holds writing write =>
    cases failed
    exact .inl ⟨_,rfl⟩
  | _ => cases failed

end FileSystem

namespace Root

section
variable (r : Root) (fs : FileSystem) (s : Settings)

/-- There is something to tell of a place: a directory that is left alone or cannot be listed, or a source. -/
def Tellable (rel : Location) : Prop :=
  fs.layout.isDirectory (r.place rel) ∧ (r.LeavesAlone s.skip rel ∨ (fs.listingError? (r.path rel)).isSome) ∨
    r.IsSource fs rel

/-- What is told of a place, and the file system after it. What lies at the place counts, and of a source that is not excluded
what comes of it in the file system that the walk has made until then. -/
inductive Accounts (rel : Location) (now : FileSystem) : Entry → FileSystem → Prop
  | pruned (directory : fs.layout.isDirectory (r.place rel)) (left : r.LeavesAlone s.skip rel) :
      Accounts rel now (.skippedDirectory (r.path rel)) now
  | unlistable {e : SystemError} (directory : fs.layout.isDirectory (r.place rel)) (kept : ¬ r.LeavesAlone s.skip rel)
      (refused : fs.listingError? (r.path rel) = some e) :
      Accounts rel now
        (.failed (r.path rel) (Failure.untraversable (r.path rel) (.unlistable (r.path rel) e)).message) now
  | excluded (source : r.IsSource fs rel) (skipped : s.skip.skipsFile (r.path rel)) :
      Accounts rel now (.skippedFile (r.path rel)) now
  | processed {o : Outcome} (source : r.IsSource fs rel) (kept : ¬ s.skip.skipsFile (r.path rel))
      (done : (now.simplifyFile (r.path rel) s.encodings s.mode).result = .ok o) :
      Accounts rel now (.processed (r.path rel) o) (now.simplifyFile (r.path rel) s.encodings s.mode).after
  | failed {f : Failure} (source : r.IsSource fs rel) (kept : ¬ s.skip.skipsFile (r.path rel))
      (done : (now.simplifyFile (r.path rel) s.encodings s.mode).result = .error f) :
      Accounts rel now (.failed (r.path rel) f.message) (now.simplifyFile (r.path rel) s.encodings s.mode).after

/-- What is told of some places one after the other, from one file system to another. -/
inductive AccountsAll : FileSystem → List Location → List Entry → FileSystem → Prop
  | nil {now : FileSystem} : AccountsAll now [] [] now
  | cons {now next after : FileSystem} {rel : Location} {places : List Location} {entry : Entry} {entries : List Entry}
      (first : r.Accounts fs s rel now entry next) (rest : AccountsAll next places entries after) :
      AccountsAll now (rel :: places) (entry :: entries) after

end

variable {r : Root} {fs : FileSystem} {s : Settings}

theorem tellable_iff {rel : Location} : r.Tellable fs s rel ↔ ∃ v, r.Calls fs s.skip rel v := by
  constructor
  · rintro (⟨directory,told⟩ | source)
    · by_cases left : r.LeavesAlone s.skip rel
      · exact ⟨_,.pruned directory left⟩
      · obtain ⟨e,refused⟩ := Option.isSome_iff_exists.1 (told.resolve_left left)
        exact ⟨_,.unlistable directory left refused⟩
    · by_cases skipped : s.skip.skipsFile (r.path rel)
      · exact ⟨_,.excluded source skipped⟩
      · exact ⟨_,.candidate source skipped⟩
  · rintro ⟨v,calls⟩
    cases calls with
    | pruned directory left => exact .inl ⟨directory,.inl left⟩
    | unlistable directory kept refused => exact .inl ⟨directory,.inr (by simp [refused])⟩
    | excluded source skipped => exact .inr source
    | candidate source kept => exact .inr source

theorem Accounts.path {rel : Location} {now after : FileSystem} {entry : Entry}
    (accounts : r.Accounts fs s rel now entry after) : entry.path = r.path rel := by
  cases accounts <;> rfl

theorem AccountsAll.paths {now after : FileSystem} {places : List Location} {entries : List Entry}
    (all : r.AccountsAll fs s now places entries after) : entries.map Entry.path = places.map r.path := by
  induction all with
  | nil => rfl
  | cons first rest ih => rw [List.map_cons, List.map_cons, first.path, ih]

theorem AccountsAll.exists_of_mem {now after : FileSystem} {places : List Location} {entries : List Entry}
    (all : r.AccountsAll fs s now places entries after) {entry : Entry} (member : entry ∈ entries) :
    ∃ rel ∈ places, ∃ before next, r.Accounts fs s rel before entry next := by
  induction all with
  | nil => cases member
  | @cons before next _ rel _ _ _ first rest ih =>
    rcases List.mem_cons.1 member with rfl | member
    · exact ⟨rel,by simp,before,next,first⟩
    · obtain ⟨rel',there,accounts⟩ := ih member
      exact ⟨rel',List.mem_cons_of_mem _ there,accounts⟩

/-! ## Visits and runs -/

theorem perform_accounts {rel : Location} {v : Visit} (calls : r.Calls fs s.skip rel v) (now : FileSystem) :
    r.Accounts fs s rel now (now.perform s.encodings s.mode v).entry (now.perform s.encodings s.mode v).after := by
  cases calls with
  | pruned directory left => exact .pruned directory left
  | unlistable directory kept refused => exact .unlistable directory kept refused
  | excluded source skipped => exact .excluded source skipped
  | candidate source kept =>
    rw [FileSystem.perform]
    cases done : (now.simplifyFile (r.path rel) s.encodings s.mode).result with
    | ok o =>
      simp only [Step.ofAttempt, done]
      exact .processed source kept done
    | error f =>
      have named : f.path = r.path rel := by
        rcases FileSystem.simplifyFile_error done with ⟨c,rfl⟩ | rfl <;> rfl
      simp only [Step.ofAttempt, done, Step.ofFailure, named]
      exact .failed source kept done

theorem performAll_accounts {list : List (Location × Visit)} (calls : ∀ e ∈ list, r.Calls fs s.skip e.1 e.2)
    (now : FileSystem) :
    r.AccountsAll fs s now (list.map Prod.fst)
      ((now.performAll s.encodings s.mode (list.map Prod.snd)).map Step.entry)
      (now.afterSteps (now.performAll s.encodings s.mode (list.map Prod.snd))) := by
  induction list generalizing now with
  | nil => exact .nil
  | cons e list ih =>
    have first := perform_accounts (calls e (by simp)) now
    have rest := ih (fun e' member => calls e' (List.mem_cons_of_mem _ member)) (now.perform s.encodings s.mode e.2).after
    rw [List.map_cons, List.map_cons, FileSystem.performAll, FileSystem.afterSteps_cons, List.map_cons]
    exact .cons first rest

/-- Each entry of a walk that can begin is told of some place that the walk meets. -/
theorem exists_accounts (directory : fs.layout.isDirectory r.base)
    (begun : r.prunes s.skip [] ∨ fs.listingError? (r.path []) = none) {entry : Entry}
    (member : entry ∈ (fs.performAll s.encodings s.mode (r.visits fs s.skip)).map Step.entry) :
    ∃ rel, r.Meets fs s.skip rel ∧ ∃ now next, r.Accounts fs s rel now entry next := by
  have visited (e : Location × Visit) (listed : e ∈ r.itinerary fs s.skip) :
      r.Meets fs s.skip e.1 ∧ r.Calls fs s.skip e.1 e.2 := (mem_itinerary_iff directory begun).1 listed
  have all := performAll_accounts (fun e listed => (visited e listed).2) fs
  rw [map_snd_itinerary] at all
  obtain ⟨rel,there,now,next,accounts⟩ := all.exists_of_mem member
  obtain ⟨e,listed,rfl⟩ := List.mem_map.1 there
  exact ⟨e.1,(visited e listed).1,now,next,accounts⟩

end Root

/-! ## Reports -/

/-- A report covers what a walk meets: it has one entry for each place that is met and that there is something to tell of, and
no other. So nothing is told twice, nothing of what lies below a directory that is left alone or below a link, and nothing of a
link that leads to no file. -/
structure Report.Covers (report : Report) (r : Root) (s : Settings) (before after : FileSystem) : Prop where
  root : report.root = r.path []
  told : ∃ places : List Location, places.Nodup ∧
    (∀ rel, rel ∈ places ↔ r.Meets before s.skip rel ∧ r.Tellable before s rel) ∧
    r.AccountsAll before s before places report.entries after
  once : (report.entries.map Entry.path).Nodup
  belowPruned : ∀ rel n more, .skippedDirectory (r.path rel) ∈ report.entries →
    r.path (rel ++ n :: more) ∉ report.entries.map Entry.path
  belowLink : ∀ rel n more, before.layout.isLink (r.place rel) →
    r.path (rel ++ n :: more) ∉ report.entries.map Entry.path
  lost : ∀ rel, before.layout.isLink (r.place rel) → ¬ before.leadsToFile (r.path rel) →
    r.path rel ∉ report.entries.map Entry.path

section
variable {r : Root} {s : Settings} {before after : FileSystem} {places : List Location} {entries : List Entry}

theorem report_covers (distinct : places.Nodup)
    (complete : ∀ rel, rel ∈ places ↔ r.Meets before s.skip rel ∧ r.Tellable before s rel)
    (all : r.AccountsAll before s before places entries after) :
    Report.Covers ⟨r.path [],entries⟩ r s before after := by
  have met (rel : Location) (told : r.path rel ∈ entries.map Entry.path) :
      r.Meets before s.skip rel ∧ r.Tellable before s rel := by
    rw [all.paths] at told
    obtain ⟨rel',member,same⟩ := List.mem_map.1 told
    obtain rfl := Root.path_inj.1 same
    exact (complete rel').1 member
  refine ⟨rfl,⟨places,distinct,complete,all⟩,?_,?_,?_,?_⟩
  · rw [all.paths]
    exact List.pairwise_map.2 (distinct.imp fun ne same => ne (Root.path_inj.1 same))
  · intro rel n more skipped told
    obtain ⟨rel',_,now,next,accounts⟩ := all.exists_of_mem skipped
    obtain rfl : rel = rel' := Root.path_inj.1 accounts.path
    cases accounts with
    | pruned _ left => exact (Root.enters_iff.1 (met _ told).1.enters_above).2.1 left
  · intro rel n more link told
    rw [Layout.not_isLink_of_isDirectory (Root.enters_iff.1 (met _ told).1.enters_above).1] at link
    cases link
  · intro rel link lost told
    rcases (met _ told).2 with ⟨directory,_⟩ | ⟨_,file | ⟨_,leads⟩⟩
    · rw [Layout.not_isLink_of_isDirectory directory] at link
      cases link
    · rw [Layout.not_isLink_of_isFile file] at link
      cases link
    · exact lost leads

end

/-- The report of a walk that succeeds covers what the walk meets. -/
theorem walk_covers {fs : FileSystem} {s : Settings} {report : Report} (ended : (fs.walk s).result = .ok report) :
    ∃ r, fs.findRoot s.root = .ok r ∧ report.Covers r s fs (fs.walk s).after := by
  obtain ⟨r,found,begun,walked,rfl⟩ := FileSystem.walk_eq_of_ok ended
  obtain ⟨_,_,directory,_⟩ := FileSystem.findRoot_eq_ok_iff.1 found
  have visited (e : Location × Visit) : e ∈ r.itinerary fs s.skip ↔ r.Meets fs s.skip e.1 ∧ r.Calls fs s.skip e.1 e.2 :=
    Root.mem_itinerary_iff directory begun
  have all := Root.performAll_accounts (fun e member => ((visited e).1 member).2) fs
  rw [Root.map_snd_itinerary] at all
  have complete (rel : Location) :
      rel ∈ (r.itinerary fs s.skip).map Prod.fst ↔ r.Meets fs s.skip rel ∧ r.Tellable fs s rel := by
    rw [Root.tellable_iff]
    constructor
    · intro member
      obtain ⟨e,there,rfl⟩ := List.mem_map.1 member
      obtain ⟨met,calls⟩ := (visited e).1 there
      exact ⟨met,e.2,calls⟩
    · rintro ⟨met,v,calls⟩
      exact List.mem_map.2 ⟨(rel,v),(visited _).2 ⟨met,calls⟩,rfl⟩
  refine ⟨r,found,?_⟩
  rw [walked]
  exact report_covers (r.itinerary_nodup fs s.skip) complete all

/-! ## Another disk to try things on -/

namespace Sample

def d : Name := ⟨[0x64],by decide⟩

def e : Name := ⟨[0x65, 0x2E, 0x63],by decide⟩

/-- Links `a.c` and `b.c` to files that are excluded, one for its directory and one for its path, a link `e.c` to itself, and a
directory `d` that cannot be listed. -/
def linkedDisk : FileSystem :=
  ⟨⟨.ofList [([a],Node.link ⟨spell [libs, a]⟩), ([b],.link ⟨c.bytes⟩), ([c],.file .full),
    ([d],.directory ⟨false,true,true⟩), ([d, a],.file .full), ([e],.link ⟨e.bytes⟩),
    ([libs],.directory .full), ([libs, a],.file .full)]⟩,
    .ofList [([c],form), ([d, a],form), ([libs, a],form)],.present []⟩

def linkedSettings : Settings := (Settings.ofRoot ⟨[slash]⟩).withSkip (.ofLists SkipSet.standardDirs [[c]])

def linkedReport : Report where
  root := ⟨[slash]⟩
  entries := [.processed (Location.path [a]) (.simplified 1 .latin1), .processed (Location.path [b]) (.simplified 1 .latin1),
    .skippedFile (Location.path [c]),
    .failed (Location.path [d]) "cannot traverse /d: IO error for operation on /d: Permission denied (os error 13)",
    .skippedDirectory (Location.path [libs])]

def top : Root := ⟨[],[],false⟩

theorem linked_findRoot : linkedDisk.findRoot linkedSettings.root = .ok top :=
  FileSystem.findRoot_eq_ok_iff.2 (by decide +kernel)

theorem linked_walk_result : (linkedDisk.walk linkedSettings).result = .ok linkedReport := by decide +kernel

end Sample

/-- The links are told of, but for the one that leads nowhere, and so are the file and the directories that the walk stays out
of; nothing in these is. -/
theorem sample_walk_covers : (Sample.linkedDisk.walk Sample.linkedSettings).result = .ok Sample.linkedReport ∧
    ∃ r, Sample.linkedDisk.findRoot Sample.linkedSettings.root = .ok r ∧
      Sample.linkedReport.Covers r Sample.linkedSettings Sample.linkedDisk
        (Sample.linkedDisk.walk Sample.linkedSettings).after :=
  ⟨Sample.linked_walk_result,walk_covers Sample.linked_walk_result⟩

end ParamTidy
