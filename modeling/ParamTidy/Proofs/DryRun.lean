import ParamTidy.Proofs.Beginning
import ParamTidy.Proofs.Effect

/-!
# Dry runs

A dry run leaves the disk as it is. It tells what a writing walk would do to it, as long as no two of its candidates lead to
one file and none leads to a file that can be read but not written (`walk_foreseen`). Then a writing walk comes to each file as
the dry run did: `perform_foreseen` is one visit, `performAll_foreseen` the run.
-/

namespace ParamTidy

/-! ## What is foreseen, done -/

def Outcome.done : Outcome → Outcome
  | .wouldSimplify n e => .simplified n e
  | o => o

def Entry.done : Entry → Entry
  | .processed p o => .processed p o.done
  | entry => entry

/-- The report of a walk that does what another one only foresaw. -/
def Report.done (report : Report) : Report := ⟨report.root,report.entries.map Entry.done⟩

theorem Outcome.done_substitutions (o : Outcome) : o.done.substitutions = o.substitutions := by
  cases o <;> rfl

theorem Entry.done_outcome? (entry : Entry) : entry.done.outcome? = entry.outcome?.map Outcome.done := by
  cases entry <;> rfl

theorem Entry.done_isFailed (entry : Entry) : entry.done.isFailed = entry.isFailed := by
  cases entry <;> rfl

theorem Report.done_outcomes (report : Report) : report.done.outcomes = report.outcomes.map Outcome.done := by
  rw [outcomes, outcomes, done, List.filterMap_map, List.map_filterMap]
  congr 1
  funext entry
  exact entry.done_outcome?

theorem Report.done_totals (report : Report) : report.done.filesScanned = report.filesScanned ∧
    report.done.filesChanged = report.filesChanged ∧ report.done.substitutions = report.substitutions ∧
    report.done.failures = report.failures := by
  refine ⟨?_,?_,?_,?_⟩
  · rw [filesScanned, filesScanned, done_outcomes, List.length_map]
  · simp only [filesChanged, done_outcomes, List.countP_map, Function.comp_def, Outcome.done_substitutions]
  · simp only [substitutions, allSubstitutions, done_outcomes, List.foldr_map, Outcome.done_substitutions]
  · simp only [failures, done, List.countP_map, Function.comp_def, Entry.done_isFailed]

namespace FileSystem

section
variable {fs now : FileSystem} {p : Path} {chain : List Encoding} (same : SameLayout fs now)
  (intact : ∀ f, fs.resolve p = .ok f → now.content f = fs.content f)
include same intact

theorem read_of_intact {bytes : Bytes} (read : fs.read p = .ok bytes) : now.read p = .ok bytes := by
  obtain ⟨l,access,leads,node,readable,rfl⟩ := read_eq_ok_iff.1 read
  have leads' : now.resolve p = .ok l := same.resolve p ▸ leads
  exact read_eq_ok_iff.2 ⟨l,access,leads',same.layout ▸ node,readable,(intact l leads).symm⟩

/-- What is foreseen of a file happens to it where it still holds the same and may be written if it can be read. -/
theorem simplifyFile_foreseen (editable : fs.Editable p) :
    (now.simplifyFile p chain .write).result = (fs.simplifyFile p chain .dryRun).result.map Outcome.done := by
  have treated := fs.simplifyFile_treated p chain .dryRun
  generalize fs.simplifyFile p chain .dryRun = attempt at treated
  cases treated with
  | unreadable read =>
    have again : Treated now p chain .write _ := .unreadable (same.read_error read)
    rw [treated_iff.1 again]
    rfl
  | undecodable read decoded =>
    have again : Treated now p chain .write _ := .undecodable (read_of_intact same intact read) decoded
    rw [treated_iff.1 again]
    rfl
  | unchanged read decoded free =>
    have again : Treated now p chain .write _ := .unchanged (read_of_intact same intact read) decoded free
    rw [treated_iff.1 again]
    rfl
  | foreseen read decoded holds dry =>
    obtain ⟨l,opens,_⟩ := editable.opens read
    have opens : now.Opens p l := same.opens.2 opens
    have again : Treated now p chain .write _ :=
      .simplified (read_of_intact same intact read) decoded holds rfl (opens.write _)
    rw [treated_iff.1 again]
    rfl
  | unwritable read decoded holds writing write => cases writing
  | simplified read decoded holds writing write => cases writing

end

theorem perform_dryRun_after (fs : FileSystem) (chain : List Encoding) (v : Visit) :
    (fs.perform chain .dryRun v).after = fs := by
  cases v with
  | candidate p =>
    rw [perform_candidate_after]
    exact fs.simplifyFile_dryRun_after p chain
  | _ => rfl

theorem perform_foreseen {fs now : FileSystem} {chain : List Encoding} {v : Visit} (same : SameLayout fs now)
    (intact : ∀ p f, v = .candidate p → fs.resolve p = .ok f → now.content f = fs.content f)
    (editable : ∀ p, v = .candidate p → fs.Editable p) :
    (now.perform chain .write v).entry = (fs.perform chain .dryRun v).entry.done := by
  cases v with
  | candidate p =>
    have foreseen : (now.simplifyFile p chain .write).result = _ :=
      simplifyFile_foreseen same (fun f => intact p f rfl) (editable p rfl)
    rw [perform, perform, Step.ofAttempt, Step.ofAttempt, foreseen]
    cases (fs.simplifyFile p chain .dryRun).result <;> rfl
  | _ => rfl

theorem performAll_dryRun_after (fs : FileSystem) (chain : List Encoding) (visits : List Visit) :
    fs.afterSteps (fs.performAll chain .dryRun visits) = fs := by
  induction visits with
  | nil => rfl
  | cons v visits ih => rw [performAll, afterSteps_cons, perform_dryRun_after, ih]

theorem performAll_foreseen {fs now : FileSystem} {chain : List Encoding} {visits : List Visit}
    (same : SameLayout fs now)
    (apart : visits.Pairwise fun v w =>
      ∀ p q f, v = .candidate p → w = .candidate q → fs.resolve p = .ok f → fs.resolve q ≠ .ok f)
    (intact : ∀ p f, .candidate p ∈ visits → fs.resolve p = .ok f → now.content f = fs.content f)
    (editable : ∀ p, .candidate p ∈ visits → fs.Editable p) :
    (now.performAll chain .write visits).map Step.entry =
      (fs.performAll chain .dryRun visits).map fun step => step.entry.done := by
  induction visits generalizing now with
  | nil => rfl
  | cons v visits ih =>
    obtain ⟨first,later⟩ := List.pairwise_cons.1 apart
    have here : (now.perform chain .write v).entry = (fs.perform chain .dryRun v).entry.done :=
      perform_foreseen same (fun p f candidate => intact p f (by simp [candidate]))
        (fun p candidate => editable p (by simp [candidate]))
    have same' := same.trans (now.perform_tidies chain .write v).toSameLayout
    -- What the rest of the run leads to is not what this visit has written.
    have intact' : ∀ p f, .candidate p ∈ visits → fs.resolve p = .ok f →
        (now.perform chain .write v).after.content f = fs.content f := by
      intro p f member leads
      rw [← intact p f (List.mem_cons_of_mem _ member) leads]
      refine perform_content fun q candidate leads' => ?_
      rw [same.resolve] at leads'
      exact first _ member q p f candidate rfl leads' leads
    have rest := ih same' later intact' fun p member => editable p (List.mem_cons_of_mem _ member)
    rw [performAll, performAll, List.map_cons, List.map_cons, here, rest, perform_dryRun_after]

end FileSystem

/-! ## Walks -/

/-- A file, or a link that leads to one, that a walk meets, by its own name a source and not excluded. -/
def Root.IsCandidate (r : Root) (fs : FileSystem) (skip : SkipSet) (rel : Location) : Prop :=
  r.Meets fs skip rel ∧ r.IsSource fs rel ∧ ¬ skip.skipsFile (r.path rel)

/-- What a writing walk would do can be foreseen: no two candidates lead to one file, and each file they lead to that can be
read can be written. -/
structure Root.Foreseeable (r : Root) (fs : FileSystem) (skip : SkipSet) : Prop where
  alone : ∀ rel rel' f, r.IsCandidate fs skip rel → r.IsCandidate fs skip rel' → fs.resolve (r.path rel) = .ok f →
    fs.resolve (r.path rel') = .ok f → rel = rel'
  writable : ∀ rel f access, r.IsCandidate fs skip rel → fs.resolve (r.path rel) = .ok f →
    fs.layout.node? f = some (.file access) → access.read → access.write

section
variable {r : Root} {fs : FileSystem} {skip : SkipSet} (directory : fs.layout.isDirectory r.base)
  (begun : r.prunes skip [] ∨ fs.listingError? (r.path []) = none)
include directory begun

theorem Root.isCandidate_of_mem_itinerary {rel : Location} {p : Path} (member : (rel,.candidate p) ∈ r.itinerary fs skip) :
    r.IsCandidate fs skip rel ∧ p = r.path rel := by
  obtain ⟨met,calls⟩ := (mem_itinerary_iff directory begun).1 member
  cases calls with
  | candidate source kept => exact ⟨⟨met,source,kept⟩,rfl⟩

theorem Root.exists_isCandidate_of_mem {p : Path} (member : .candidate p ∈ r.visits fs skip) :
    ∃ rel, r.IsCandidate fs skip rel ∧ p = r.path rel := by
  obtain ⟨rel,there⟩ := mem_visits_iff.1 member
  exact ⟨rel,isCandidate_of_mem_itinerary directory begun there⟩

theorem Root.Foreseeable.apart (foreseeable : r.Foreseeable fs skip) : (r.visits fs skip).Pairwise fun v w =>
    ∀ p q f, v = .candidate p → w = .candidate q → fs.resolve p = .ok f → fs.resolve q ≠ .ok f := by
  rw [← map_snd_itinerary, List.pairwise_map]
  refine (r.itinerary_pairwise fs skip).imp_of_mem ?_
  rintro ⟨rel,v⟩ ⟨rel',w⟩ member member' lt p q f here there leads leads'
  simp only at here there lt
  subst here there
  obtain ⟨candidate,rfl⟩ := isCandidate_of_mem_itinerary directory begun member
  obtain ⟨candidate',rfl⟩ := isCandidate_of_mem_itinerary directory begun member'
  exact ne_of_compare_lt lt (foreseeable.alone rel rel' f candidate candidate' leads leads')

end

theorem walk_dryRun_after (fs : FileSystem) (s : Settings) : (fs.walk (s.withMode .dryRun)).after = fs := by
  cases ended : (fs.walk (s.withMode .dryRun)).result with
  | error f =>
    rw [FileSystem.walk_eq_of_error ended]
    rfl
  | ok report =>
    obtain ⟨r,_,_,walked,_⟩ := FileSystem.walk_eq_of_ok ended
    rw [walked]
    exact fs.performAll_dryRun_after s.encodings (r.visits fs s.skip)

theorem walk_result_foreseen {fs : FileSystem} {s : Settings}
    (foreseeable : ∀ r, fs.findRoot s.root = .ok r → r.Foreseeable fs s.skip) :
    (fs.walk (s.withMode .write)).result = (fs.walk (s.withMode .dryRun)).result.map Report.done := by
  rcases fs.begins_or_barred s.root s.skip with ⟨r,found,begun⟩ | ⟨f,bars⟩
  · obtain ⟨_,_,directory,_⟩ := FileSystem.findRoot_eq_ok_iff.1 found
    have plain := foreseeable r found
    have editable : ∀ p, .candidate p ∈ r.visits fs s.skip → fs.Editable p := by
      intro p member f access
      obtain ⟨rel,candidate,rfl⟩ := Root.exists_isCandidate_of_mem directory begun member
      exact plain.writable rel f access candidate
    have entries : (fs.performAll s.encodings .write (r.visits fs s.skip)).map Step.entry = _ :=
      FileSystem.performAll_foreseen (.refl fs) (plain.apart directory begun) (fun _ _ _ _ => rfl) editable
    rw [FileSystem.walk_eq_of_findRoot (s := s.withMode .write) found begun,
      FileSystem.walk_eq_of_findRoot (s := s.withMode .dryRun) found begun]
    simp only [Walk.ofSteps, Except.map, Report.done, List.map_map]
    exact congrArg (fun told => Except.ok (Report.mk (r.path []) told)) entries
  · rw [FileSystem.walk_eq_of_bars (s := s.withMode .write) bars, FileSystem.walk_eq_of_bars (s := s.withMode .dryRun) bars]
    rfl

/-- A dry run leaves any disk as it is. If what a writing walk would do can be foreseen, the two end alike, in the same failure
or in reports that differ only in that the one does what the other foresees, and in the same totals. -/
theorem walk_foreseen (fs : FileSystem) (s : Settings) :
    (fs.walk (s.withMode .dryRun)).after = fs ∧
      ((∀ r, fs.findRoot s.root = .ok r → r.Foreseeable fs s.skip) →
        (fs.walk (s.withMode .write)).result = (fs.walk (s.withMode .dryRun)).result.map Report.done ∧
        ∀ dry real, (fs.walk (s.withMode .dryRun)).result = .ok dry → (fs.walk (s.withMode .write)).result = .ok real →
          real.filesScanned = dry.filesScanned ∧ real.filesChanged = dry.filesChanged ∧
            real.substitutions = dry.substitutions ∧ real.failures = dry.failures) := by
  refine ⟨walk_dryRun_after fs s,?_⟩
  intro foreseeable
  have alike := walk_result_foreseen foreseeable
  refine ⟨alike,?_⟩
  intro dry real dried walked
  rw [dried, walked] at alike
  obtain rfl : real = dry.done := Except.ok.inj alike
  exact dry.done_totals

namespace Sample

theorem linked_itinerary : top.itinerary linkedDisk linkedSettings.skip =
    [([a],.candidate (Location.path [a])), ([b],.candidate (Location.path [b])), ([c],.excluded (Location.path [c])),
      ([d],.unlistable (Location.path [d]) .accessDenied), ([libs],.pruned (Location.path [libs]))] := by
  decide +kernel

/-- The two candidates are links to two files. -/
theorem linked_candidates {rel f : Location} (candidate : top.IsCandidate linkedDisk linkedSettings.skip rel)
    (leads : linkedDisk.resolve (top.path rel) = .ok f) : rel = [a] ∧ f = [libs, a] ∨ rel = [b] ∧ f = [c] := by
  obtain ⟨met,source,kept⟩ := candidate
  have listed : (rel,.candidate (top.path rel)) ∈ top.itinerary linkedDisk linkedSettings.skip :=
    (Root.mem_itinerary_iff (by decide +kernel) (by decide +kernel)).2 ⟨met,.candidate source kept⟩
  rw [linked_itinerary] at listed
  simp only [List.mem_cons, List.not_mem_nil, Prod.mk.injEq, Visit.candidate.injEq, reduceCtorEq, and_false, or_false] at listed
  rcases listed with ⟨rfl,_⟩ | ⟨rfl,_⟩
  · have there : linkedDisk.resolve (top.path [a]) = .ok [libs, a] := by decide +kernel
    exact .inl ⟨rfl,Except.ok.inj (leads.symm.trans there)⟩
  · have there : linkedDisk.resolve (top.path [b]) = .ok [c] := by decide +kernel
    exact .inr ⟨rfl,Except.ok.inj (leads.symm.trans there)⟩

theorem linked_foreseeable : top.Foreseeable linkedDisk linkedSettings.skip where
  alone := by
    intro rel rel' f candidate candidate' leads leads'
    rcases linked_candidates candidate leads with ⟨rfl,rfl⟩ | ⟨rfl,rfl⟩
    · rcases linked_candidates candidate' leads' with ⟨rfl,_⟩ | ⟨_,other⟩
      · rfl
      · exact absurd other (by decide)
    · rcases linked_candidates candidate' leads' with ⟨_,other⟩ | ⟨rfl,_⟩
      · exact absurd other (by decide)
      · rfl
  writable := by
    intro rel f access candidate leads node _
    have full : linkedDisk.layout.node? f = some (.file .full) := by
      rcases linked_candidates candidate leads with ⟨_,rfl⟩ | ⟨_,rfl⟩ <;> decide +kernel
    rw [full, Option.some.injEq, Node.file.injEq] at node
    rw [← node]
    rfl

end Sample

/-- The dry run foresees both of the files that the links lead to, and the real run rewrites them. -/
theorem sample_walk_foreseen :
    (∀ r, Sample.linkedDisk.findRoot Sample.linkedSettings.root = .ok r →
      r.Foreseeable Sample.linkedDisk Sample.linkedSettings.skip) ∧
    (Sample.linkedDisk.walk (Sample.linkedSettings.withMode .dryRun)).after = Sample.linkedDisk ∧
    (Sample.linkedDisk.walk (Sample.linkedSettings.withMode .dryRun)).result.map Report.done = .ok Sample.linkedReport := by
  have foreseeable : ∀ r, Sample.linkedDisk.findRoot Sample.linkedSettings.root = .ok r →
      r.Foreseeable Sample.linkedDisk Sample.linkedSettings.skip := by
    intro r found
    obtain rfl : Sample.top = r := Except.ok.inj (Sample.linked_findRoot.symm.trans found)
    exact Sample.linked_foreseeable
  obtain ⟨stays,alike⟩ := walk_foreseen Sample.linkedDisk Sample.linkedSettings
  refine ⟨foreseeable,stays,?_⟩
  rw [← (alike foreseeable).1]
  exact Sample.linked_walk_result

end ParamTidy
