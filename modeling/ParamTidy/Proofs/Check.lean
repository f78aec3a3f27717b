import ParamTidy.CommandLine
import ParamTidy.Proofs.Agreement
import ParamTidy.Proofs.DryRun
import ParamTidy.Proofs.Reading
import ParamTidy.Proofs.SecondRun

/-!
# Checks

A check does nothing and tells by the number it ends with what the same command without it does: whether it can go on, and
whether it changes any file (`check_foretells`). Where several links lead to one file a dry run counts it for each of them and
the real run once, so only whether anything is counted at all carries over: `performAll_foresees_iff`.
-/

namespace ParamTidy

/-! ## What a dry run counts -/

theorem Report.filesChanged_pos_iff {report : Report} :
    0 < report.filesChanged ↔ ∃ entry ∈ report.entries, ∃ o, entry.outcome? = some o ∧ 0 < o.substitutions := by
  rw [filesChanged, List.countP_pos_iff]
  constructor
  · rintro ⟨o,counted,positive⟩
    obtain ⟨entry,member,outcome⟩ := List.mem_filterMap.1 counted
    exact ⟨entry,member,o,outcome,of_decide_eq_true positive⟩
  · rintro ⟨entry,member,o,outcome,positive⟩
    exact ⟨o,List.mem_filterMap.2 ⟨entry,member,outcome⟩,decide_eq_true positive⟩

namespace FileSystem

/-- A dry run counts a file at a visit exactly if the file there can be read and holds something to rewrite. -/
theorem perform_foresees_iff (fs : FileSystem) (chain : List Encoding) (v : Visit) :
    (∃ o, (fs.perform chain .dryRun v).entry.outcome? = some o ∧ 0 < o.substitutions) ↔
      ∃ p bytes bytes', v = .candidate p ∧ fs.read p = .ok bytes ∧ rewritten? chain bytes = some bytes' := by
  cases v with
  | candidate p =>
    rw [perform]
    have treated := fs.simplifyFile_treated p chain .dryRun
    generalize fs.simplifyFile p chain .dryRun = attempt at treated
    cases treated with
    | unreadable read => simp [Step.ofAttempt, Step.ofFailure, Entry.outcome?, read]
    | undecodable read decoded =>
      simp [Step.ofAttempt, Step.ofFailure, Entry.outcome?, read, rewritten?_of_none decoded]
    | unchanged read decoded free =>
      simp [Step.ofAttempt, Entry.outcome?, Outcome.substitutions, read, rewritten?_of_free decoded free]
    | foreseen read decoded holds dry =>
      have positive := simplify_changed_iff.2 holds
      rw [Simplified.changed, decide_eq_true_iff] at positive
      simp [Step.ofAttempt, Entry.outcome?, Outcome.substitutions, read, rewritten?_of_holds decoded holds, positive]
    | unwritable read decoded holds writing write => cases writing
    | simplified read decoded holds writing write => cases writing
  | _ => simp [perform, Step.ofFailure, Entry.outcome?]

theorem performAll_dryRun (fs : FileSystem) (chain : List Encoding) (visits : List Visit) :
    fs.performAll chain .dryRun visits = visits.map (fs.perform chain .dryRun) := by
  induction visits with
  | nil => rfl
  | cons v visits ih => rw [performAll, perform_dryRun_after, ih, List.map_cons]

section
variable {fs : FileSystem} {chain : List Encoding} {visits : List Visit}
  (editable : ∀ p, .candidate p ∈ visits → fs.Editable p)
include editable

/-- A dry run counts a file exactly if the real run changes one, though perhaps not as many. -/
theorem performAll_foresees_iff (root : Path) :
    0 < Report.filesChanged ⟨root,(fs.performAll chain .dryRun visits).map Step.entry⟩ ↔
      ∃ f, (fs.afterSteps (fs.performAll chain .write visits)).content f ≠ fs.content f := by
  rw [Report.filesChanged_pos_iff, performAll_dryRun]
  constructor
  · rintro ⟨entry,member,counted⟩
    obtain ⟨step,performed,rfl⟩ := List.mem_map.1 member
    obtain ⟨v,visited,rfl⟩ := List.mem_map.1 performed
    obtain ⟨p,bytes,bytes',rfl,read,found⟩ := (fs.perform_foresees_iff chain v).1 counted
    obtain ⟨f,opens,rfl⟩ := (editable p visited).opens read
    exact ⟨f,(fs.performAll_write_content_iff chain visits f).2 ⟨p,bytes',visited,opens,found⟩⟩
  · rintro ⟨f,changed⟩
    obtain ⟨p,bytes,visited,opens,found⟩ := (fs.performAll_write_content_iff chain visits f).1 changed
    have counted := (fs.perform_foresees_iff chain (.candidate p)).2 ⟨p,_,bytes,rfl,opens.read,found⟩
    exact ⟨_,List.mem_map_of_mem (List.mem_map_of_mem visited),counted⟩

theorem performAll_foresees_nothing (root : Path) : ¬ 0 < Report.filesChanged
    ⟨root,((fs.afterSteps (fs.performAll chain .write visits)).performAll chain .dryRun visits).map Step.entry⟩ := by
  have same := (fs.performAll_tidies chain .write visits).toSameLayout
  have editable' : ∀ p, .candidate p ∈ visits → (fs.afterSteps (fs.performAll chain .write visits)).Editable p :=
    fun p visited => same.editable.2 (editable p visited)
  obtain ⟨stays,_⟩ := performAll_again (Tidies.refl (fs.afterSteps (fs.performAll chain .write visits)))
  intro counted
  obtain ⟨f,changed⟩ := (performAll_foresees_iff editable' root).1 counted
  rw [stays] at changed
  exact changed rfl

end

end FileSystem

/-! ## Documents -/

structure Report.IsText (report : Report) : Prop where
  root : report.root.text?.isSome
  entries : ∀ p ∈ report.entries.map Entry.path, p.text?.isSome

theorem isSome_mapM_iff {α β : Type} {f : α → Option β} {xs : List α} :
    (xs.mapM f).isSome ↔ ∀ x ∈ xs, (f x).isSome := by
  induction xs with
  | nil => simp
  | cons x xs ih =>
    rw [List.forall_mem_cons, ← ih, List.mapM_cons]
    cases f x with
    | none => simp
    | some y => cases xs.mapM f <;> simp

theorem Report.document?_isSome_iff {report : Report} : report.document?.isSome ↔ report.IsText := by
  have told : (report.entries.mapM Entry.document?).isSome ↔ ∀ p ∈ report.entries.map Entry.path, p.text?.isSome := by
    rw [isSome_mapM_iff, List.forall_mem_map]
    simp only [Entry.document?, Option.isSome_map]
  have both : report.document?.isSome ↔ report.root.text?.isSome ∧ (report.entries.mapM Entry.document?).isSome := by
    unfold document?
    cases report.root.text? with
    | none => simp
    | some t => cases report.entries.mapM Entry.document? <;> simp
  rw [both, told]
  exact ⟨fun ⟨root,entries⟩ => ⟨root,entries⟩,fun text => ⟨text.root,text.entries⟩⟩

/-! ## Runs from the command line -/

namespace FileSystem

theorem SameLayout.skipSet {a b : FileSystem} (same : SameLayout a b) (dirs : List Text) (files : List Path) :
    b.skipSet dirs files = a.skipSet dirs files := by
  simp only [FileSystem.skipSet, locate, same.cwd]

/-- Every file that a walk has for a candidate can be written if it can be read. -/
def WritesWhatItReads (fs : FileSystem) (s : Settings) : Prop :=
  ∀ r rel, fs.findRoot s.root = .ok r → r.IsCandidate fs s.skip rel → fs.Editable (r.path rel)

/-- A check tells of a plain run whether it can go on and whether it then changes any file, and does nothing itself. After a
plain run that succeeds it finds nothing. -/
structure Foretells (fs : FileSystem) (check plain : FileSystem → Finished) : Prop where
  leaves : (check fs).after = fs
  fails : (check fs).exitCode = 2 ↔ (plain fs).exitCode = 2
  finds : (plain fs).exitCode ≠ 2 →
    ((check fs).exitCode = 1 ↔ ∃ f, fs.layout.isFile f ∧ (plain fs).after.content f ≠ fs.content f)
  clears : (plain fs).exitCode ≠ 2 →
    ((check fs).exitCode = 0 ↔ ∀ f, fs.layout.isFile f → (plain fs).after.content f = fs.content f)
  settles : (plain fs).exitCode = 0 → (check (plain fs).after).exitCode = 0

theorem foretells_of_failure {fs : FileSystem} {check plain : FileSystem → Finished} {log log' : List LogLine} {f f' : Failure}
    (failed : check fs = .ofFailure fs log f) (failed' : plain fs = .ofFailure fs log' f') : fs.Foretells check plain := by
  constructor <;> simp [failed, failed', Finished.ofFailure]

theorem runWalk_of_skipSet {fs : FileSystem} {o : WalkOptions} {f : Failure}
    (skips : fs.skipSet o.dirs o.skipFiles = .error f) : fs.runWalk o = .ofFailure fs [] f := by
  simp only [runWalk, skips]

theorem runWalk_of_bars {fs : FileSystem} {o : WalkOptions} {skip : SkipSet} {f : Failure}
    (skips : fs.skipSet o.dirs o.skipFiles = .ok skip) (bars : fs.Bars (o.settings skip).root skip f) :
    fs.runWalk o = .ofFailure fs [] f := by
  simp only [runWalk, skips, walk_eq_of_bars (s := o.settings skip) bars, Walk.ofFailure]

/-- The paths that a report tells of hang on the visits alone. -/
theorem isText_performAll_iff (fs : FileSystem) (chain : List Encoding) (mode : Mode) (visits : List Visit) (root : Path) :
    Report.IsText ⟨root,(fs.performAll chain mode visits).map Step.entry⟩ ↔
      root.text?.isSome ∧ ∀ p ∈ visits.map Visit.path, p.text?.isSome := by
  rw [← fs.performAll_paths chain mode visits]
  exact ⟨fun text => ⟨text.root,text.entries⟩,fun ⟨root,entries⟩ => ⟨root,entries⟩⟩

theorem runWalk_of_findRoot {fs : FileSystem} {o : WalkOptions} {skip : SkipSet} {r : Root}
    (skips : fs.skipSet o.dirs o.skipFiles = .ok skip) (found : fs.findRoot (o.settings skip).root = .ok r)
    (begun : r.prunes skip [] ∨ fs.listingError? (r.path []) = none)
    (spelled : o.run.json → (r.path []).text?.isSome ∧ ∀ p ∈ (r.visits fs skip).map Visit.path, p.text?.isSome) :
    (fs.runWalk o).exitCode = o.exitCode
        ⟨r.path [],(fs.performAll o.run.chain (o.settings skip).mode (r.visits fs skip)).map Step.entry⟩ ∧
      (fs.runWalk o).after = fs.afterSteps (fs.performAll o.run.chain (o.settings skip).mode (r.visits fs skip)) := by
  have walked : fs.walk (o.settings skip) = .ofSteps fs (r.path [])
      (fs.performAll o.run.chain (o.settings skip).mode (r.visits fs skip)) := walk_eq_of_findRoot found begun
  simp only [runWalk, skips, walked, Walk.ofSteps]
  by_cases json : o.run.json
  · have text := (isText_performAll_iff fs o.run.chain (o.settings skip).mode _ _).2 (spelled json)
    obtain ⟨j,document⟩ := Option.isSome_iff_exists.1 (Report.document?_isSome_iff.2 text)
    simp [json, document, Finished.ofDocument?]
  · simp [json]

section
variable {fs : FileSystem} {o : WalkOptions} {skip : SkipSet} {r : Root}
  (skips : fs.skipSet o.dirs o.skipFiles = .ok skip) (found : fs.findRoot (o.settings skip).root = .ok r)
  (begun : r.prunes skip [] ∨ fs.listingError? (r.path []) = none)
  (spelled : o.run.json → (r.path []).text?.isSome ∧ ∀ p ∈ (r.visits fs skip).map Visit.path, p.text?.isSome)
include skips found begun spelled

theorem runWalk_plain (unchecked : o.check = false) (writing : o.run.dryRun = false) :
    (fs.runWalk o).exitCode = 0 ∧
      (fs.runWalk o).after = fs.afterSteps (fs.performAll o.run.chain .write (r.visits fs skip)) := by
  have mode : (o.settings skip).mode = .write := by simp [WalkOptions.settings, unchecked, RunOptions.mode, writing]
  obtain ⟨exit,after⟩ := runWalk_of_findRoot skips found begun spelled
  rw [exit, after, WalkOptions.exitCode, unchecked, mode]
  exact ⟨rfl,rfl⟩

/-- On a disk of the same layout a check ends with 1 if it counts anything and with 0 otherwise. -/
theorem runWalk_check {now : FileSystem} (same : SameLayout fs now) : (now.runWalk o.asCheck).after = now ∧
    (now.runWalk o.asCheck).exitCode = if 0 < Report.filesChanged
      ⟨r.path [],(now.performAll o.run.chain .dryRun (r.visits fs skip)).map Step.entry⟩ then 1 else 0 := by
  have skips' : now.skipSet o.asCheck.dirs o.asCheck.skipFiles = .ok skip := by rw [same.skipSet, ← skips]; rfl
  have found' : now.findRoot (o.asCheck.settings skip).root = .ok r := by rw [same.findRoot, ← found]; rfl
  have begun' : r.prunes skip [] ∨ now.listingError? (r.path []) = none := by rwa [same.listingError?]
  obtain ⟨exit,after⟩ := runWalk_of_findRoot skips' found' begun' (same.visits r skip ▸ spelled)
  have mode : (o.asCheck.settings skip).mode = .dryRun := rfl
  rw [same.visits, mode] at exit after
  refine ⟨?_,?_⟩
  · rw [after, performAll_dryRun_after]
  · rw [exit, WalkOptions.exitCode]
    simp [WalkOptions.asCheck]

theorem runWalk_foretells_of_findRoot (unchecked : o.check = false) (writing : o.run.dryRun = false)
    (editable : ∀ p, .candidate p ∈ r.visits fs skip → fs.Editable p) :
    fs.Foretells (·.runWalk o.asCheck) (·.runWalk o) := by
  obtain ⟨exit,after⟩ := runWalk_plain skips found begun spelled unchecked writing
  obtain ⟨leaves,told⟩ := runWalk_check skips found begun spelled (.refl fs)
  have file (f : Location) (changed : (fs.runWalk o).after.content f ≠ fs.content f) : fs.layout.isFile f := by
    rw [after] at changed
    obtain ⟨_,_,_,opens,_⟩ := (fs.performAll_write_content_iff _ _ f).1 changed
    exact opens.isFile
  have counts : 0 < Report.filesChanged ⟨r.path [],(fs.performAll o.run.chain .dryRun (r.visits fs skip)).map Step.entry⟩ ↔
      ∃ f, fs.layout.isFile f ∧ (fs.runWalk o).after.content f ≠ fs.content f := by
    rw [performAll_foresees_iff editable, ← after]
    exact ⟨fun ⟨f,changed⟩ => ⟨f,file f changed,changed⟩,fun ⟨f,_,changed⟩ => ⟨f,changed⟩⟩
  have one : (fs.runWalk o.asCheck).exitCode = 1 ↔
      ∃ f, fs.layout.isFile f ∧ (fs.runWalk o).after.content f ≠ fs.content f := by
    rw [told, ← counts]
    split <;> simp_all
  have zero : (fs.runWalk o.asCheck).exitCode = 0 ↔
      ¬ ∃ f, fs.layout.isFile f ∧ (fs.runWalk o).after.content f ≠ fs.content f := by
    rw [told, ← counts]
    split <;> simp_all
  constructor
  · exact leaves
  · simp only [told, exit]
    split <;> simp
  · intro _
    exact one
  · intro _
    simpa using zero
  · intro _
    obtain ⟨_,told'⟩ := runWalk_check skips found begun spelled
      (fs.performAll_tidies o.run.chain .write (r.visits fs skip)).toSameLayout
    simp only [after, told', if_neg (performAll_foresees_nothing editable (r.path []))]

end

theorem WritesWhatItReads.visits {fs : FileSystem} {s : Settings} {r : Root} (writable : fs.WritesWhatItReads s)
    (found : fs.findRoot s.root = .ok r) (begun : r.prunes s.skip [] ∨ fs.listingError? (r.path []) = none) :
    ∀ p, .candidate p ∈ r.visits fs s.skip → fs.Editable p := by
  intro p visited
  obtain ⟨_,_,directory,_⟩ := findRoot_eq_ok_iff.1 found
  obtain ⟨rel,candidate,rfl⟩ := Root.exists_isCandidate_of_mem directory begun visited
  exact writable r rel found candidate

theorem runWalk_foretells {fs : FileSystem} {o : WalkOptions} (unchecked : o.check = false) (writing : o.run.dryRun = false)
    (writable : ∀ skip, fs.skipSet o.dirs o.skipFiles = .ok skip → fs.WritesWhatItReads (o.settings skip))
    (text : ∀ skip report, fs.skipSet o.dirs o.skipFiles = .ok skip → (fs.walk (o.settings skip)).result = .ok report →
      o.run.json → report.IsText) :
    fs.Foretells (·.runWalk o.asCheck) (·.runWalk o) := by
  cases skips : fs.skipSet o.dirs o.skipFiles with
  | error f => exact foretells_of_failure (runWalk_of_skipSet (o := o.asCheck) skips) (runWalk_of_skipSet skips)
  | ok skip =>
    rcases fs.begins_or_barred (o.settings skip).root skip with ⟨r,found,begun⟩ | ⟨f,bars⟩
    · have spelled : o.run.json → (r.path []).text?.isSome ∧ ∀ p ∈ (r.visits fs skip).map Visit.path, p.text?.isSome := by
        intro json
        have walked := walk_eq_of_findRoot (s := o.settings skip) found begun
        exact (isText_performAll_iff ..).1 (text skip _ skips (by rw [walked]; rfl) json)
      exact runWalk_foretells_of_findRoot skips found begun spelled unchecked writing
        ((writable skip skips).visits found begun)
    · exact foretells_of_failure (runWalk_of_bars (o := o.asCheck) skips bars) (runWalk_of_bars skips bars)

end FileSystem

/-! ## Arguments -/

/-- Let the arguments spell a walk that writes, on a disk where it can write the candidates it can read, and tell, if it answers
with a document, of paths that are text only. One more argument makes it a check, and any arguments that spell the check
foretell the walk: they change nothing, they fail exactly if it fails, and otherwise they end with 1 if it changes the bytes of
any file and with 0 if it changes none. After the walk they end with 0. -/
theorem check_foretells {fs : FileSystem} {args : List String} {o : WalkOptions}
    (read : Command.read args = .ok (.walk o)) (unchecked : o.check = false) (writing : o.run.dryRun = false)
    (writable : ∀ skip, fs.skipSet o.dirs o.skipFiles = .ok skip → fs.WritesWhatItReads (o.settings skip))
    (text : ∀ skip report, fs.skipSet o.dirs o.skipFiles = .ok skip → (fs.walk (o.settings skip)).result = .ok report →
      o.run.json → report.IsText) :
    (∃ lead rest, args = lead ++ "walk" :: rest ∧
      Command.read (lead ++ "walk" :: "--check" :: rest) = .ok (.walk o.asCheck)) ∧
    ∀ check, Command.read check = .ok (.walk o.asCheck) → fs.Foretells (·.runArguments check) (·.runArguments args) := by
  refine ⟨Command.read_check read unchecked,?_⟩
  intro check read'
  have walks := FileSystem.runWalk_foretells unchecked writing writable text
  simpa only [FileSystem.runArguments, read, read', FileSystem.run] using walks

namespace Sample

def arguments : List String := ["walk","--json","--skip-file","/c.c","/"]

def options : WalkOptions :=
  { run := { json := true }, root := some (.ofString "/"), skipFiles := [.ofString "/c.c"] }

theorem read_arguments : Command.read arguments = .ok (.walk options) := by decide +kernel

theorem options_skipSet : disk.skipSet options.dirs options.skipFiles = .ok linkedSettings.skip := by decide +kernel

theorem options_itinerary : top.itinerary disk linkedSettings.skip =
    [([a],.candidate (Location.path [a])), ([b],.candidate (Location.path [b])), ([c],.excluded (Location.path [c])),
      ([libs],.pruned (Location.path [libs]))] := by
  decide +kernel

/-- Both candidates lead to one file, which can be written. -/
theorem options_writable {skip : SkipSet} (skips : disk.skipSet options.dirs options.skipFiles = .ok skip) :
    disk.WritesWhatItReads (options.settings skip) := by
  obtain rfl : linkedSettings.skip = skip := Except.ok.inj (options_skipSet.symm.trans skips)
  intro r rel found candidate f access leads node _
  have here : disk.findRoot (options.settings linkedSettings.skip).root = .ok top :=
    FileSystem.findRoot_eq_ok_iff.2 (by decide +kernel)
  obtain rfl : top = r := Except.ok.inj (here.symm.trans found)
  obtain ⟨met,source,kept⟩ := candidate
  have listed : (rel,.candidate (top.path rel)) ∈ top.itinerary disk linkedSettings.skip :=
    (Root.mem_itinerary_iff (by decide +kernel) (by decide +kernel)).2 ⟨met,.candidate source kept⟩
  rw [options_itinerary] at listed
  have there : disk.resolve (top.path rel) = .ok [b] := by
    simp only [List.mem_cons, List.not_mem_nil, Prod.mk.injEq, Visit.candidate.injEq, reduceCtorEq, and_false,
      or_false] at listed
    rcases listed with ⟨rfl,_⟩ | ⟨rfl,_⟩ <;> decide +kernel
  obtain rfl : [b] = f := Except.ok.inj (there.symm.trans leads)
  have full : disk.layout.node? [b] = some (.file .full) := by decide +kernel
  rw [full, Option.some.injEq, Node.file.injEq] at node
  rw [← node]
  rfl

def optionsReport : Report where
  root := ⟨[slash]⟩
  entries := [.processed (Location.path [a]) (.simplified 1 .latin1), .processed (Location.path [b]) (.unchanged .utf8),
    .skippedFile (Location.path [c]), .skippedDirectory (Location.path [libs])]

theorem options_isText {skip : SkipSet} {report : Report}
    (skips : disk.skipSet options.dirs options.skipFiles = .ok skip)
    (ended : (disk.walk (options.settings skip)).result = .ok report) : report.IsText := by
  obtain rfl : linkedSettings.skip = skip := Except.ok.inj (options_skipSet.symm.trans skips)
  have told : (disk.walk (options.settings linkedSettings.skip)).result = .ok optionsReport := by decide +kernel
  obtain rfl : optionsReport = report := Except.ok.inj (told.symm.trans ended)
  constructor <;> decide +kernel

end Sample

/-- The check counts the file for each of the two links to it and the walk rewrites it once; both tell of a change, and after
the walk the check finds nothing. -/
theorem sample_check_foretells : Command.read Sample.arguments = .ok (.walk Sample.options) ∧
    (Sample.disk.runArguments ["walk","--check","--json","--skip-file","/c.c","/"]).exitCode = 1 ∧
    (Sample.disk.runArguments Sample.arguments).after.content [Sample.b] ≠ Sample.disk.content [Sample.b] ∧
    ((Sample.disk.runArguments Sample.arguments).after.runArguments
      ["walk","--check","--json","--skip-file","/c.c","/"]).exitCode = 0 := by
  obtain ⟨_,foretells⟩ := check_foretells Sample.read_arguments rfl rfl (fun _ => Sample.options_writable)
    fun _ _ skips ended _ => Sample.options_isText skips ended
  have tells := foretells ["walk","--check","--json","--skip-file","/c.c","/"] (by decide +kernel)
  have changed : (Sample.disk.runArguments Sample.arguments).after.content [Sample.b] ≠ Sample.disk.content [Sample.b] := by
    decide +kernel
  have succeeds : (Sample.disk.runArguments Sample.arguments).exitCode = 0 := by decide +kernel
  exact ⟨Sample.read_arguments,(tells.finds (by simp [succeeds])).2 ⟨[Sample.b],by decide +kernel,changed⟩,changed,
    tells.settles succeeds⟩

end ParamTidy
