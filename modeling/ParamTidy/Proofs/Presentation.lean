import ParamTidy.Proofs.Check
import ParamTidy.Proofs.Respelling
import ParamTidy.Proofs.WalkLog

/-!
# Ways to print

How a command that reads files is to print matters to nothing but what is printed (`presented_runs_agree`): the log is the
same, silence keeps no error back, a document is the same in silence, and of a walk that answers with none all failures are
told either way.
-/

namespace ParamTidy

/-- Two runs that differ at most in how they print, the second as it is told to. -/
structure Finished.PrintsAs (f : Finished) (o : RunOptions) (f' : Finished) (quiet json : Bool) : Prop where
  after : f'.after = f.after
  exitCode : f'.exitCode = f.exitCode
  log : f'.log = f.log
  stderr : json = o.json → ∀ logger color, f'.stderr logger color = f.stderr logger color
  document : json → o.json → ∀ color color', f'.stdout color' = f.stdout color
  silence : quiet → json = false → ∀ color, f'.stdout color = ""

def Entry.complaint? (color : Bool) : Entry → Option String
  | failed p m => some (Style.red.paint color "Skipping" ++ " " ++ p.shown ++ ": " ++ Style.red.paint color m ++ "\n")
  | _ => none

/-! ## Lines -/

section
variable {lines : List Line} {color : Bool}

theorem Line.channel_false_of_errors (errors : lines.filter Line.isError = lines) : Line.channel false color lines = "" := by
  have none : lines.filter (fun l => l.isError == false) = [] := by
    rw [← errors, List.filter_filter]
    simp
  rw [Line.channel, none]
  rfl

theorem Line.channel_true :
    channel true color lines = String.join ((lines.filter Line.isError).map fun l => l.text color ++ "\n") := by
  simp [Line.channel]

end

theorem Outcome.lines_filter (p : Path) (o : Outcome) : (o.line? p).toList.filter Line.isError = [] := by
  cases o <;> rfl

theorem Entry.line?_filter (quiet : Bool) (e : Entry) : (e.line? quiet).filter Line.isError = e.line? true := by
  cases e with
  | processed p o =>
    cases quiet with
    | true => rfl
    | false => cases o <;> rfl
  | _ => cases quiet <;> rfl

/-- Silence keeps back what is no error, and nothing else. -/
theorem Report.lines_filter (quiet : Bool) (report : Report) :
    (report.lines quiet).filter Line.isError = report.lines true := by
  have unsaid : (if quiet then [] else [report.summary]).filter Line.isError = [] := by cases quiet <;> rfl
  simp only [lines, List.filter_append, List.filter_filterMap, Entry.line?_filter, unsaid, if_true]

theorem Report.stderr_lines (quiet color : Bool) (report : Report) :
    Line.channel true color (report.lines quiet) = String.join (report.entries.filterMap (Entry.complaint? color)) := by
  have told (e : Entry) : (e.line? true).map (fun l => l.text color ++ "\n") = e.complaint? color := by cases e <;> rfl
  rw [Line.channel_true, lines_filter]
  simp only [lines, if_true, List.append_nil, List.map_filterMap, told]

/-! ## Runs -/

/-- A run that ends in the same way however it is to print, with a document or with lines of which silence keeps back those that
are no errors. -/
theorem printsAs_of_lines {exitCode : Nat} {log : List LogLine} {after : FileSystem} {d : Json} (lines : Bool → List Line)
    (errors : ∀ quiet, (lines quiet).filter Line.isError = lines true) (o : RunOptions) (quiet json : Bool) :
    Finished.PrintsAs ⟨exitCode,log,if o.json then [.document d] else lines o.quiet,after⟩ o
      ⟨exitCode,log,if json then [.document d] else lines quiet,after⟩ quiet json where
  after := rfl
  exitCode := rfl
  log := rfl
  stderr := by
    rintro rfl logger color
    simp only [Finished.stderr, Line.channel_true]
    cases o.json <;> simp [errors]
  document := by
    intro first second color color'
    simp [Finished.stdout, first, second, Line.channel, Line.isError, Line.text]
  silence := by
    rintro rfl rfl color
    exact Line.channel_false_of_errors (errors true)

theorem printsAs_of_failure {fs : FileSystem} {log : List LogLine} {f : Failure} {o : RunOptions} {quiet json : Bool} :
    Finished.PrintsAs (.ofFailure fs log f) o (.ofFailure fs log f) quiet json := by
  constructor <;> simp [Finished.ofFailure, Finished.stdout, Line.channel, Line.isError]

namespace FileSystem

/-- A walk that comes to an end reports. -/
def Reports (fs : FileSystem) (o : WalkOptions) (report : Report) : Prop :=
  ∃ skip, fs.skipSet o.dirs o.skipFiles = .ok skip ∧ (fs.walk (o.settings skip)).result = .ok report

/-- All paths that a walk reports are text; those of other commands are. -/
def TellsText (fs : FileSystem) (c : Command) : Prop := ∀ o report, c = .walk o → fs.Reports o report → report.IsText

theorem runWalk_eq_of_reports {fs : FileSystem} {o : WalkOptions} {report : Report} (reports : fs.Reports o report)
    (text : report.IsText) : ∃ d log after, ∀ quiet json, fs.runWalk (o.presented quiet json) =
      ⟨o.exitCode report,log,if json then [.document d] else report.lines quiet,after⟩ := by
  obtain ⟨skip,skips,ended⟩ := reports
  obtain ⟨d,document⟩ := Option.isSome_iff_exists.1 (Report.document?_isSome_iff.2 text)
  refine ⟨d,(fs.walk (o.settings skip)).log,(fs.walk (o.settings skip)).after,fun quiet json => ?_⟩
  have skips' : fs.skipSet (o.presented quiet json).dirs (o.presented quiet json).skipFiles = .ok skip := skips
  have ended' : (fs.walk ((o.presented quiet json).settings skip)).result = .ok report := ended
  simp only [runWalk, skips', ended', document, Finished.ofDocument?]
  cases json <;> rfl

theorem runWalk_eq_of_fails {fs : FileSystem} {o : WalkOptions} (fails : ¬ ∃ report, fs.Reports o report) :
    ∃ after log f, ∀ quiet json, fs.runWalk (o.presented quiet json) = .ofFailure after log f := by
  cases skips : fs.skipSet o.dirs o.skipFiles with
  | error f => exact ⟨fs,[],f,fun quiet json => runWalk_of_skipSet (o := o.presented quiet json) skips⟩
  | ok skip =>
    cases ended : (fs.walk (o.settings skip)).result with
    | ok report => exact absurd ⟨report,skip,skips,ended⟩ fails
    | error f =>
      refine ⟨(fs.walk (o.settings skip)).after,(fs.walk (o.settings skip)).log,f,fun quiet json => ?_⟩
      have skips' : fs.skipSet (o.presented quiet json).dirs (o.presented quiet json).skipFiles = .ok skip := skips
      have ended' : (fs.walk ((o.presented quiet json).settings skip)).result = .error f := ended
      simp only [runWalk, skips', ended']
      rfl

theorem runWalk_printsAs {fs : FileSystem} {o : WalkOptions} (text : ∀ report, fs.Reports o report → report.IsText)
    (quiet json : Bool) : (fs.runWalk o).PrintsAs o.run (fs.runWalk (o.presented quiet json)) quiet json := by
  by_cases reports : ∃ report, fs.Reports o report
  · obtain ⟨report,reports⟩ := reports
    obtain ⟨d,log,after,runs⟩ := runWalk_eq_of_reports reports (text report reports)
    have plain : fs.runWalk o = _ := runs o.run.quiet o.run.json
    rw [plain, runs]
    exact printsAs_of_lines report.lines (fun quiet => report.lines_filter quiet) o.run quiet json
  · obtain ⟨after,log,f,runs⟩ := runWalk_eq_of_fails reports
    have plain : fs.runWalk o = _ := runs o.run.quiet o.run.json
    rw [plain, runs]
    exact printsAs_of_failure

theorem runFile_printsAs (fs : FileSystem) {p : Path} (text : p.text?.isSome) (o : RunOptions) (quiet json : Bool) :
    (fs.runFile p o).PrintsAs o (fs.runFile p (o.presented quiet json)) quiet json := by
  have chain : (o.presented quiet json).chain = o.chain := rfl
  have mode : (o.presented quiet json).mode = o.mode := rfl
  have quiet' : (o.presented quiet json).quiet = quiet := rfl
  have json' : (o.presented quiet json).json = json := rfl
  unfold runFile
  simp only [chain, mode, quiet', json']
  cases done : (fs.simplifyFile p o.chain o.mode).result with
  | error f => exact printsAs_of_failure
  | ok outcome =>
    obtain ⟨t,spelled⟩ := Option.isSome_iff_exists.1 text
    have document : fileDocument? p outcome =
        some (.object [("outcome".toList,outcome.document), ("path".toList,.string t)]) := by
      rw [fileDocument?, spelled]
      rfl
    have runs (quiet json : Bool) (d : Json) (log : List LogLine) (after : FileSystem) :
        (if json then Finished.ofDocument? 0 log (some d) after
          else ⟨0,log,if quiet then [] else (outcome.line? p).toList,after⟩) =
        ⟨0,log,if json then [.document d] else if quiet then [] else (outcome.line? p).toList,after⟩ := by
      cases json <;> rfl
    simp only [document, runs]
    refine printsAs_of_lines (fun quiet => if quiet then [] else (outcome.line? p).toList) ?_ o quiet json
    intro quiet
    cases quiet with
    | true => rfl
    | false => exact outcome.lines_filter p

theorem run_printsAs {fs : FileSystem} {c : Command} {o : RunOptions} (runs : c.options? = some o) (text : fs.TellsText c)
    (spelled : ∀ p o, c = .file p o → p.text?.isSome) (quiet json : Bool) :
    (fs.run c).PrintsAs o (fs.run (c.presented quiet json)) quiet json := by
  cases c with
  | walk w =>
    cases runs
    exact runWalk_printsAs (fun report => text w report rfl) quiet json
  | file p _ =>
    cases runs
    exact fs.runFile_printsAs (spelled p o rfl) o quiet json
  | version q => cases runs

/-- Without a document a walk tells of all that failed, after what is written of its log. -/
theorem runWalk_stderr {fs : FileSystem} {o : WalkOptions} {report : Report} (reports : fs.Reports o report)
    (plain : o.run.json = false) (logger : Logger) (color : Bool) :
    (fs.runWalk o).stderr logger color =
      logger.written (fs.runWalk o).log ++ String.join (report.entries.filterMap (Entry.complaint? color)) := by
  obtain ⟨skip,skips,ended⟩ := reports
  simp only [Finished.stderr, runWalk, skips, ended, plain]
  exact congrArg _ (report.stderr_lines o.run.quiet color)

/-- Of its log a logger of warnings shows what is about them as well. -/
theorem runWalk_warnings {fs : FileSystem} {o : WalkOptions} {report : Report} (reports : fs.Reports o report)
    (plain : o.run.json = false) (time : Nat → String) :
    (fs.runWalk o).log.filter (Logger.ofLevel .warn time).shows = report.entries.filterMap Entry.warning? := by
  obtain ⟨skip,skips,ended⟩ := reports
  simp only [runWalk, skips, ended, plain, Logger.shows_ofLevel_warn]
  exact walk_warnings ended

end FileSystem

/-! ## Arguments -/

/-- Let the arguments spell a command that reads files, and let it tell of paths that are text only. Without those of its
arguments that only choose how to print, and with any others of that kind put after the command's name, they spell the command
that does the same and prints as is chosen. All arguments that spell it leave the same disk, log the same and end with the same
number. Silence changes nothing on the channel for errors and nothing in a document, and without a document it leaves the other
channel empty. A walk without a document writes there, silent or not, what is shown of its log and then a message for each entry
that failed, and nothing else; of the log a logger of warnings shows one line for each of these entries as well. -/
theorem presented_runs_agree {fs : FileSystem} {args : List String} {c : Command} {o : RunOptions}
    (read : Command.read args = .ok c) (runs : c.options? = some o) (text : fs.TellsText c) :
    (∃ name rest, List.Sublist (name :: rest) args ∧
      ∀ quiet json, Command.read (name :: (RunOptions.flags quiet json ++ rest)) = .ok (c.presented quiet json)) ∧
    ∀ quiet json args', Command.read args' = .ok (c.presented quiet json) →
      (fs.runArguments args).PrintsAs o (fs.runArguments args') quiet json ∧
      ∀ w report, c = .walk w → fs.Reports w report → json = false →
        (∀ logger color, (fs.runArguments args').stderr logger color = logger.written (fs.runArguments args').log
          ++ String.join (report.entries.filterMap (Entry.complaint? color))) ∧
        ∀ time, (fs.runArguments args').log.filter (Logger.ofLevel .warn time).shows =
          report.entries.filterMap Entry.warning? := by
  refine ⟨Command.exists_presented read runs,?_⟩
  intro quiet json args' read'
  have spelled : ∀ p o, c = .file p o → p.text?.isSome := fun p o same => Command.isText_of_read (same ▸ read)
  simp only [FileSystem.runArguments, read, read']
  refine ⟨FileSystem.run_printsAs runs text spelled quiet json,?_⟩
  rintro w report rfl reports plain
  constructor
  · exact FileSystem.runWalk_stderr (o := w.presented quiet json) reports plain
  · exact FileSystem.runWalk_warnings (o := w.presented quiet json) reports plain

namespace Sample

def topOptions (quiet json : Bool) : WalkOptions := { run := { quiet, json }, root := some (.ofString "/") }

theorem topOptions_skipSet (quiet json : Bool) :
    disk.skipSet (topOptions quiet json).dirs (topOptions quiet json).skipFiles = .ok settings.skip := by
  show disk.skipSet SkipSet.standardDirs [] = _
  decide +kernel

theorem topOptions_reports_iff {quiet json : Bool} {told : Report} :
    disk.Reports (topOptions quiet json) told ↔ report = told := by
  have ended : (disk.walk ((topOptions quiet json).settings settings.skip)).result = .ok report := walk_result
  constructor
  · rintro ⟨skip,skips,ended'⟩
    obtain rfl := Except.ok.inj ((topOptions_skipSet quiet json).symm.trans skips)
    exact Except.ok.inj (ended.symm.trans ended')
  · rintro rfl
    exact ⟨settings.skip,topOptions_skipSet quiet json,ended⟩

theorem topOptions_tellsText (quiet json : Bool) : disk.TellsText (.walk (topOptions quiet json)) := by
  intro o told same reports
  cases same
  obtain rfl := topOptions_reports_iff.1 reports
  constructor <;> decide +kernel

/-- Shows warnings, all at the same time. -/
def logger : Logger := .ofLevel .warn fun _ => "2024-01-01T00:00:00Z"

end Sample

/-- Of what the walk prints, silence and the want of a document leave only what it says of the file that cannot be written, of
which the log has warned already. -/
theorem sample_presented_runs_agree : Command.read ["walk","--json","/"] = .ok (.walk (Sample.topOptions false true)) ∧
    Command.read ["-q","walk","/"] = .ok (.walk (Sample.topOptions true false)) ∧
    (Sample.disk.runArguments ["-q","walk","/"]).after = (Sample.disk.runArguments ["walk","--json","/"]).after ∧
    (Sample.disk.runArguments ["-q","walk","/"]).exitCode = (Sample.disk.runArguments ["walk","--json","/"]).exitCode ∧
    (Sample.disk.runArguments ["-q","walk","/"]).stdout false = "" ∧
    (Sample.disk.runArguments ["-q","walk","/"]).stderr Sample.logger false =
      "[2024-01-01T00:00:00Z WARN  voidnorm_core::walker] i/o error on /c.c: Permission denied (os error 13)\n"
        ++ "Skipping /c.c: i/o error on /c.c: Permission denied (os error 13)\n" := by
  have read : Command.read ["walk","--json","/"] = .ok (.walk (Sample.topOptions false true)) := by decide +kernel
  have read' : Command.read ["-q","walk","/"] = .ok (.walk (Sample.topOptions true false)) := by decide +kernel
  obtain ⟨_,agree⟩ := presented_runs_agree read rfl (Sample.topOptions_tellsText false true)
  obtain ⟨prints,complains⟩ := agree true false ["-q","walk","/"] read'
  obtain ⟨complaints,_⟩ := complains _ Sample.report rfl (Sample.topOptions_reports_iff.2 rfl) rfl
  refine ⟨read,read',prints.after,prints.exitCode,prints.silence rfl rfl false,?_⟩
  rw [complaints]
  decide +kernel

end ParamTidy
