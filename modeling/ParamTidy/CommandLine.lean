import ParamTidy.CommandLine.Invocation
import ParamTidy.CommandLine.Line
import ParamTidy.Walk

/-!
# The command line

What each command does to a file system, what it prints, and the number it ends with: 0 for success, 1 for a check that found
something to do, 2 for a run that could not go on.
-/

namespace ParamTidy

structure Finished where
  exitCode : Nat
  log : List LogLine
  lines : List Line
  after : FileSystem

namespace Finished

def stdout (f : Finished) (color : Bool) : String := Line.channel false color f.lines

/-- What the run wrote on the channel for errors: its log, as it went on, and then what it printed there. -/
def stderr (f : Finished) (logger : Logger) (color : Bool) : String :=
  logger.written f.log ++ Line.channel true color f.lines

def ofFailure (fs : FileSystem) (log : List LogLine) (f : Failure) : Finished := ⟨2,log,[.fatal f],fs⟩

/-- The run that ends with a document, or breaks off for want of one. -/
def ofDocument? (exitCode : Nat) (log : List LogLine) (d : Option Json) (after : FileSystem) : Finished :=
  match d with
  | some j => ⟨exitCode,log,[.document j],after⟩
  | none => ⟨101,log,[.undocumented],after⟩

end Finished

def RunOptions.chain (o : RunOptions) : List Encoding := if o.encodings = [] then Encoding.standard else o.encodings

def RunOptions.mode (o : RunOptions) : Mode := if o.dryRun then .dryRun else .write

def WalkOptions.dirs (o : WalkOptions) : List Text :=
  (if o.withoutStandardSkips then [] else SkipSet.standardDirs) ++ o.skipDirs

/-- The settings of a walk; a check writes nothing. -/
def WalkOptions.settings (o : WalkOptions) (skip : SkipSet) : Settings :=
  ⟨o.root.getD (.ofString "."),skip,o.run.chain,if o.check then .dryRun else o.run.mode⟩

def WalkOptions.exitCode (o : WalkOptions) (r : Report) : Nat := if o.check ∧ 0 < r.filesChanged then 1 else 0

namespace FileSystem

def runWalk (fs : FileSystem) (o : WalkOptions) : Finished :=
  match fs.skipSet o.dirs o.skipFiles with
  | .error f => .ofFailure fs [] f
  | .ok skip =>
    let walk := fs.walk (o.settings skip)
    match walk.result with
    | .error f => .ofFailure walk.after walk.log f
    | .ok report =>
      if o.run.json then .ofDocument? (o.exitCode report) walk.log report.document? walk.after
      else ⟨o.exitCode report,walk.log,report.lines o.run.quiet,walk.after⟩

/-- What became of a single file, as an object, if its path is text. -/
def fileDocument? (p : Path) (o : Outcome) : Option Json :=
  p.text?.map fun t => .object [("outcome".toList,o.document), ("path".toList,.string t)]

def runFile (fs : FileSystem) (p : Path) (o : RunOptions) : Finished :=
  let attempt := fs.simplifyFile p o.chain o.mode
  match attempt.result with
  | .error f => .ofFailure attempt.after attempt.log f
  | .ok outcome =>
    if o.json then .ofDocument? 0 attempt.log (fileDocument? p outcome) attempt.after
    else ⟨0,attempt.log,if o.quiet then [] else (outcome.line? p).toList,attempt.after⟩

def run (fs : FileSystem) : Command → Finished
  | .walk o => fs.runWalk o
  | .file p o => fs.runFile p o
  | .version quiet => ⟨0,[],if quiet then [] else [.version],fs⟩

def runArguments (fs : FileSystem) (args : List String) : Finished :=
  match Command.read args with
  | .ok command => fs.run command
  | .error .help => ⟨0,[],[.help],fs⟩
  | .error .version => ⟨0,[],[.programVersion],fs⟩
  | .error (.usage e) => ⟨2,[],[.misuse e.message],fs⟩

end FileSystem

end ParamTidy
