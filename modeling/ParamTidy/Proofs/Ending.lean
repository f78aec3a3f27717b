import ParamTidy.Proofs.Arguments
import ParamTidy.Proofs.Check

/-!
# How a run ends

Whatever the arguments, a run that ends with 1 or 2 has left the disk as it was, 2 is told on the channel for errors alone, and
1 is for checks (`failing_run_leaves_disk`). `run_ends` lists all that may come of a command, also of one whose paths no
arguments can spell.
-/

namespace ParamTidy

/-- A run that breaks off because what it has to print is no document. -/
def Finished.Aborts (f : Finished) : Prop := f.exitCode = 101 ∧ f.lines = [.undocumented]

/-- The number that a run ends with can be relied on: a failing run has changed nothing, one that could not go on says so and
nothing else, and only those that are to check end with 1. -/
structure Finished.Reliable (f : Finished) (fs : FileSystem) (checks : Prop) : Prop where
  leaves : f.exitCode = 1 ∨ f.exitCode = 2 → f.after = fs
  speaks : f.exitCode = 2 → ∀ logger color, f.stdout color = "" ∧ f.stderr logger color ≠ ""
  checks : f.exitCode = 1 → checks
  succeeds : f.after ≠ fs → ¬ f.Aborts → f.exitCode = 0

theorem reliable_of_success {log : List LogLine} {lines : List Line} {after fs : FileSystem} {checks : Prop} :
    Finished.Reliable ⟨0,log,lines,after⟩ fs checks := by
  constructor <;> simp

theorem reliable_of_complaint {line : Line} (error : line.isError) {log : List LogLine} {fs : FileSystem} {checks : Prop} :
    Finished.Reliable ⟨2,log,[line],fs⟩ fs checks where
  leaves := fun _ => rfl
  speaks := by
    intro _ logger color
    simp [Finished.stdout, Finished.stderr, Line.channel, error]
  checks := fun one => by cases one
  succeeds := fun changed => absurd rfl changed

namespace FileSystem

/-- All that may come of a command. -/
inductive Ends (fs : FileSystem) (c : Command) : Finished → Prop
  | succeeded {log : List LogLine} {lines : List Line} {after : FileSystem} : Ends fs c ⟨0,log,lines,after⟩
  | found {o : WalkOptions} {log : List LogLine} {lines : List Line} (walks : c = .walk o) (checks : o.check) :
      Ends fs c ⟨1,log,lines,fs⟩
  | failed {log : List LogLine} {f : Failure} : Ends fs c (.ofFailure fs log f)
  | aborted {log : List LogLine} {after : FileSystem} : Ends fs c ⟨101,log,[.undocumented],after⟩

theorem ofDocument?_eq (exitCode : Nat) (log : List LogLine) (d : Option Json) (after : FileSystem) :
    (∃ lines, Finished.ofDocument? exitCode log d after = ⟨exitCode,log,lines,after⟩) ∨
      Finished.ofDocument? exitCode log d after = ⟨101,log,[.undocumented],after⟩ := by
  cases d with
  | none => exact .inr rfl
  | some j => exact .inl ⟨_,rfl⟩

/-- A walk that has come to an end exits as its report demands, unless the report is no document. -/
theorem runWalk_eq {fs : FileSystem} {o : WalkOptions} {skip : SkipSet} {report : Report}
    (skips : fs.skipSet o.dirs o.skipFiles = .ok skip) (ended : (fs.walk (o.settings skip)).result = .ok report) :
    (∃ log lines, fs.runWalk o = ⟨o.exitCode report,log,lines,(fs.walk (o.settings skip)).after⟩) ∨
      ∃ log, fs.runWalk o = ⟨101,log,[.undocumented],(fs.walk (o.settings skip)).after⟩ := by
  simp only [runWalk, skips, ended]
  split
  · exact (ofDocument?_eq _ _ _ _).imp (fun lines => ⟨_,lines⟩) fun aborted => ⟨_,aborted⟩
  · exact .inl ⟨_,_,rfl⟩

theorem runWalk_ends (fs : FileSystem) (o : WalkOptions) : fs.Ends (.walk o) (fs.runWalk o) := by
  cases skips : fs.skipSet o.dirs o.skipFiles with
  | error f =>
    rw [runWalk_of_skipSet skips]
    exact .failed
  | ok skip =>
    cases ended : (fs.walk (o.settings skip)).result with
    | error f =>
      have stays := walk_eq_of_error ended
      simp only [runWalk, skips, stays, Walk.ofFailure]
      exact .failed
    | ok report =>
      rcases runWalk_eq skips ended with ⟨log,lines,same⟩ | ⟨log,same⟩
      · rw [same]
        by_cases finds : o.check ∧ 0 < report.filesChanged
        · -- A check is a dry run.
          have dry : (o.settings skip).withMode .dryRun = o.settings skip := by
            simp [WalkOptions.settings, Settings.withMode, finds.1]
          have stays := walk_dryRun_after fs (o.settings skip)
          rw [dry] at stays
          rw [WalkOptions.exitCode, if_pos finds, stays]
          exact .found rfl finds.1
        · rw [WalkOptions.exitCode, if_neg finds]
          exact .succeeded
      · rw [same]
        exact .aborted

theorem runFile_ends (fs : FileSystem) (p : Path) (o : RunOptions) : fs.Ends (.file p o) (fs.runFile p o) := by
  unfold runFile
  cases done : (fs.simplifyFile p o.chain o.mode).result with
  | error f =>
    simp only [done, simplifyFile_after_of_error done]
    exact .failed
  | ok outcome =>
    simp only [done]
    split
    · rcases ofDocument?_eq 0 _ (fileDocument? p outcome) (fs.simplifyFile p o.chain o.mode).after with ⟨lines,same⟩ | same
      · rw [same]
        exact .succeeded
      · rw [same]
        exact .aborted
    · exact .succeeded

theorem run_ends (fs : FileSystem) (c : Command) : fs.Ends c (fs.run c) := by
  cases c with
  | walk o => exact fs.runWalk_ends o
  | file p o => exact fs.runFile_ends p o
  | version quiet => exact .succeeded

theorem Ends.reliable {fs : FileSystem} {c : Command} {f : Finished} (ends : fs.Ends c f) :
    f.Reliable fs (∃ o, c = .walk o ∧ o.check) := by
  cases ends with
  | succeeded => exact reliable_of_success
  | found walks checks =>
    exact ⟨fun _ => rfl,by simp,fun _ => ⟨_,walks,checks⟩,fun changed => absurd rfl changed⟩
  | failed => exact reliable_of_complaint rfl
  | aborted => exact ⟨by simp,by simp,by simp,fun _ stays => absurd ⟨rfl,rfl⟩ stays⟩

end FileSystem

/-- Only `--check` after the command that walks makes it a check. -/
theorem Command.exists_check {args : List String} {o : WalkOptions} (read : Command.read args = .ok (.walk o))
    (checks : o.check) : ∃ lead rest, args = lead ++ "walk" :: rest ∧ "--check" ∈ rest := by
  obtain ⟨lead,name,rest,q,rfl,spelled,_⟩ := readFrom_eq_ok read
  obtain rfl := readCommand_eq_walk spelled
  obtain ⟨o',chosen,same⟩ := exists_of_map_eq_ok spelled
  cases same
  exact ⟨lead,rest,rfl,WalkOptions.mem_of_check rfl chosen checks⟩

/-- Whatever command is carried out and whatever the arguments are, those included that spell no command: a run that ends with 1
or 2 has left the disk as it was, one that ends with 2 prints on the channel for errors alone, and only a walk with `--check`
ends with 1. So a run that has changed anything ends with 0, unless it breaks off. -/
theorem failing_run_leaves_disk (fs : FileSystem) :
    (∀ c, (fs.run c).Reliable fs (∃ o, c = .walk o ∧ o.check)) ∧
      ∀ args, (fs.runArguments args).Reliable fs (∃ o lead rest, Command.read args = .ok (.walk o) ∧ o.check ∧
        args = lead ++ "walk" :: rest ∧ "--check" ∈ rest) := by
  refine ⟨fun c => (fs.run_ends c).reliable,?_⟩
  intro args
  unfold FileSystem.runArguments
  cases read : Command.read args with
  | ok c =>
    have reliable := (fs.run_ends c).reliable
    refine ⟨reliable.leaves,reliable.speaks,?_,reliable.succeeds⟩
    intro one
    obtain ⟨o,rfl,checks⟩ := reliable.checks one
    obtain ⟨lead,rest,split,member⟩ := Command.exists_check read checks
    exact ⟨o,lead,rest,rfl,checks,split,member⟩
  | error halt =>
    cases halt with
    | help => exact reliable_of_success
    | version => exact reliable_of_success
    | usage e => exact reliable_of_complaint rfl

end ParamTidy
