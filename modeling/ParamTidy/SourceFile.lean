import ParamTidy.FileSystem
import ParamTidy.LogLine
import ParamTidy.ParameterList

/-!
# Source files

Which names mark a source file, and how one file is simplified: read in the first encoding that accepts it and, when it holds
forms and writing is allowed, written back as UTF-8 without them.
-/

namespace ParamTidy

/-- The endings that mark a source file, in these letters only. -/
def sourceSuffixes : List Text := [['.', 'c'], ['.', 'c', 'p', 'p'], ['.', 'h']]

/-- Whether a name, as shown to a reader, is that of a source file. -/
def isSourceName (name : Text) : Bool := sourceSuffixes.any (·.isSuffixOf name)

theorem isSourceName_iff {name : Text} : isSourceName name ↔ ∃ s ∈ sourceSuffixes, s <:+ name := by
  simp [isSourceName]

inductive Mode where
  | write
  | dryRun
  deriving DecidableEq, Repr

/-- What came of one file, what was logged about it, and the file system after it. -/
structure Attempt where
  result : Except Failure Outcome
  log : List LogLine
  after : FileSystem

namespace FileSystem

def replace (fs : FileSystem) (p : Path) (s : Simplified) (e : Encoding) (log : List LogLine) : Attempt :=
  match fs.write p (Utf8.encode s.text) with
  | .error error => ⟨.error (.io p (.system error)),log,fs⟩
  | .ok after => ⟨.ok (.simplified s.count e),log ++ [.simplified s.count p e],after⟩

/-- Simplifies the file a path leads to. A file without forms is never written. -/
def simplifyFile (fs : FileSystem) (p : Path) (chain : List Encoding) (mode : Mode) : Attempt :=
  match fs.read p with
  | .error error => ⟨.error (.io p (.system error)),[],fs⟩
  | .ok bytes =>
    let log := (Encoding.refusals chain bytes).map LogLine.refused
    match Encoding.read? chain bytes with
    | none => ⟨.error (.undecodable p),log,fs⟩
    | some reading =>
      let s := simplify reading.text
      if !s.changed then ⟨.ok (.unchanged reading.encoding),log,fs⟩
      else
        match mode with
        | .write => fs.replace p s reading.encoding log
        | .dryRun => ⟨.ok (.wouldSimplify s.count reading.encoding),log,fs⟩

theorem simplifyFile_dryRun_after (fs : FileSystem) (p : Path) (chain : List Encoding) :
    (fs.simplifyFile p chain .dryRun).after = fs := by
  unfold simplifyFile
  split
  · rfl
  · dsimp only
    split
    · rfl
    · split <;> rfl

theorem write_layout {fs after : FileSystem} {p : Path} {bytes : Bytes} (written : fs.write p bytes = .ok after) :
    after.layout = fs.layout := by
  obtain ⟨_,_,_,_,_,rfl⟩ := write_eq_ok_iff.1 written
  rfl

theorem simplifyFile_layout (fs : FileSystem) (p : Path) (chain : List Encoding) (mode : Mode) :
    (fs.simplifyFile p chain mode).after.layout = fs.layout := by
  unfold simplifyFile
  split
  · rfl
  · dsimp only
    split
    · rfl
    · split
      · rfl
      · cases mode with
        | dryRun => rfl
        | write =>
          simp only [replace]
          split
          · rfl
          · next written => exact write_layout written

end FileSystem

end ParamTidy
