import ParamTidy.CommandLine
import ParamTidy.FileSystem.Edit
import Std.Time

/-!
# The program

Takes a picture of the part of the disk that a command can reach, carries the command out on the picture, and brings to the
disk what changed in it. Only a file that is to change is ever opened for writing.
-/

namespace ParamTidy.Program

/-- The string of a path, as the disk is asked for it. -/
def spelling (l : Location) : String := l.path.shown

/-- The location that an absolute string spells. -/
def location (s : String) : Location := (Path.ofString s).locate []

def entryAt (l : Location) : IO.FS.DirEntry :=
  ⟨spelling l.dropLast,match l.getLast? with | some n => .ofList n.text | none => ""⟩

def succeeds {α : Type} (act : IO α) : IO Bool :=
  try
    discard act
    return true
  catch _ => return false

/-- The picture with something more on it, as far as it has room for that. -/
def adding (fs : FileSystem) (more : Edit) : FileSystem := (fs.edit more).1

/-- A file with its bytes, taken to be one that may be written. -/
def takeFile (fs : FileSystem) (l : Location) : IO FileSystem := do
  let mut bytes := ByteArray.empty
  let mut readable := true
  try bytes ← IO.FS.readBinFile (spelling l) catch _ => readable := false
  return (adding fs (.putFile l.path bytes.toList)).protect l ⟨readable,true,false⟩

mutual

/-- A directory and all below it; one that cannot be listed stays without permissions. -/
partial def takeDirectory (fs : FileSystem) (l : Location) : IO FileSystem := do
  let fs := adding fs (.putDirectory l.path)
  try
    let mut fs := fs
    for entry in ← (entryAt l).path.readDir do
      fs ← take fs (l ++ (Name.ofBytes? (Utf8.encode entry.fileName.toList)).toList)
    return fs
  catch _ => return fs.protect l ⟨false,false,false⟩

/-- Whatever lies at a location. Of a link to a directory only the link is taken. -/
partial def take (fs : FileSystem) (l : Location) : IO FileSystem := do
  let path := (entryAt l).path
  match (← path.symlinkMetadata).type with
  | .dir => takeDirectory fs l
  | .file => takeFile fs l
  | .symlink =>
    try
      let target := location (← IO.FS.realPath path).toString
      let fs := adding fs (.putLink l.path target.path)
      match (← path.metadata).type with
      | .file => takeFile fs target
      | .dir => return adding fs (.putDirectory target.path)
      | _ => return fs
    catch _ => return fs
  | _ => return fs

end

/-- What a path names, with the way to it and, if it names a link, with what the link leads to. -/
def takeAt (fs : FileSystem) (l : Location) : IO FileSystem := do
  try
    let parent := location (← IO.FS.realPath (spelling l.dropLast)).toString
    let fs := if parent = l.dropLast ∨ l = [] then fs else adding fs (.putLink (Location.path l.dropLast) parent.path)
    let there := parent ++ l.getLast?.toList
    let fs ← take fs there
    match fs.layout.node? there with
    | some (.link target) =>
      if ← (entryAt there).path.isDir then takeDirectory fs (target.locate []) else return fs
    | _ => return fs
  catch _ => return fs

/-- The picture that a command needs. -/
def picture (c : Command) : IO FileSystem := do
  let fs ← try
      let l := location (← IO.currentDir).toString
      pure { adding .empty (.putDirectory l.path) with cwd := .present l }
    catch _ => pure { FileSystem.empty with cwd := .removed [] [.full] }
  let p := match c with
    | .walk o => o.root.getD (.ofString ".")
    | .file p _ => p
    | .version _ => .ofString "/"
  match c, fs.locate p with
  | .version _, _ | _, .error _ => return fs
  | _, .ok l => takeAt fs l

def changed (before after : FileSystem) : List Location :=
  after.layout.files.filter fun l => before.content l ≠ after.content l

/-- Carries the arguments out on a picture. Where that changes files that must not be written, it is done anew with these
protected, which makes no other file change. -/
def carryOut (fs : FileSystem) (args : List String) : IO (FileSystem × Finished) := do
  let tried := fs.runArguments args
  let locked ← (changed fs tried.after).filterM fun l => return !(← succeeds (IO.FS.Handle.mk (spelling l) .append))
  if locked = [] then return (fs,tried)
  let fs := locked.foldl (fun fs l => fs.protect l ⟨true,false,false⟩) fs
  return (fs,fs.runArguments args)

/-- Writes the files of which the picture has changed. -/
def bring (before after : FileSystem) : IO Unit :=
  (changed before after).forM fun l => IO.FS.writeBinFile (spelling l) ⟨(after.content l).toArray⟩

/-- Whether colours are wanted: by the environment, or else by a terminal. -/
def wantsColor : IO Bool := do
  if ((← IO.getEnv "CLICOLOR_FORCE").getD "0") != "0" then return true
  if (← IO.getEnv "NO_COLOR").isSome then return false
  return ((← IO.getEnv "CLICOLOR").getD "1") != "0" && (← (← IO.getStdout).isTty)

/-- The logger that the environment asks for, by a level; unless it asks, warnings are shown. -/
def wantedLogger : IO Logger := do
  let now := (Std.Time.DateTime.ofTimestamp (← Std.Time.Timestamp.now) .UTC).format "uuuu-MM-dd'T'HH:mm:ss'Z'"
  return match ((← IO.getEnv "RUST_LOG").getD "warn").toLower with
    | "trace" | "debug" => .ofLevel .debug fun _ => now
    | "info" => .ofLevel .info fun _ => now
    | "warn" => .ofLevel .warn fun _ => now
    | _ => .silent

end ParamTidy.Program

open ParamTidy ParamTidy.Program in
def main (args : List String) : IO UInt32 := do
  let fs ← match Command.read args with
    | .ok command => picture command
    | .error _ => pure FileSystem.empty
  let (fs,finished) ← carryOut fs args
  bring fs finished.after
  let color ← wantsColor
  (← IO.getStdout).putStr (finished.stdout color)
  (← IO.getStderr).putStr (finished.stderr (← wantedLogger) color)
  return finished.exitCode.toUInt32
