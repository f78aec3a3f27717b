import ParamTidy.CommandLine.Grammar
import ParamTidy.Path

/-!
# Invocations

The three commands, the choices each leaves open, and how they are read off the arguments. Silence may be asked for before or
after the command.
-/

namespace ParamTidy

/-- The choices that the commands which read files share. -/
structure RunOptions where
  quiet : Bool := false
  encodings : List Encoding := []
  dryRun : Bool := false
  json : Bool := false
  deriving DecidableEq, Repr

structure WalkOptions where
  run : RunOptions := {}
  root : Option Path := none
  skipDirs : List Text := []
  withoutStandardSkips : Bool := false
  skipFiles : List Path := []
  check : Bool := false
  deriving DecidableEq

structure FileOptions where
  run : RunOptions := {}
  file : Option Path := none
  deriving DecidableEq

inductive Command where
  | walk (options : WalkOptions)
  | file (path : Path) (options : RunOptions)
  | version (quiet : Bool)
  deriving DecidableEq

def readPath (s : String) : Except UsageError Path := if s = "" then .error .emptyPath else .ok (.ofString s)

def readEncoding (s : String) : Except UsageError Encoding :=
  match Encoding.ofLabel? s with
  | some e => .ok e
  | none => .error (.unknownEncoding s)

/-- Changes the shared choices inside those of a command. -/
def RunOptions.switch {Choices : Type} (get : Choices → RunOptions) (set : Choices → RunOptions → Choices)
    (name : String) : Option (Switch Choices) :=
  match name with
  | "encoding" =>
    some (.valued fun c v =>
      (readEncoding v).map fun e => set c { get c with encodings := (get c).encodings ++ [e] })
  | "dry-run" => some (.flag (fun c => (get c).dryRun) fun c => set c { get c with dryRun := true })
  | "json" => some (.flag (fun c => (get c).json) fun c => set c { get c with json := true })
  | "quiet" => some (.flag (fun c => (get c).quiet) fun c => set c { get c with quiet := true })
  | "help" => some (.halt .help)
  | _ => none

/-- The single letters that every command knows. -/
def longNameOfLetter (c : Char) : String := if c = 'q' then "quiet" else if c = 'h' then "help" else ""

def WalkOptions.grammar : Grammar WalkOptions :=
  let shared := RunOptions.switch WalkOptions.run fun o run => { o with run }
  { long := fun name =>
      match name with
      | "skip-dir" => some (.valued fun o v => .ok { o with skipDirs := o.skipDirs ++ [v.toList] })
      | "skip-file" =>
        some (.valued fun o v => (readPath v).map fun p => { o with skipFiles := o.skipFiles ++ [p] })
      | "no-default-skips" =>
        some (.flag WalkOptions.withoutStandardSkips fun o => { o with withoutStandardSkips := true })
      | "check" => some (.flag WalkOptions.check fun o => { o with check := true })
      | _ => shared name
    short := fun c => shared (longNameOfLetter c)
    operand := fun o v =>
      match o.root with
      | some _ => .error (.unexpectedOperand v)
      | none => (readPath v).map fun p => { o with root := some p } }

def FileOptions.grammar : Grammar FileOptions :=
  let shared := RunOptions.switch FileOptions.run fun o run => { o with run }
  { long := shared
    short := fun c => shared (longNameOfLetter c)
    operand := fun o v =>
      match o.file with
      | some _ => .error (.unexpectedOperand v)
      | none => (readPath v).map fun p => { o with file := some p } }

/-- The switches that need no command, and those of the command that only tells the version. -/
def plainSwitch (name : String) : Option (Switch Bool) :=
  match name with
  | "quiet" => some (.flag id fun _ => true)
  | "help" => some (.halt .help)
  | _ => none

def versionGrammar : Grammar Bool where
  long := plainSwitch
  short c := plainSwitch (longNameOfLetter c)
  operand _ v := .error (.unexpectedOperand v)

/-- The grammar of what stands before the command. -/
def leadingGrammar : Grammar Bool where
  long name := if name = "version" then some (.halt .version) else plainSwitch name
  short c := if c = 'V' then some (.halt .version) else plainSwitch (longNameOfLetter c)
  operand _ v := .error (.unknownCommand v)

def commandNames : List String := ["walk", "file", "version", "help"]

/-- Help is given for all commands together or for one that exists. -/
def readHelp : List String → Halt
  | [] => .help
  | name :: names =>
    if name ∉ commandNames then .usage (.unknownCommand name)
    else
      match names with
      | [] => .help
      | more :: _ => .usage (.unknownCommand more)

/-- Silence asked for before the command counts as well as silence asked for after it. -/
def RunOptions.quietIf (quiet : Bool) (o : RunOptions) : RunOptions := { o with quiet := quiet || o.quiet }

/-- A command by its name and arguments, asked for silence or not before that. -/
def readCommand (quiet : Bool) (name : String) (args : List String) : Except Halt Command :=
  match name with
  | "walk" => (WalkOptions.grammar.read {} args).map fun o => .walk { o with run := o.run.quietIf quiet }
  | "file" =>
    FileOptions.grammar.read {} args >>= fun o =>
      match o.file with
      | some p => .ok (.file p (o.run.quietIf quiet))
      | none => .error (.usage .missingOperand)
  | "version" => (versionGrammar.read false args).map fun q => .version (quiet || q)
  | "help" => .error (readHelp args)
  | _ => .error (.usage (.unknownCommand name))

def Command.readFrom (quiet : Bool) : List String → Except Halt Command
  | [] => .error (.usage .missingCommand)
  | a :: rest =>
    match Argument.ofString a with
    | .operand name => readCommand quiet name rest
    | .terminator => .error (.usage .missingCommand)
    | .short letters => letters.foldlM leadingGrammar.applyLetter quiet >>= fun quiet => readFrom quiet rest
    | .long name value =>
      leadingGrammar.applyLong quiet name value none >>= fun (quiet,_) => readFrom quiet rest

def Command.read (args : List String) : Except Halt Command := Command.readFrom false args

end ParamTidy
