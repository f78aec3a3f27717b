import ParamTidy.Encoding

/-!
# Reading arguments

Options come long (`--name`, `--name=value`, `--name value`) or as clusters of single letters (`-ab`), mixed with operands;
`--` ends them. The first thing that does not fit ends the reading.
-/

namespace ParamTidy

inductive UsageError where
  | missingCommand
  | unknownCommand (name : String)
  | unknownOption (name : String)
  | repeatedOption (name : String)
  | unexpectedValue (name : String)
  | missingValue (name : String)
  | unexpectedOperand (operand : String)
  | missingOperand
  | emptyPath
  | unknownEncoding (label : String)
  deriving DecidableEq, Repr

def UsageError.message : UsageError → String
  | missingCommand => "a command is required: walk, file or version"
  | unknownCommand name => "there is no command '" ++ name ++ "'"
  | unknownOption name => "there is no option '" ++ name ++ "' here"
  | repeatedOption name => "the option '" ++ name ++ "' cannot be used twice"
  | unexpectedValue name => "the option '" ++ name ++ "' takes no value"
  | missingValue name => "the option '" ++ name ++ "' needs a value"
  | unexpectedOperand operand => "the argument '" ++ operand ++ "' is one too many"
  | missingOperand => "a file is required"
  | emptyPath => "a path cannot be empty"
  | unknownEncoding label => Encoding.unknownLabel label

/-- Why the reading of arguments ends early. -/
inductive Halt where
  | help
  | version
  | usage (error : UsageError)
  deriving DecidableEq, Repr

/-- One argument by its form; a single dash is an operand. -/
inductive Argument where
  | terminator
  | long (name : String) (value : Option String)
  | short (letters : List Char)
  | operand (text : String)
  deriving DecidableEq, Repr

/-- The text up to the first `=` and, if there is one, the text after it. -/
def splitEquals (s : List Char) : String × Option String :=
  match s.dropWhile (· != '=') with
  | [] => (.ofList s,none)
  | _ :: value => (.ofList (s.takeWhile (· != '=')),some (.ofList value))

def Argument.ofString (s : String) : Argument :=
  match s.toList with
  | ['-', '-'] => .terminator
  | '-' :: '-' :: rest => .long (splitEquals rest).1 (splitEquals rest).2
  | '-' :: c :: rest => .short (c :: rest)
  | _ => .operand s

/-- What an option does to the choices made so far. -/
inductive Switch (Choices : Type) where
  | flag (given : Choices → Bool) (give : Choices → Choices)
  | valued (add : Choices → String → Except UsageError Choices)
  | halt (h : Halt)

/-- The options and operands of one command. -/
structure Grammar (Choices : Type) where
  long : String → Option (Switch Choices)
  short : Char → Option (Switch Choices)
  operand : Choices → String → Except UsageError Choices

namespace Grammar

variable {Choices : Type} (g : Grammar Choices)

/-- A step of the reading that fails only by misuse. -/
def orUsage {α : Type} (r : Except UsageError α) : Except Halt α := r.mapError .usage

def applyFlag (choices : Choices) (name : String) : Switch Choices → Except Halt Choices
  | .flag given give => if given choices then .error (.usage (.repeatedOption name)) else .ok (give choices)
  | .valued _ => .error (.usage (.missingValue name))
  | .halt h => .error h

def applyLetter (choices : Choices) (c : Char) : Except Halt Choices :=
  let name := String.ofList ['-', c]
  match g.short c with
  | none => .error (.usage (.unknownOption name))
  | some switch => applyFlag choices name switch

/-- A long option. Its value, unless written with it, is the argument that follows, if that is an operand; the flag in the
result tells whether that argument was taken. -/
def applyLong (choices : Choices) (name : String) (value : Option String) (next : Option String) :
    Except Halt (Choices × Bool) :=
  let shown := "--" ++ name
  match g.long name, value with
  | none, _ => .error (.usage (.unknownOption shown))
  | some (.valued add), some v => (orUsage (add choices v)).map (·,false)
  | some (.valued add), none =>
    match next.map Argument.ofString with
    | some (.operand v) => (orUsage (add choices v)).map (·,true)
    | _ => .error (.usage (.missingValue shown))
  | some _, some _ => .error (.usage (.unexpectedValue shown))
  | some switch, none => (applyFlag choices shown switch).map (·,false)

def read (choices : Choices) : List String → Except Halt Choices
  | [] => .ok choices
  | a :: rest =>
    match Argument.ofString a with
    | .terminator => orUsage (rest.foldlM g.operand choices)
    | .operand text => orUsage (g.operand choices text) >>= fun choices => read choices rest
    | .short letters => letters.foldlM g.applyLetter choices >>= fun choices => read choices rest
    | .long name value =>
      g.applyLong choices name value rest.head? >>= fun (choices,taken) =>
        read choices (if taken then rest.tail else rest)
termination_by args => args.length
decreasing_by
  · simp
  · simp
  · simp only [List.length_cons]
    split
    · rw [List.length_tail]
      omega
    · omega

end Grammar

end ParamTidy
