import ParamTidy.Report

/-!
# The log

What a run says of itself while it goes on, and how that comes to be written on the channel for errors.
-/

namespace ParamTidy

inductive Level where
  | debug
  | info
  | warn
  deriving DecidableEq

namespace Level

def label : Level → String
  | debug => "DEBUG"
  | info => "INFO"
  | warn => "WARN"

def rank : Level → Nat
  | debug => 0
  | info => 1
  | warn => 2

end Level

inductive LogLine where
  | refused (encoding : Encoding)
  | skippingDirectory (path : Path)
  | skippingFile (path : Path)
  | warning (message : String)
  | simplified (count : Nat) (path : Path) (encoding : Encoding)
  | finished (scanned changed substitutions : Nat) (root : Path)
  deriving DecidableEq

namespace LogLine

def level : LogLine → Level
  | refused _ | skippingDirectory _ | skippingFile _ => .debug
  | warning _ => .warn
  | simplified _ _ _ | finished _ _ _ _ => .info

/-- The part of the program that a line comes from. -/
def origin : LogLine → String
  | refused _ => "voidnorm_core::encoding"
  | _ => "voidnorm_core::walker"

def message : LogLine → String
  | refused e => "input is not valid " ++ e.label
  | skippingDirectory p => "skipping directory " ++ p.shown
  | skippingFile p => "skipping file " ++ p.shown
  | warning m => m
  | simplified n p e =>
    "simplified " ++ toString n ++ " empty parameter list(s) in " ++ p.shown ++ " (read as " ++ e.label ++ ")"
  | finished scanned changed substitutions root =>
    toString scanned ++ " files scanned, " ++ toString changed ++ " changed, " ++ toString substitutions
      ++ " substitutions under " ++ root.shown

def text (l : LogLine) : String := l.level.label ++ " " ++ l.message

def ofReport (r : Report) : LogLine := .finished r.filesScanned r.filesChanged r.substitutions r.root

end LogLine

/-- What becomes of the log: which lines are shown, and how each of these is written. The same line may be written in another
way each time, since the moment counts. -/
structure Logger where
  shows : LogLine → Bool
  write : (number : Nat) → LogLine → String

namespace Logger

def written (logger : Logger) (log : List LogLine) : String := String.join ((log.filter logger.shows).mapIdx logger.write)

def silent : Logger := ⟨fun _ => false,fun _ _ => ""⟩

/-- Shows what is grave enough, each line with its time, its level and its origin. -/
def ofLevel (least : Level) (time : Nat → String) : Logger where
  shows l := least.rank ≤ l.level.rank
  write n l := "[" ++ time n ++ " " ++ .ofList (List.rightpad 5 ' ' l.level.label.toList) ++ " " ++ l.origin ++ "] "
    ++ l.message ++ "\n"

theorem shows_ofLevel_warn (time : Nat → String) : (ofLevel .warn time).shows = fun l => decide (l.level = .warn) := by
  funext l
  cases l <;> rfl

end Logger

end ParamTidy
