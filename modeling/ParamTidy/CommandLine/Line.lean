import ParamTidy.Report.Document

/-!
# Printed lines

What the commands print, line by line: which channel a line goes to, what it says, and which parts of it are coloured where
colours are wanted.
-/

namespace ParamTidy

inductive Style where
  | yellow
  | red
  | green
  | cyan
  | boldRed
  deriving DecidableEq, Repr

/-- The number by which a terminal knows a style. -/
def Style.code : Style → Text
  | yellow => ['3', '3']
  | red => ['3', '1']
  | green => ['3', '2']
  | cyan => ['3', '6']
  | boldRed => ['1', ';', '3', '1']

def Style.start (s : Style) : Text := '\x1b' :: '[' :: s.code ++ ['m']

def Style.stop : Text := ['\x1b', '[', '0', 'm']

/-- Turns a style on again after each place where the text itself turns it off. -/
def Style.resume (s : Style) : Text → Text
  | '\x1b' :: '[' :: '0' :: 'm' :: rest => stop ++ s.start ++ resume s rest
  | c :: rest => c :: resume s rest
  | [] => []

/-- A text in a style, where colours are wanted. -/
def Style.paint (s : Style) (color : Bool) (t : String) : String :=
  if color then .ofList (s.start ++ s.resume t.toList ++ stop) else t

/-- One printed line, or for a document several at once. -/
inductive Line where
  | skippedDirectory (path : Path)
  | skippedFile (path : Path)
  | simplified (path : Path) (substitutions : Nat) (encoding : Encoding)
  | wouldSimplify (path : Path) (substitutions : Nat) (encoding : Encoding)
  | failed (path : Path) (message : String)
  | summary (scanned changed substitutions failures : Nat)
  | document (json : Json)
  | version
  | programVersion
  | fatal (failure : Failure)
  | undocumented
  | misuse (message : String)
  | help

namespace Line

/-- Whether a line goes to the channel for errors. -/
def isError : Line → Bool
  | failed _ _ | fatal _ | undocumented | misuse _ => true
  | _ => false

/-- What is said of a file with forms in it. The encoding is named unless it is UTF-8, in which all files are written. -/
def ofForms (verb : String) (p : Path) (n : Nat) (e : Encoding) : String :=
  "  › " ++ verb ++ " " ++ toString n ++ " empty parameter list(s) in " ++ p.shown
    ++ (if e = .utf8 then "" else " (from " ++ e.label ++ ")")

def usage : String :=
  "Usage: voidnorm [-q] walk [ROOT] [--skip-dir NAME]... [--no-default-skips] [--skip-file PATH]... [--check] [OPTIONS]\n"
    ++ "       voidnorm [-q] file FILE [OPTIONS]\n"
    ++ "       voidnorm [-q] version\n"
    ++ "Options: [--encoding ENCODING]... [--dry-run] [--json] [-q, --quiet] [-h, --help]"

/-- What a line says, without its end. -/
def text (color : Bool) : Line → String
  | skippedDirectory p => Style.yellow.paint color "Skipping directory:" ++ " " ++ p.shown
  | skippedFile p => Style.yellow.paint color "Skipping file:" ++ " " ++ p.shown
  | simplified p n e => Style.cyan.paint color (ofForms "simplified" p n e)
  | wouldSimplify p n e => Style.cyan.paint color (ofForms "would simplify" p n e)
  | failed p m => Style.red.paint color "Skipping" ++ " " ++ p.shown ++ ": " ++ Style.red.paint color m
  | summary scanned changed substitutions failures =>
    Style.green.paint color (toString scanned ++ " files scanned, " ++ toString changed ++ " changed, "
      ++ toString substitutions ++ " substitutions")
      ++ (if failures = 0 then "" else " (" ++ Style.red.paint color (toString failures) ++ " failed)")
  | document j => .ofList j.pretty
  | version => "voidnorm 0.1.0 (voidnorm-core 0.1.0)"
  | programVersion => "voidnorm 0.1.0"
  | fatal f => Style.boldRed.paint color "error:" ++ " " ++ f.message
  | undocumented => "a path that is not UTF-8 cannot be written as JSON"
  | misuse m => Style.boldRed.paint color "error:" ++ " " ++ m ++ "\n\n" ++ usage
  | help => usage

/-- The lines of one channel, each with its end. -/
def channel (error color : Bool) (lines : List Line) : String :=
  String.join ((lines.filter (·.isError == error)).map fun l => l.text color ++ "\n")

end Line

/-- The line about a file that was read; of an unchanged one nothing is said. -/
def Outcome.line? (p : Path) : Outcome → Option Line
  | unchanged _ => none
  | simplified n e => some (.simplified p n e)
  | wouldSimplify n e => some (.wouldSimplify p n e)

/-- The line about an entry; failures are told even in silence. -/
def Entry.line? (quiet : Bool) : Entry → Option Line
  | failed p m => some (.failed p m)
  | skippedDirectory p => if quiet then none else some (.skippedDirectory p)
  | skippedFile p => if quiet then none else some (.skippedFile p)
  | processed p o => if quiet then none else o.line? p

def Report.summary (r : Report) : Line := .summary r.filesScanned r.filesChanged r.substitutions r.failures

def Report.lines (quiet : Bool) (r : Report) : List Line :=
  r.entries.filterMap (Entry.line? quiet) ++ if quiet then [] else [r.summary]

end ParamTidy
