import ParamTidy.Path

/-!
# Failures

What can go wrong with a file, a directory or a whole run, and how each is told.
-/

namespace ParamTidy

inductive SystemError where
  | notFound
  | accessDenied
  | alreadyExists
  | notDirectory
  | isDirectory
  | nameTooLong
  | tooManyLinks
  | directoryNotEmpty
  | invalidArgument
  | nulInPath
  deriving DecidableEq, Repr

def SystemError.message : SystemError → String
  | notFound => "No such file or directory (os error 2)"
  | accessDenied => "Permission denied (os error 13)"
  | alreadyExists => "File exists (os error 17)"
  | notDirectory => "Not a directory (os error 20)"
  | isDirectory => "Is a directory (os error 21)"
  | nameTooLong => "File name too long (os error 36)"
  | tooManyLinks => "Too many levels of symbolic links (os error 40)"
  | directoryNotEmpty => "Directory not empty (os error 39)"
  | invalidArgument => "Invalid argument (os error 22)"
  | nulInPath => "file name contained an unexpected NUL byte"

inductive Cause where
  | system (error : SystemError)
  | unlistable (directory : Path) (error : SystemError)
  | rootNotDirectory
  | other (message : String)
  deriving DecidableEq

def Cause.message : Cause → String
  | system e => e.message
  | unlistable d e => "IO error for operation on " ++ d.shown ++ ": " ++ e.message
  | rootNotDirectory => "not a directory"
  | other message => message

inductive Failure where
  | undecodable (path : Path)
  | io (path : Path) (cause : Cause)
  | untraversable (path : Path) (cause : Cause)
  | environment (path : Path) (cause : Cause)
  deriving DecidableEq

namespace Failure

def message : Failure → String
  | undecodable p => "unable to decode " ++ p.shown ++ " with any configured encoding"
  | io p c => "i/o error on " ++ p.shown ++ ": " ++ c.message
  | untraversable p c => "cannot traverse " ++ p.shown ++ ": " ++ c.message
  | environment p c => "environment error at " ++ p.shown ++ ": " ++ c.message

def path : Failure → Path
  | undecodable p | io p _ | untraversable p _ | environment p _ => p

/-- Whether the whole run ends with a failure; others cost one file or directory. -/
def isFatal : Failure → Bool
  | environment _ _ => true
  | _ => false

end Failure

end ParamTidy
