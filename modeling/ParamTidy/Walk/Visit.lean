import ParamTidy.SourceFile

/-!
# Visits

Where a walk starts, and what it does with a place that it comes to.
-/

namespace ParamTidy

/-- What a walk does at one place. -/
inductive Visit where
  | pruned (path : Path)
  | unlistable (path : Path) (error : SystemError)
  | excluded (path : Path)
  | candidate (path : Path)
  deriving DecidableEq

/-- The root of a walk: how it is spelled, where it lies on the disk, and whether its spelling names a link. -/
structure Root where
  names : Location
  base : Location
  linked : Bool

/-- Finds the root of a walk, which has to be a directory. -/
def FileSystem.findRoot (fs : FileSystem) (p : Path) : Except Failure Root :=
  match fs.locate p with
  | .error e => .error (.environment p (.system e))
  | .ok names =>
    match fs.resolve names.path with
    | .error e => .error (.environment names.path (.system e))
    | .ok base =>
      if fs.layout.isDirectory base then .ok ⟨names,base,fs.namesLink names.path⟩
      else .error (.environment names.path .rootNotDirectory)

namespace Root

variable (r : Root) (skip : SkipSet)

def path (rel : Location) : Path := Location.path (r.names ++ rel)

def place (rel : Location) : Location := r.base ++ rel

def lastName (rel : Location) : Text :=
  match (r.names ++ rel).getLast? with
  | some n => n.text
  | none => ['/']

/-- The visit to a file or to a link that leads to one, if its own name is that of a source file. -/
def visitFile? (rel : Location) : Option Visit :=
  if !isSourceName (r.lastName rel) then none
  else if skip.skipsFile (r.path rel) then some (.excluded (r.path rel))
  else some (.candidate (r.path rel))

end Root

end ParamTidy
