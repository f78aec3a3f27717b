import ParamTidy.Path
import ParamTidy.Text.Lowercase
import Std.Data.ExtTreeSet

/-!
# Exclusions

What a walk leaves alone: directories by name and files by path, in capital or small letters alike.
-/

namespace ParamTidy

/-- The excluded directory names and file paths, lower-cased. -/
structure SkipSet where
  dirs : Std.ExtTreeSet Text
  files : Std.ExtTreeSet Text
  deriving DecidableEq

/-- The form in which a file's path is compared with others. -/
def Path.key (p : Path) : Text := lowercase p.clean.text

namespace SkipSet

def empty : SkipSet := ⟨∅,∅⟩

def ofLists (dirs : List Text) (files : List Location) : SkipSet :=
  ⟨.ofList (dirs.map lowercase),.ofList (files.map (·.path.key))⟩

/-- The names of directories that usually hold code of others. -/
def standardDirs : List Text := ["extern".toList, "libs".toList, "thirdparty".toList]

/-- The exclusions in force unless others are asked for. -/
def standard : SkipSet := ⟨.ofList standardDirs,∅⟩

def skipsDir (s : SkipSet) (name : Text) : Bool := s.dirs.contains (lowercase name)

def skipsFile (s : SkipSet) (p : Path) : Bool := s.files.contains p.key

end SkipSet

end ParamTidy
