import ParamTidy.SourceFile

/-!
# Settings of a walk

Where a walk starts, what it leaves alone, how it reads files and whether it writes them.
-/

namespace ParamTidy

structure Settings where
  root : Path
  skip : SkipSet
  encodings : List Encoding
  mode : Mode

namespace Settings

/-- A writing walk with the exclusions and encodings in force unless others are asked for. -/
def ofRoot (root : Path) : Settings := ⟨root,.standard,Encoding.standard,.write⟩

def withSkip (s : Settings) (skip : SkipSet) : Settings := { s with skip }

/-- Other encodings, if there are any. -/
def withEncodings (s : Settings) (encodings : List Encoding) : Settings :=
  if encodings = [] then s else { s with encodings }

def withMode (s : Settings) (mode : Mode) : Settings := { s with mode }

end Settings

end ParamTidy
