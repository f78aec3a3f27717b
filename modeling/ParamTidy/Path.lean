import ParamTidy.Text.Utf8

/-!
# Paths

A path is written with slashes between its segments. Read lexically, without a look at any disk, it leads from one location to
another: a name goes down, `..` goes up, and at the top `..` stays there.
-/

namespace ParamTidy

def slash : UInt8 := 0x2F

/-- The byte that the two segments without a name of their own are made of. -/
def dot : UInt8 := 0x2E

/-- Whether bytes can name an entry of a directory: they hold no slash and are not empty, `.` or `..`. -/
def isName (b : Bytes) : Bool := b != [] && b != [dot] && b != [dot, dot] && !b.contains slash

structure Name where
  bytes : Bytes
  allowed : isName bytes = true
  deriving DecidableEq

namespace Name

def ofBytes? (b : Bytes) : Option Name := if h : isName b then some ⟨b,h⟩ else none

def text (n : Name) : Text := Utf8.lossy n.bytes

/-- Names are ordered byte by byte. -/
instance : Ord Name := ⟨compareOn Name.bytes⟩

instance : Std.TransOrd Name := inferInstanceAs (Std.TransCmp (compareOn Name.bytes))

instance : Std.LawfulEqOrd Name where
  eq_of_compare {a b} h := by
    have same : a.bytes = b.bytes := Std.LawfulEqOrd.eq_of_compare h
    cases a
    cases b
    cases same
    rfl

@[simp] theorem ofBytes?_bytes (n : Name) : ofBytes? n.bytes = some n := by
  simp [ofBytes?, n.allowed]

end Name

/-- A place on a disk: the names that lead to it from the top. -/
abbrev Location := List Name

/-- What stands between two slashes of a path. -/
inductive Segment where
  | here
  | up
  | name (n : Name)
  deriving DecidableEq

/-- The segment that consists of some bytes; of no bytes there is none. -/
def Segment.ofBytes? (b : Bytes) : Option Segment :=
  if b = [dot] then some .here else if b = [dot, dot] then some .up else (Name.ofBytes? b).map .name

def Location.step (l : Location) : Segment → Location
  | .here => l
  | .up => l.dropLast
  | .name n => l ++ [n]

def Location.follow (l : Location) (segments : List Segment) : Location := segments.foldl Location.step l

theorem Location.follow_append (l : Location) (s t : List Segment) : l.follow (s ++ t) = (l.follow s).follow t :=
  List.foldl_append

/-- Following names goes down by them. -/
theorem Location.follow_names (l m : Location) : l.follow (m.map .name) = l ++ m := by
  induction m generalizing l with
  | nil => simp [follow]
  | cons n m ih => simpa [follow, step] using ih (l ++ [n])

/-- The written form of a path. -/
structure Path where
  bytes : Bytes
  deriving DecidableEq

/-- The stretches of bytes between slashes, empty ones included. -/
def pieces : Bytes → List Bytes
  | [] => [[]]
  | b :: rest => if b = slash then [] :: pieces rest else (pieces rest).modifyHead (b :: ·)

/-- Names with slashes between them. -/
def spell (names : List Name) : Bytes := List.intercalate [slash] (names.map Name.bytes)

def Location.path (l : Location) : Path := ⟨slash :: spell l⟩

namespace Path

def ofText (t : Text) : Path := ⟨Utf8.encode t⟩

def ofString (s : String) : Path := ofText s.toList

def text (p : Path) : Text := Utf8.lossy p.bytes

/-- A path as it stands in a message. -/
def shown (p : Path) : String := .ofList p.text

def text? (p : Path) : Option Text := Utf8.decode? p.bytes

def isAbsolute (p : Path) : Bool := p.bytes.head? == some slash

/-- The segments of a path; slashes in a row count as one. -/
def segments (p : Path) : List Segment := (pieces p.bytes).filterMap Segment.ofBytes?

/-- Whether a path ends in a slash, which asks for a directory. -/
def asksDirectory (p : Path) : Bool := p.bytes.getLast? == some slash

/-- The location a path leads to from the directory `cwd`, lexically. -/
def locate (cwd : Location) (p : Path) : Location := Location.follow (if p.isAbsolute then [] else cwd) p.segments

/-- A path with `.`, `..` and needless slashes gone; it starts from the top if it did before. -/
def clean (p : Path) : Path :=
  if p.isAbsolute then (p.locate []).path else ⟨spell (p.locate [])⟩

/-- The path `q` taken from where `p` leads; an absolute `q` stands alone. -/
def join (p q : Path) : Path :=
  if q.isAbsolute then q
  else if p.bytes = [] ∨ p.asksDirectory then ⟨p.bytes ++ q.bytes⟩
  else ⟨p.bytes ++ slash :: q.bytes⟩

end Path

end ParamTidy
