import ParamTidy.FileSystem

/-!
# Setting up a file system

What the owner of a disk may do to it: make directories, files and links, remove them, and grant or withdraw permissions.
Directories that are missing on the way are made as well, and what is done before a refusal stays done.
-/

namespace ParamTidy

namespace Layout

/-- Something at a location, whatever lay there before. -/
def place (t : Layout) (l : Location) (n : Node) : Layout := ⟨t.nodes.insert l n⟩

def remove (t : Layout) (l : Location) : Layout := ⟨t.nodes.erase l⟩

theorem node?_place {t : Layout} {l : Location} (below : l ≠ []) (n : Node) (x : Location) :
    (t.place l n).node? x = if x = l then some n else t.node? x := by
  simp only [node?, place, Std.ExtTreeMap.getElem?_insert, Std.LawfulEqCmp.compare_eq_iff_eq]
  by_cases top : x = []
  · subst top
    simp [Ne.symm below]
  · by_cases here : x = l
    · simp [here, below]
    · simp [top, here, Ne.symm here]

/-- The same layout with other permissions at a location; links have none. -/
def protect (t : Layout) (l : Location) (access : Access) : Layout :=
  match t.node? l with
  | some (.directory _) => t.place l (.directory access)
  | some (.file _) => t.place l (.file access)
  | _ => t

def accessAt (t : Layout) (l : Location) : Access :=
  match t.node? l with
  | some (.directory access) => access
  | _ => .full

def isSearchable (t : Layout) (l : Location) : Bool :=
  match t.node? l with
  | some (.directory access) => access.search
  | _ => false

def isListable (t : Layout) (l : Location) : Bool :=
  match t.node? l with
  | some (.directory access) => access.read
  | _ => false

/-- Whether something may be added to a directory at a location or removed from it. -/
def isWritable (t : Layout) (l : Location) : Bool :=
  match t.node? l with
  | some (.directory access) => access.search && access.write
  | _ => false

def files (t : Layout) : List Location :=
  t.nodes.toList.filterMap fun (l,n) =>
    match n with
    | .file _ => some l
    | _ => none

/-- The files that are found by listing one directory after the other, from the top. -/
def filesInSight (t : Layout) : List Location :=
  t.files.filter fun l => (List.range l.length).all fun k => t.isListable (l.take k) && t.isSearchable (l.take k)

def below (t : Layout) (l : Location) : List Location := t.nodes.keys.filter fun x => l.isPrefixOf x && l != x

/-- Whether the way from a directory down to a location below it is open, and the location, too, if it is a directory. -/
def isOpen (t : Layout) (l x : Location) : Bool :=
  ((List.range x.length).all fun k => k < l.length || t.isListable (x.take k) && t.isSearchable (x.take k)) &&
    (!t.isDirectory x || t.isListable x)

end Layout

/-- The same place once a directory at a location, with its permissions, is gone. -/
def WorkingDirectory.without (l : Location) (access : Access) : WorkingDirectory → WorkingDirectory
  | .present d => if d = l then .removed l.dropLast [access] else .present d
  | .removed above gone => if above = l then .removed l.dropLast (gone ++ [access]) else .removed above gone

/-- A change of a file system, which may be refused halfway; what it did until then stays done. -/
abbrev Edit := EStateM SystemError FileSystem Unit

namespace FileSystem

def empty : FileSystem := ⟨.empty,∅,.present []⟩

/-- The file system after a change, and why the change was refused if it was. -/
def edit (fs : FileSystem) (e : Edit) : FileSystem × Option SystemError :=
  match e.run fs with
  | .ok _ after => (after,none)
  | .error e after => (after,some e)

def leadsToDirectory (fs : FileSystem) (absolute : Bool) (segments : List Segment) : Bool :=
  match fs.arrive .follow absolute (segments.map .segment) with
  | .ok (.found l) => fs.layout.isDirectory l
  | .ok (.removed _ _) => true
  | _ => false

/-- The file system without what lies at a location; nothing lies below it. -/
def drop (fs : FileSystem) (l : Location) : FileSystem :=
  { fs with layout := fs.layout.remove l, cwd := fs.cwd.without l (fs.layout.accessAt l) }

def protect (fs : FileSystem) (l : Location) (access : Access) : FileSystem :=
  { fs with layout := fs.layout.protect l access }

end FileSystem

namespace Edit

/-! ## Making -/

def putNew (directory : Location) (n : Name) (node : Node) : Edit := do
  let fs ← get
  if fs.layout.isWritable directory then set { fs with layout := fs.layout.place (directory ++ [n]) node }
  else throw .accessDenied

/-- A new directory where segments lead, unless there is one already. -/
def putDirectoryAt (absolute : Bool) (segments : List Segment) : Edit := do
  try
    match ← ofExcept ((← get).arrive .keep absolute (segments.map .segment)) with
    | .vacant directory n => putNew directory n (.directory .full)
    | _ => throw .alreadyExists
  catch e => if (← get).leadsToDirectory absolute segments then pure () else throw e

/-- Something that is put where a way leads. If nothing is found on the way, the way is made first. -/
def makingWay (way put : Edit) : Edit := do
  try put
  catch
    | .notFound => do
      way
      put
    | e => throw e

/-- A directory where segments lead, the last segment first, with the way to it. -/
def putDirectories (absolute : Bool) : List Segment → Edit
  | [] => pure ()
  | s :: above => makingWay (putDirectories absolute above) (putDirectoryAt absolute (s :: above).reverse)

/-- The way to the last segment of a path; segments that do not move do not count. -/
def putWay (p : Path) : Edit := putDirectories p.isAbsolute (p.segments.filter (· != .here)).reverse.tail

/-- A directory at a path, unless there is one, with the way to it. -/
def putDirectory (p : Path) : Edit := makingWay (putWay p) (putDirectoryAt p.isAbsolute p.segments)

/-- A file at a path with its bytes and with the way to it. One that is there keeps its permissions, and links lead on, also to
a file that is still missing. -/
def putFile (p : Path) (bytes : Bytes) : Edit := do
  putWay p
  match ← ofExcept ((← get).destination .make p) with
  | .found _ => set (← ofExcept ((← get).write p bytes))
  | .vacant directory n =>
    putNew directory n (.file .full)
    modify (·.setContent (directory ++ [n]) bytes)
  | .removed _ _ => throw .isDirectory

/-- A symbolic link at a path, where nothing lies yet, with the way to it. -/
def putLink (p : Path) (target : Path) : Edit := do
  putWay p
  if target.bytes = [] then throw .notFound
  match ← ofExcept ((← get).arrive .keep p.isAbsolute (p.segments.map .segment)) with
  | .vacant directory n => if p.asksDirectory then throw .notFound else putNew directory n (.link target)
  | _ => throw .alreadyExists

/-! ## Removing -/

/-- Without what lies at a location, if its directory can be changed. -/
def discard (l : Location) : Edit := do
  if (← get).layout.isWritable l.dropLast then modify (·.drop l) else throw .accessDenied

/-- Without all that lies below a directory, from the last location to the first, until one cannot be taken away. -/
def clear (l : Location) : Edit := do
  let t := (← get).layout
  if !t.isListable l then throw .accessDenied
  (t.below l).reverse.forM fun x => if t.isOpen l x then discard x else throw .accessDenied

/-- Without the directory at the end of a path, which is empty by now. A directory can be taken away by its name only; if the
path leads through what is gone already, nothing is left to do. -/
def discardDirectory (p : Path) : Edit := do
  let fs ← get
  match fs.arrive .keep p.isAbsolute (p.segments.map .segment), p.segments.getLast? with
  | .error .notFound, _ => pure ()
  | .error e, _ => throw e
  | _, some .here => throw .invalidArgument
  | .ok (.found l), some (.name _) => if fs.layout.isLink l then throw .notDirectory else discard l
  | .ok (.vacant _ _), _ => pure ()
  | _, _ => throw .directoryNotEmpty

def remove (p : Path) : Edit := do
  let fs ← get
  match ← ofExcept (fs.destination .keep p) with
  | .found l =>
    if fs.layout.isDirectory l then
      clear l
      discardDirectory p
    else discard l
  | .vacant _ _ => throw .notFound
  | .removed _ gone => if (gone.headD .full).read then discardDirectory p else throw .accessDenied

/-! ## Other changes -/

/-- Other permissions for what a path leads to, which may be a removed directory that the process stands in or below. -/
def grant (p : Path) (access : Access) : Edit := do
  let fs ← get
  match ← ofExcept (fs.destination .follow p) with
  | .found l => set (fs.protect l access)
  | .vacant _ _ => throw .notFound
  | .removed above gone =>
    match fs.cwd with
    | .removed _ all => set { fs with cwd := .removed above (all.take (all.length - gone.length) ++ access :: gone.tail) }
    | .present _ => pure ()

/-- The directory that a path leads to as the current one, if it leads to one that may be searched. -/
def enter (p : Path) : Edit := do
  let fs ← get
  match ← ofExcept (fs.destination .follow p) with
  | .found l =>
    if !fs.layout.isDirectory l then throw .notDirectory
    else if fs.layout.isSearchable l then set { fs with cwd := .present l }
    else throw .accessDenied
  | .vacant _ _ => throw .notFound
  | .removed above gone =>
    if (gone.headD .full).search then set { fs with cwd := .removed above gone } else throw .accessDenied

end Edit

end ParamTidy
