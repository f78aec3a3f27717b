import ParamTidy.FileSystem.Layout
import ParamTidy.SkipSet

/-!
# File systems

A layout, what its files hold, and the directory that relative paths start from. Reading and writing go by paths and through
links.
-/

namespace ParamTidy

/-- Where a process stands: in a directory, or in one that has been removed, with the nearest directory above it that is still
there and the permissions of all that are gone below that, its own first. -/
inductive WorkingDirectory where
  | present (l : Location)
  | removed (above : Location) (gone : List Access)
  deriving DecidableEq

/-- A file system as one process sees it. A file that nothing has been written to yet has no bytes. -/
structure FileSystem where
  layout : Layout
  written : Std.ExtTreeMap Location Bytes
  cwd : WorkingDirectory

namespace FileSystem

/-! ## Where paths lead -/

/-- The location of a path read lexically. A removed directory has no location for a relative path to start from. -/
def locate (fs : FileSystem) (p : Path) : Except SystemError Location :=
  if p.isAbsolute then .ok (p.locate [])
  else
    match fs.cwd with
    | .present l => .ok (p.locate l)
    | .removed _ _ => .error .notFound

/-- Where moves lead on the disk, from the top or from where the process stands. -/
def arrive (fs : FileSystem) (ending : Ending) (absolute : Bool) (moves : List Move) : Except SystemError Destination :=
  if absolute then fs.layout.arrive ending linkLimit [] moves
  else
    match fs.cwd with
    | .present l => fs.layout.arrive ending linkLimit l moves
    | .removed above gone => fs.layout.arriveFromRemoved ending above gone moves

/-- Where a path leads on the disk, with a link at its end followed or not. -/
def destination (fs : FileSystem) (ending : Ending) (p : Path) : Except SystemError Destination :=
  if p.bytes.contains 0 then .error .nulInPath
  else if p.bytes = [] then .error .notFound
  else if pathLimit ≤ p.bytes.length then .error .nameTooLong
  else fs.arrive ending p.isAbsolute p.moves

/-- The location of what a path leads to. A removed directory has none, and can be read no more than any other. -/
def find (fs : FileSystem) (ending : Ending) (p : Path) : Except SystemError Location :=
  fs.destination ending p >>= fun
    | .found l => .ok l
    | .vacant _ _ => .error .notFound
    | .removed _ gone => .error (if (gone.headD .full).read then .isDirectory else .accessDenied)

/-- What a path stands for in the end, all links followed. -/
def resolve (fs : FileSystem) (p : Path) : Except SystemError Location := fs.find .follow p

def leadsToFile (fs : FileSystem) (p : Path) : Bool :=
  match fs.resolve p with
  | .ok l => fs.layout.isFile l
  | .error _ => false

def namesLink (fs : FileSystem) (p : Path) : Bool :=
  match fs.find .keep p with
  | .ok l => fs.layout.isLink l
  | .error _ => false

/-! ## Reading and writing -/

def content (fs : FileSystem) (l : Location) : Bytes := fs.written.getD l []

/-- Opens the file a path leads to for what its permissions have to allow. -/
def openFile (fs : FileSystem) (p : Path) (permits : Access → Bool) (ofDirectory : Access → SystemError) :
    Except SystemError Location :=
  fs.resolve p >>= fun l =>
    match fs.layout.node? l with
    | some (.file access) => if permits access then .ok l else .error .accessDenied
    | some (.directory access) => .error (ofDirectory access)
    | _ => .error .notFound

def read (fs : FileSystem) (p : Path) : Except SystemError Bytes :=
  (fs.openFile p Access.read fun access => if access.read then .isDirectory else .accessDenied).map fs.content

def setContent (fs : FileSystem) (l : Location) (bytes : Bytes) : FileSystem :=
  { fs with written := fs.written.insert l bytes }

def write (fs : FileSystem) (p : Path) (bytes : Bytes) : Except SystemError FileSystem :=
  (fs.openFile p Access.write fun _ => .isDirectory).map fun l => fs.setContent l bytes

def listingError? (fs : FileSystem) (p : Path) : Option SystemError :=
  match fs.resolve p with
  | .error e => some e
  | .ok l =>
    match fs.layout.node? l with
    | some (.directory access) => if access.read then none else some .accessDenied
    | _ => some .notDirectory

def list (fs : FileSystem) (p : Path) : Except SystemError (Std.ExtTreeMap Name Kind) :=
  match fs.listingError? p with
  | some e => .error e
  | none => (fs.resolve p).map fs.layout.held

theorem list_eq_ok (fs : FileSystem) {p : Path} {held : Std.ExtTreeMap Name Kind} (listed : fs.list p = .ok held) :
    ∃ l, fs.resolve p = .ok l ∧ held = fs.layout.held l := by
  unfold list at listed
  split at listed
  · cases listed
  · cases leads : fs.resolve p with
    | error e => simp [leads, Except.map] at listed
    | ok l =>
      rw [leads] at listed
      cases listed
      exact ⟨l,rfl,rfl⟩

@[simp] theorem setContent_layout (fs : FileSystem) (l : Location) (b : Bytes) : (fs.setContent l b).layout = fs.layout :=
  rfl

theorem setContent_content (fs : FileSystem) (l : Location) (b : Bytes) (l' : Location) :
    (fs.setContent l b).content l' = if l' = l then b else fs.content l' := by
  simp only [content, setContent, Std.ExtTreeMap.getD_insert, Std.LawfulEqCmp.compare_eq_iff_eq]
  by_cases h : l = l' <;> simp [h, eq_comm]

/-- What a path leads to does not hang on what files hold. -/
@[simp] theorem setContent_find (fs : FileSystem) (l : Location) (b : Bytes) (ending : Ending) (p : Path) :
    (fs.setContent l b).find ending p = fs.find ending p := rfl

theorem bind_eq_ok_iff {α β : Type} {x : Except SystemError α} {f : α → Except SystemError β} {b : β} :
    x >>= f = .ok b ↔ ∃ a, x = .ok a ∧ f a = .ok b := by
  cases x <;> simp [bind, Except.bind]

theorem map_eq_ok_iff {α β : Type} {x : Except SystemError α} {f : α → β} {b : β} :
    x.map f = .ok b ↔ ∃ a, x = .ok a ∧ b = f a := by
  cases x <;> simp [Except.map, eq_comm]

theorem map_eq_error_iff {α β : Type} {x : Except SystemError α} {f : α → β} {e : SystemError} :
    x.map f = .error e ↔ x = .error e := by
  cases x <;> simp [Except.map]

theorem openFile_of_file {fs : FileSystem} {p : Path} {l : Location} {access : Access} (leads : fs.resolve p = .ok l)
    (node : fs.layout.node? l = some (.file access)) (permits : Access → Bool) (ofDirectory : Access → SystemError) :
    fs.openFile p permits ofDirectory = if permits access then .ok l else .error .accessDenied := by
  simp [openFile, leads, bind, Except.bind, node]

theorem openFile_eq_ok_iff {fs : FileSystem} {p : Path} {permits : Access → Bool} {ofDirectory : Access → SystemError}
    {l : Location} : fs.openFile p permits ofDirectory = .ok l ↔
      ∃ access, fs.resolve p = .ok l ∧ fs.layout.node? l = some (.file access) ∧ permits access := by
  rw [openFile, bind_eq_ok_iff]
  constructor
  · rintro ⟨l',leads,opened⟩
    split at opened
    · next access node =>
      split at opened
      · next permitted =>
        cases opened
        exact ⟨access,leads,node,permitted⟩
      · cases opened
    · cases opened
    · cases opened
  · rintro ⟨access,leads,node,permitted⟩
    exact ⟨l,leads,by simp [node, permitted]⟩

/-- Reading gives the bytes of the one file that the path leads to. -/
theorem read_eq_ok_iff {fs : FileSystem} {p : Path} {bytes : Bytes} :
    fs.read p = .ok bytes ↔ ∃ l access, fs.resolve p = .ok l ∧ fs.layout.node? l = some (.file access) ∧
      access.read ∧ bytes = fs.content l := by
  simp only [read, map_eq_ok_iff, openFile_eq_ok_iff, ← exists_and_right, and_assoc]

/-- Writing replaces the bytes of that file and of no other. -/
theorem write_eq_ok_iff {fs after : FileSystem} {p : Path} {bytes : Bytes} :
    fs.write p bytes = .ok after ↔ ∃ l access, fs.resolve p = .ok l ∧ fs.layout.node? l = some (.file access) ∧
      access.write ∧ after = fs.setContent l bytes := by
  simp only [write, map_eq_ok_iff, openFile_eq_ok_iff, ← exists_and_right, and_assoc]

/-! ## Exclusions -/

/-- The exclusion of directories by name and of files by path, relative paths taken from the current directory. -/
def skipSet (fs : FileSystem) (dirs : List Text) (files : List Path) : Except Failure SkipSet :=
  (files.mapM fun f => (fs.locate f).mapError fun e => .environment f (.system e)).map (SkipSet.ofLists dirs)

end FileSystem

end ParamTidy
