import ParamTidy.Failure
import Std.Data.ExtTreeMap

/-!
# Layouts of a disk

Which directories, files and symbolic links lie where, and where a path leads among them. A layout knows nothing of what the
files hold.
-/

namespace ParamTidy

structure Access where
  read : Bool
  write : Bool
  search : Bool
  deriving DecidableEq, Repr

def Access.full : Access := ⟨true,true,true⟩

inductive Node where
  | directory (access : Access)
  | file (access : Access)
  | link (target : Path)
  deriving DecidableEq

/-- What sort of thing a directory says that one of its names stands for. -/
inductive Kind where
  | directory
  | file
  | link
  deriving DecidableEq

def Node.kind : Node → Kind
  | directory _ => .directory
  | file _ => .file
  | link _ => .link

/-- What lies at each location but the top. Locations come in the order of their names, a directory before all that lies in it.
-/
structure Layout where
  nodes : Std.ExtTreeMap Location Node
  deriving DecidableEq

/-! ## The way of a path -/

/-- One move along a path; a slash at its end demands a directory there. -/
inductive Move where
  | segment (s : Segment)
  | demandDirectory
  deriving DecidableEq

def Path.moves (p : Path) : List Move := p.segments.map .segment ++ if p.asksDirectory then [.demandDirectory] else []

/-- How far moves lead: to their end, to a name in a directory under which nothing lies yet, or to a link in a directory with
moves still to come. -/
inductive Stop where
  | arrived (l : Location)
  | vacant (directory : Location) (n : Name)
  | linked (directory : Location) (target : Path) (rest : List Move)

/-- What becomes of a link at the end of a path: it is followed, or taken for what it is, or followed to where a file may be
made. No slash may come after a file that is made. -/
inductive Ending where
  | follow
  | keep
  | make
  deriving DecidableEq

/-- Where a path leads in the end: to what lies at a location, to a name in a directory under which nothing lies yet, or to a
directory that has been removed. Of such a one are known the nearest directory above it that is still there, and the permissions
of all that are gone below that, its own first. -/
inductive Destination where
  | found (l : Location)
  | vacant (directory : Location) (n : Name)
  | removed (above : Location) (gone : List Access)
  deriving DecidableEq

/-- The longest name that a directory accepts, in bytes. -/
def longestName : Nat := 255

/-- The number of bytes from which on a path is refused. -/
def pathLimit : Nat := 4096

/-- The most links that are followed on the way of one path. -/
def linkLimit : Nat := 40

namespace Layout

def empty : Layout := ⟨∅⟩

/-- What lies at a location; the top is a directory. -/
def node? (t : Layout) (l : Location) : Option Node := if l = [] then some (.directory .full) else t.nodes[l]?

/-- What a directory holds: each name in it with what it stands for. -/
def held (t : Layout) (l : Location) : Std.ExtTreeMap Name Kind :=
  .ofList (t.nodes.toList.filterMap fun (x,node) => if x.dropLast = l then x.getLast?.map (·,node.kind) else none) compare

def isFile (t : Layout) (l : Location) : Bool :=
  match t.node? l with
  | some (.file _) => true
  | _ => false

def isDirectory (t : Layout) (l : Location) : Bool :=
  match t.node? l with
  | some (.directory _) => true
  | _ => false

def isLink (t : Layout) (l : Location) : Bool :=
  match t.node? l with
  | some (.link _) => true
  | _ => false

theorem isFile_iff {t : Layout} {l : Location} : t.isFile l ↔ ∃ access, t.node? l = some (.file access) := by
  unfold isFile
  split
  · next access node => simp [node]
  · next other => exact ⟨fun no => Bool.noConfusion no,fun ⟨access,node⟩ => absurd node (other access)⟩

theorem isDirectory_iff {t : Layout} {l : Location} :
    t.isDirectory l ↔ ∃ access, t.node? l = some (.directory access) := by
  unfold isDirectory
  split
  · next access node => simp [node]
  · next other => exact ⟨fun no => Bool.noConfusion no,fun ⟨access,node⟩ => absurd node (other access)⟩

theorem isLink_iff {t : Layout} {l : Location} : t.isLink l ↔ ∃ target, t.node? l = some (.link target) := by
  unfold isLink
  split
  · next target node => simp [node]
  · next other => exact ⟨fun no => Bool.noConfusion no,fun ⟨target,node⟩ => absurd node (other target)⟩

section
variable {t : Layout} {l : Location}

theorem isSome_of_isDirectory (directory : t.isDirectory l) : (t.node? l).isSome := by
  obtain ⟨access,node⟩ := isDirectory_iff.1 directory
  rw [node, Option.isSome_some]

theorem isSome_of_isFile (file : t.isFile l) : (t.node? l).isSome := by
  obtain ⟨access,node⟩ := isFile_iff.1 file
  rw [node, Option.isSome_some]

theorem not_isLink_of_isDirectory (directory : t.isDirectory l) : t.isLink l = false := by
  obtain ⟨access,node⟩ := isDirectory_iff.1 directory
  simp [isLink, node]

theorem not_isFile_of_isDirectory (directory : t.isDirectory l) : t.isFile l = false := by
  obtain ⟨access,node⟩ := isDirectory_iff.1 directory
  simp [isFile, node]

theorem not_isLink_of_isFile (file : t.isFile l) : t.isLink l = false := by
  obtain ⟨access,node⟩ := isFile_iff.1 file
  simp [isLink, node]

end

/-- Moves on from `l` up to the first link that is to be followed. Every move but the last demand needs a directory that may be
searched. -/
def travel (t : Layout) (ending : Ending) (l : Location) : List Move → Except SystemError Stop
  | [] => .ok (.arrived l)
  | .demandDirectory :: rest => if t.isDirectory l then t.travel ending l rest else .error .notDirectory
  | .segment s :: rest =>
    match t.node? l with
    | some (.directory access) =>
      if !access.search then .error .accessDenied
      else
        match s with
        | .here => t.travel ending l rest
        | .up => t.travel ending l.dropLast rest
        | .name n =>
          if ending = .make ∧ rest = [.demandDirectory] then .error .isDirectory
          else if longestName < n.bytes.length then .error .nameTooLong
          else
            match t.node? (l ++ [n]) with
            | none => if rest = [] then .ok (.vacant l n) else .error .notFound
            | some (.link target) =>
              if rest = [] ∧ ending = .keep then .ok (.arrived (l ++ [n])) else .ok (.linked l target rest)
            | some _ => t.travel ending (l ++ [n]) rest
    | some _ => .error .notDirectory
    | none => .error .notFound

/-- Where moves lead from `l`, with as many links followed as allowed. -/
def arrive (t : Layout) (ending : Ending) : (links : Nat) → Location → List Move → Except SystemError Destination
  | links, l, moves =>
    match t.travel ending l moves with
    | .error e => .error e
    | .ok (.arrived l) => .ok (.found l)
    | .ok (.vacant directory n) => .ok (.vacant directory n)
    | .ok (.linked directory target rest) =>
      match links with
      | 0 => .error .tooManyLinks
      | links + 1 =>
        t.arrive ending links (if target.isAbsolute then [] else directory) (target.moves ++ rest)

/-- Where moves lead from a removed directory. Nothing lies in it, but the way out of it is still open. -/
def arriveFromRemoved (t : Layout) (ending : Ending) (above : Location) :
    (gone : List Access) → List Move → Except SystemError Destination
  | [], moves => t.arrive ending linkLimit above moves
  | access :: gone, [] => .ok (.removed above (access :: gone))
  | access :: gone, .demandDirectory :: rest => t.arriveFromRemoved ending above (access :: gone) rest
  | access :: gone, .segment s :: rest =>
    if !access.search then .error .accessDenied
    else
      match s with
      | .here => t.arriveFromRemoved ending above (access :: gone) rest
      | .up => t.arriveFromRemoved ending above gone rest
      | .name _ => .error (if ending = .make ∧ rest = [.demandDirectory] then .isDirectory else .notFound)

end Layout

end ParamTidy
