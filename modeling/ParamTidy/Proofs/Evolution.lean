import Mathlib.Data.Set.Insert
import ParamTidy.Proofs.Reach
import ParamTidy.Proofs.Tidying
import ParamTidy.Walk

/-!
# How a file system changes

Whatever a run does, only what files hold changes, and each file at most once: `Tidies` relates a file system to a later one,
`simplifyFile_tidies` is its step and `performAll_tidies` the run. The visits hang on the layout alone (`SameLayout.visits`).
-/

namespace ParamTidy

namespace FileSystem

/-! ## Two file systems that differ in contents at most -/

/-- The same directories, files, links and permissions, and the same current directory. -/
structure SameLayout (a b : FileSystem) : Prop where
  layout : b.layout = a.layout
  cwd : b.cwd = a.cwd

theorem SameLayout.refl (fs : FileSystem) : SameLayout fs fs := ⟨rfl,rfl⟩

theorem SameLayout.trans {a b c : FileSystem} (ab : SameLayout a b) (bc : SameLayout b c) : SameLayout a c :=
  ⟨bc.layout.trans ab.layout,bc.cwd.trans ab.cwd⟩

theorem sameLayout_setContent (fs : FileSystem) (l : Location) (bytes : Bytes) : SameLayout fs (fs.setContent l bytes) :=
  ⟨rfl,rfl⟩

section
variable {a b : FileSystem} (same : SameLayout a b)
include same

theorem SameLayout.find (ending : Ending) (p : Path) : b.find ending p = a.find ending p := by
  obtain ⟨layout,written,cwd⟩ := a
  obtain ⟨layout',written',cwd'⟩ := b
  obtain ⟨rfl,rfl⟩ := same
  rfl

theorem SameLayout.resolve (p : Path) : b.resolve p = a.resolve p := same.find .follow p

theorem SameLayout.leadsToFile (p : Path) : b.leadsToFile p = a.leadsToFile p := by
  rw [FileSystem.leadsToFile, FileSystem.leadsToFile, same.resolve, same.layout]

theorem SameLayout.listingError? (p : Path) : b.listingError? p = a.listingError? p := by
  rw [FileSystem.listingError?, FileSystem.listingError?, same.resolve, same.layout]

theorem SameLayout.findRoot (p : Path) : b.findRoot p = a.findRoot p := by
  have located : b.locate p = a.locate p := by rw [locate, locate, same.cwd]
  have named (q : Path) : b.namesLink q = a.namesLink q := by rw [namesLink, namesLink, same.find, same.layout]
  simp only [FileSystem.findRoot, located, named, same.resolve, same.layout]

theorem SameLayout.opens {p : Path} {l : Location} : b.Opens p l ↔ a.Opens p l := by
  rw [Opens, Opens, same.resolve, same.layout]

theorem SameLayout.editable {p : Path} : b.Editable p ↔ a.Editable p := by rw [Editable, Editable, same.resolve, same.layout]

theorem SameLayout.openFile (p : Path) (permits : Access → Bool) (ofDirectory : Access → SystemError) :
    b.openFile p permits ofDirectory = a.openFile p permits ofDirectory := by
  rw [FileSystem.openFile, FileSystem.openFile, same.resolve, same.layout]

theorem SameLayout.read_error {p : Path} {error : SystemError} (h : a.read p = .error error) :
    b.read p = .error error := by
  rw [read, map_eq_error_iff] at h ⊢
  rwa [same.openFile]

theorem SameLayout.write_error {p : Path} {bytes bytes' : Bytes} {error : SystemError}
    (h : a.write p bytes = .error error) : b.write p bytes' = .error error := by
  rw [write, map_eq_error_iff] at h ⊢
  rwa [same.openFile]

theorem SameLayout.list (p : Path) : b.list p = a.list p := by
  rw [FileSystem.list, FileSystem.list, same.listingError?, same.resolve, same.layout]

theorem SameLayout.visits (r : Root) (skip : SkipSet) : r.visits b skip = r.visits a skip := by
  have enters (rel : Location) : r.enters b skip rel = r.enters a skip rel := by
    rw [Root.enters, Root.enters, same.layout, same.listingError?]
  have node (rel : Location) (n : Node) : r.visitNode? b skip rel n = r.visitNode? a skip rel n := by
    cases n with
    | directory access => rw [Root.visitNode?, Root.visitNode?, Root.visitDirectory?, Root.visitDirectory?, same.listingError?]
    | file access => rfl
    | link target => rw [Root.visitNode?, Root.visitNode?, same.leadsToFile]
  have reaches (rel : Location) : r.reaches b skip rel = r.reaches a skip rel := by simp only [Root.reaches, enters]
  have visit (rel : Location) (n : Node) : r.visit? b skip rel n = r.visit? a skip rel n := by
    rw [Root.visit?, Root.visit?, reaches, node]
  simp only [Root.visits, Root.below, visit, same.layout]

end

/-! ## Files that are tidied -/

/-- A later file system: what files hold has changed only where some of the chains rewrote it. -/
structure Tidies (chains : Set (List Encoding)) (before after : FileSystem) : Prop extends SameLayout before after where
  content : ∀ l, after.content l = before.content l ∨
    (∃ access, before.layout.node? l = some (.file access) ∧ access.read ∧ access.write) ∧
      ∃ chain ∈ chains, rewritten? chain (before.content l) = some (after.content l)

section
variable {chains : Set (List Encoding)} {a b c : FileSystem}

theorem Tidies.refl (fs : FileSystem) : Tidies chains fs fs := ⟨.refl fs,fun _ => .inl rfl⟩

theorem Tidies.mono {chains' : Set (List Encoding)} (sub : chains ⊆ chains') (ab : Tidies chains a b) :
    Tidies chains' a b := by
  refine ⟨ab.toSameLayout,fun l => (ab.content l).imp_right ?_⟩
  rintro ⟨opens,chain,member,found⟩
  exact ⟨opens,chain,sub member,found⟩

/-- What could be read still can be, and gives the same bytes unless they have been rewritten. -/
theorem Tidies.read {chain : List Encoding} (ab : Tidies {chain} a b) {p : Path} {bytes : Bytes}
    (read : a.read p = .ok bytes) :
    ∃ bytes', b.read p = .ok bytes' ∧
      (bytes' = bytes ∨ (∃ l, a.Opens p l) ∧ rewritten? chain bytes = some bytes') := by
  obtain ⟨l,access,leads,node,readable,rfl⟩ := read_eq_ok_iff.1 read
  refine ⟨b.content l,read_eq_ok_iff.2 ⟨l,access,?_,?_,readable,rfl⟩,?_⟩
  · rw [ab.resolve, leads]
  · rw [ab.layout, node]
  · refine (ab.content l).imp_right ?_
    rintro ⟨opens,_,rfl,found⟩
    exact ⟨⟨l,leads,opens⟩,found⟩

theorem Tidies.content_of_isTidy (ab : Tidies chains a b) {l : Location} (tidy : IsTidy (a.content l)) :
    b.content l = a.content l := by
  rcases ab.content l with same | ⟨_,chain,_,found⟩
  · exact same
  · rw [tidy.rewritten?_eq_none] at found
    cases found

theorem Tidies.content_of_rewritten? {chain : List Encoding} {l : Location} {bytes old : Bytes}
    (later : Tidies chains (a.setContent l bytes) b) (found : rewritten? chain old = some bytes) :
    b.content l = bytes := by
  have written : (a.setContent l bytes).content l = bytes := by rw [setContent_content, if_pos rfl]
  have tidy : IsTidy ((a.setContent l bytes).content l) := by
    rw [written]
    exact isTidy_of_rewritten? found
  rw [later.content_of_isTidy tidy, written]

theorem Tidies.isTidy_of_ne (ab : Tidies chains a b) {l : Location} (changed : b.content l ≠ a.content l) :
    IsTidy (b.content l) := by
  rcases ab.content l with same | ⟨_,chain,_,found⟩
  · exact absurd same changed
  · exact isTidy_of_rewritten? found

theorem Tidies.trans (ab : Tidies chains a b) (bc : Tidies chains b c) : Tidies chains a c := by
  refine ⟨ab.toSameLayout.trans bc.toSameLayout,fun l => ?_⟩
  by_cases changed : b.content l = a.content l
  · have later := bc.content l
    rwa [changed, ab.layout] at later
  · rw [bc.content_of_isTidy (ab.isTidy_of_ne changed)]
    exact ab.content l

end

theorem simplifyFile_tidies (fs : FileSystem) (p : Path) (chain : List Encoding) (mode : Mode) :
    Tidies {chain} fs (fs.simplifyFile p chain mode).after := by
  have treated := fs.simplifyFile_treated p chain mode
  generalize fs.simplifyFile p chain mode = attempt at treated
  cases treated with
  | simplified read decoded holds writing write =>
    obtain ⟨l,⟨_,opens⟩,rfl,rfl⟩ := opens_of_read_of_write read write
    refine ⟨sameLayout_setContent fs l _,fun x => ?_⟩
    simp only [setContent_content]
    by_cases here : x = l
    · subst here
      rw [if_pos rfl]
      exact .inr ⟨opens,chain,rfl,rewritten?_of_holds decoded holds⟩
    · exact .inl (if_neg here)
  | _ => exact .refl fs

/-- A file about which something fails is left as it is, and so are all others. -/
theorem simplifyFile_after_of_error {fs : FileSystem} {p : Path} {chain : List Encoding} {mode : Mode} {f : Failure}
    (failed : (fs.simplifyFile p chain mode).result = .error f) : (fs.simplifyFile p chain mode).after = fs := by
  have treated := fs.simplifyFile_treated p chain mode
  generalize fs.simplifyFile p chain mode = attempt at treated failed
  cases treated with
  | simplified read decoded holds writing write => cases failed
  | _ => rfl

/-- What comes of a file changes no other file than the one its path leads to. -/
theorem simplifyFile_content {fs : FileSystem} {p : Path} {chain : List Encoding} {mode : Mode} {l : Location}
    (apart : fs.resolve p ≠ .ok l) : (fs.simplifyFile p chain mode).after.content l = fs.content l := by
  have treated := fs.simplifyFile_treated p chain mode
  generalize fs.simplifyFile p chain mode = attempt at treated
  cases treated with
  | simplified read decoded holds writing write =>
    obtain ⟨l',opens,rfl,rfl⟩ := opens_of_read_of_write read write
    have other : l ≠ l' := by
      rintro rfl
      exact apart opens.1
    rw [setContent_content, if_neg other]
  | _ => rfl

/-! ## Runs -/

theorem perform_candidate_after (fs : FileSystem) (chain : List Encoding) (mode : Mode) (p : Path) :
    (fs.perform chain mode (.candidate p)).after = (fs.simplifyFile p chain mode).after := by
  simp only [perform, Step.ofAttempt]
  split <;> rfl

theorem perform_tidies (fs : FileSystem) (chain : List Encoding) (mode : Mode) (v : Visit) :
    Tidies {chain} fs (fs.perform chain mode v).after := by
  cases v with
  | candidate p =>
    rw [perform_candidate_after]
    exact fs.simplifyFile_tidies p chain mode
  | _ => exact .refl fs

theorem perform_content {fs : FileSystem} {chain : List Encoding} {mode : Mode} {v : Visit} {l : Location}
    (apart : ∀ p, v = .candidate p → fs.resolve p ≠ .ok l) : (fs.perform chain mode v).after.content l = fs.content l := by
  cases v with
  | candidate p =>
    rw [perform_candidate_after]
    exact simplifyFile_content (apart p rfl)
  | _ => rfl

theorem afterSteps_cons (fs : FileSystem) (step : Step) (steps : List Step) :
    fs.afterSteps (step :: steps) = step.after.afterSteps steps := by
  simp only [afterSteps, List.getLast?_cons]
  cases steps.getLast? <;> rfl

/-- Each state of a run tidies those before it, from the file system it starts from to the one it leaves. -/
theorem performAll_pairwise (fs : FileSystem) (chain : List Encoding) (mode : Mode) (visits : List Visit) :
    (fs :: ((fs.performAll chain mode visits).map Step.after
      ++ [fs.afterSteps (fs.performAll chain mode visits)])).Pairwise (Tidies {chain}) := by
  induction visits generalizing fs with
  | nil => simpa [performAll, afterSteps] using Tidies.refl fs
  | cons v visits ih =>
    have first := fs.perform_tidies chain mode v
    have later := ih (fs.perform chain mode v).after
    rw [performAll, afterSteps_cons, List.map_cons, List.cons_append, List.pairwise_cons]
    refine ⟨fun state member => ?_,later⟩
    rcases List.mem_cons.1 member with rfl | member
    · exact first
    · exact first.trans (List.rel_of_pairwise_cons later member)

theorem performAll_tidies (fs : FileSystem) (chain : List Encoding) (mode : Mode) (visits : List Visit) :
    Tidies {chain} fs (fs.afterSteps (fs.performAll chain mode visits)) :=
  List.rel_of_pairwise_cons (fs.performAll_pairwise chain mode visits) (by simp)

/-- A run changes no file that none of its candidates leads to. -/
theorem performAll_content {fs : FileSystem} {chain : List Encoding} {mode : Mode} {visits : List Visit} {l : Location}
    (apart : ∀ p, .candidate p ∈ visits → fs.resolve p ≠ .ok l) :
    (fs.afterSteps (fs.performAll chain mode visits)).content l = fs.content l := by
  induction visits generalizing fs with
  | nil => rfl
  | cons v visits ih =>
    have kept := (fs.perform_tidies chain mode v).toSameLayout
    have here : (fs.perform chain mode v).after.content l = fs.content l :=
      perform_content fun p candidate => apart p (by simp [candidate])
    rw [performAll, afterSteps_cons, ih, here]
    intro p member
    rw [kept.resolve]
    exact apart p (List.mem_cons_of_mem _ member)

end FileSystem

/-! ## A disk to try things on -/

namespace Sample

def a : Name := ⟨[0x61, 0x2E, 0x63],by decide⟩

def b : Name := ⟨[0x62, 0x2E, 0x63],by decide⟩

def c : Name := ⟨[0x63, 0x2E, 0x63],by decide⟩

def libs : Name := ⟨[0x6C, 0x69, 0x62, 0x73],by decide⟩

/-- The text `é(void)` in Latin-1. -/
def form : Bytes := [0xE9, 0x28, 0x76, 0x6F, 0x69, 0x64, 0x29]

/-- A link `a.c` to a file `b.c`, a file `c.c` that must not be written, and one in a directory that is left alone. -/
def disk : FileSystem :=
  ⟨⟨.ofList [([a],Node.link ⟨b.bytes⟩), ([b],.file .full), ([c],.file ⟨true,false,false⟩),
    ([libs],.directory .full), ([libs, a],.file .full)]⟩,
    .ofList [([b],form), ([c],form), ([libs, a],form)],.present []⟩

def settings : Settings := .ofRoot ⟨[slash]⟩

def report : Report where
  root := ⟨[slash]⟩
  entries := [.processed (Location.path [a]) (.simplified 1 .latin1), .processed (Location.path [b]) (.unchanged .utf8),
    .failed (Location.path [c]) "i/o error on /c.c: Permission denied (os error 13)",
    .skippedDirectory (Location.path [libs])]

end Sample

end ParamTidy
