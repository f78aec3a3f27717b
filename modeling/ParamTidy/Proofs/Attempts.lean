import ParamTidy.Proofs.ReportCoverage
import ParamTidy.Proofs.Decoding

/-!
# A dry attempt at a file and a real one

What a dry attempt at a file tells is what a writing attempt at it does (`ToldBy`): nothing is written where nothing is
foreseen, and where something is foreseen the file alone changes, or the attempt fails because the file must not be written and
leaves all as it was (`attempts_agree`).
-/

namespace ParamTidy.FileSystem

/-- One file system came from another by simplifying the file that a path leads to, with `n` forms in what the encoding makes of
it. -/
structure Simplifies (before after : FileSystem) (p : Path) (n : Nat) (e : Encoding) (l : Location) : Prop
    extends SameLayout before after where
  leads : before.resolve p = .ok l
  file : before.layout.isFile l
  elsewhere : ∀ x, x ≠ l → after.content x = before.content x
  formed : Utf8.IsWellFormed (after.content l)
  text : ∃ s, e.decode? (before.content l) = some s ∧ (simplify s).count = n ∧
    Encoding.utf8.decode? (after.content l) = some (simplify s).text

/-- A dry attempt at the file of a path tells what a real one comes to. -/
structure ToldBy (fs : FileSystem) (p : Path) (dry real : Attempt) : Prop where
  leaves : dry.after = fs
  unwritten : ∀ n e, dry.result ≠ .ok (.simplified n e)
  unchanged : ∀ e, dry.result = .ok (.unchanged e) → real = dry
  failing : ∀ f, dry.result = .error f → real = dry
  foreseen : ∀ n e, dry.result = .ok (.wouldSimplify n e) → 1 ≤ n ∧
    (fs.Editable p ∧ real.result = .ok (.simplified n e) ∧ (∃ l, Simplifies fs real.after p n e l) ∨
      ¬ fs.Editable p ∧ real.result = .error (.io p (.system .accessDenied)) ∧ real.after = fs)

section
variable {fs : FileSystem} {p : Path} {l : Location} {chain : List Encoding}

theorem simplifies_setContent {s : Text} {e : Encoding} (leads : fs.resolve p = .ok l) (file : fs.layout.isFile l)
    (read : e.decode? (fs.content l) = some s) :
    Simplifies fs (fs.setContent l (Utf8.encode (simplify s).text)) p (simplify s).count e l where
  toSameLayout := sameLayout_setContent fs l _
  leads := leads
  file := file
  elsewhere := by
    intro x other
    rw [setContent_content, if_neg other]
  formed := by
    rw [setContent_content, if_pos rfl]
    exact Utf8.isWellFormed_iff.2 ⟨_,rfl⟩
  text := by
    rw [setContent_content, if_pos rfl]
    exact ⟨s,read,rfl,Utf8.decode?_encode _⟩

theorem write_of_not_editable (locked : ¬ fs.Editable p) (bytes : Bytes) : fs.write p bytes = .error .accessDenied := by
  simp only [Editable, not_forall] at locked
  obtain ⟨l,access,leads,node,_,readOnly⟩ := locked
  simp [write, openFile_of_file leads node, readOnly, Except.map]

theorem ToldBy.of_same {a : Attempt} (leaves : a.after = fs) (unwritten : ∀ n e, a.result ≠ .ok (.simplified n e))
    (quiet : ∀ n e, a.result ≠ .ok (.wouldSimplify n e)) : ToldBy fs p a a where
  leaves := leaves
  unwritten := unwritten
  unchanged := fun _ _ => rfl
  failing := fun _ _ => rfl
  foreseen := fun n e foreseen => absurd foreseen (quiet n e)

/-- What is foreseen of a file happens if it may be written, and else the attempt fails. -/
theorem toldBy_of_holds {bytes : Bytes} {reading : Encoding.Reading} (read : fs.read p = .ok bytes)
    (decoded : Encoding.read? chain bytes = some reading) (holds : HoldsForm reading.text) :
    ToldBy fs p (fs.simplifyFile p chain .dryRun) (fs.simplifyFile p chain .write) := by
  have dry : Treated fs p chain .dryRun _ := .foreseen read decoded holds rfl
  rw [treated_iff.1 dry]
  refine ⟨rfl,nofun,nofun,nofun,?_⟩
  rintro n e foreseen
  cases foreseen
  refine ⟨of_decide_eq_true (simplify_changed_iff.2 holds),?_⟩
  by_cases editable : fs.Editable p
  · obtain ⟨l,opens,rfl⟩ := editable.opens read
    have real : Treated fs p chain .write _ := .simplified read decoded holds rfl (opens.write _)
    obtain ⟨_,_,_,_,decodes⟩ := Encoding.read?_eq_some_iff.1 decoded
    rw [treated_iff.1 real]
    exact .inl ⟨editable,rfl,l,simplifies_setContent opens.1 opens.isFile decodes⟩
  · have real : Treated fs p chain .write _ := .unwritable read decoded holds rfl (write_of_not_editable editable _)
    rw [treated_iff.1 real]
    exact .inr ⟨editable,rfl,rfl⟩

theorem toldBy_attempts (fs : FileSystem) (p : Path) (chain : List Encoding) :
    ToldBy fs p (fs.simplifyFile p chain .dryRun) (fs.simplifyFile p chain .write) := by
  have treated := fs.simplifyFile_treated p chain .dryRun
  generalize dry : fs.simplifyFile p chain .dryRun = attempt at treated
  cases treated with
  | unreadable read =>
    have real : Treated fs p chain .write _ := .unreadable read
    rw [treated_iff.1 real]
    exact .of_same rfl nofun nofun
  | undecodable read decoded =>
    have real : Treated fs p chain .write _ := .undecodable read decoded
    rw [treated_iff.1 real]
    exact .of_same rfl nofun nofun
  | unchanged read decoded free =>
    have real : Treated fs p chain .write _ := .unchanged read decoded free
    rw [treated_iff.1 real]
    exact .of_same rfl nofun nofun
  | foreseen read decoded holds _ => exact dry ▸ toldBy_of_holds read decoded holds
  | unwritable _ _ _ writing _ => cases writing
  | simplified _ _ _ writing _ => cases writing

theorem simplifyFile_undecodable_iff {mode : Mode} : (fs.simplifyFile p chain mode).result = .error (.undecodable p) ↔
    ∃ bytes, fs.read p = .ok bytes ∧ ∀ e ∈ chain, e.decode? bytes = none := by
  constructor
  · intro failed
    have treated := fs.simplifyFile_treated p chain mode
    generalize fs.simplifyFile p chain mode = attempt at treated failed
    cases treated with
    | undecodable read decoded => exact ⟨_,read,Encoding.read?_eq_none_iff.1 decoded⟩
    | _ => cases failed
  · rintro ⟨bytes,read,refused⟩
    have treated : Treated fs p chain mode _ := .undecodable read (Encoding.read?_eq_none_iff.2 refused)
    rw [treated_iff.1 treated]

end

/-- Whatever a path leads to, a dry attempt at it leaves the disk as it is and tells what a writing one comes to. Either fails
only for the disk or because the file cannot be decoded, and for the latter exactly if the file can be read and no encoding of
the chain accepts it. -/
theorem attempts_agree (fs : FileSystem) (p : Path) (chain : List Encoding) :
    ToldBy fs p (fs.simplifyFile p chain .dryRun) (fs.simplifyFile p chain .write) ∧
    (∀ mode f, (fs.simplifyFile p chain mode).result = .error f → (∃ c, f = .io p c) ∨ f = .undecodable p) ∧
    ∀ mode, (fs.simplifyFile p chain mode).result = .error (.undecodable p) ↔
      ∃ bytes, fs.read p = .ok bytes ∧ ∀ e ∈ chain, e.decode? bytes = none := by
  refine ⟨toldBy_attempts fs p chain,?_,?_⟩
  · intro mode f failed
    exact simplifyFile_error failed
  · intro mode
    exact simplifyFile_undecodable_iff

end ParamTidy.FileSystem
