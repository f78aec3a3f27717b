import ParamTidy.Proofs.ReportCoverage
import ParamTidy.Proofs.Locating

/-!
# Whether a walk begins

Either something about its root bars a walk or the walk begins (`begins_or_barred`). A barred walk fails for that reason before
it does or logs anything, and one that has begun cannot fail any more, whatever it meets below its root (`walk_fails_iff`).
-/

namespace ParamTidy

theorem Root.path_nil (r : Root) : r.path [] = r.names.path := by rw [path, List.append_nil]

namespace FileSystem

/-- What bars a walk: its root is relative to a directory that is gone, leads nowhere, is no directory, or cannot be listed and
is not left alone for its name either. -/
inductive Bars (fs : FileSystem) (root : Path) (skip : SkipSet) : Failure → Prop
  | adrift {above : Location} {gone : List Access} (relative : ¬ root.isAbsolute) (removed : fs.cwd = .removed above gone) :
      Bars fs root skip (.environment root (.system .notFound))
  | missing {names : Location} {e : SystemError} (located : fs.locate root = .ok names)
      (nowhere : fs.resolve names.path = .error e) : Bars fs root skip (.environment names.path (.system e))
  | notDirectory {names l : Location} (located : fs.locate root = .ok names) (leads : fs.resolve names.path = .ok l)
      (other : ¬ fs.layout.isDirectory l) : Bars fs root skip (.environment names.path .rootNotDirectory)
  | unlistable {r : Root} {e : SystemError} (located : fs.locate root = .ok r.names)
      (leads : fs.resolve r.names.path = .ok r.base) (directory : fs.layout.isDirectory r.base)
      (linked : r.linked = fs.namesLink r.names.path) (kept : ¬ r.LeavesAlone skip [])
      (refused : fs.listingError? r.names.path = some e) :
      Bars fs root skip (.environment r.names.path (.unlistable r.names.path e))

theorem Bars.isFatal {fs : FileSystem} {root : Path} {skip : SkipSet} {f : Failure} (bars : fs.Bars root skip f) :
    f.isFatal := by
  cases bars <;> rfl

theorem simplifyFile_error_not_isFatal {fs : FileSystem} {p : Path} {chain : List Encoding} {mode : Mode} {f : Failure}
    (failed : (fs.simplifyFile p chain mode).result = .error f) : ¬ f.isFatal := by
  rcases simplifyFile_error failed with ⟨c,rfl⟩ | rfl <;> simp [Failure.isFatal]

theorem walk_eq_of_bars {fs : FileSystem} {s : Settings} {f : Failure} (bars : fs.Bars s.root s.skip f) :
    fs.walk s = .ofFailure fs f := by
  cases bars with
  | adrift relative removed =>
    have lost : fs.locate s.root = .error .notFound := locate_eq_error_iff.2 ⟨relative,⟨_,_,removed⟩,rfl⟩
    simp [walk, findRoot, lost]
  | missing located nowhere => simp [walk, findRoot, located, nowhere]
  | notDirectory located leads other => simp [walk, findRoot, located, leads, other]
  | @unlistable r e located leads directory linked kept refused =>
    have found : fs.findRoot s.root = .ok r := findRoot_eq_ok_iff.2 ⟨located,leads,directory,linked⟩
    have unpruned : ¬ r.prunes s.skip [] := fun left => kept (Root.prunes_iff.1 left)
    rw [← r.path_nil] at refused ⊢
    exact walk_eq_of_refused found unpruned refused

theorem bars_of_refused {fs : FileSystem} {root : Path} {skip : SkipSet} {r : Root} {e : SystemError}
    (found : fs.findRoot root = .ok r) (kept : ¬ r.prunes skip []) (refused : fs.listingError? (r.path []) = some e) :
    fs.Bars root skip (.environment (r.path []) (.unlistable (r.path []) e)) := by
  obtain ⟨located,leads,directory,linked⟩ := findRoot_eq_ok_iff.1 found
  rw [r.path_nil] at refused ⊢
  exact .unlistable located leads directory linked (fun left => kept (Root.prunes_iff.2 left)) refused

theorem begins_or_barred (fs : FileSystem) (root : Path) (skip : SkipSet) :
    (∃ r, fs.findRoot root = .ok r ∧ (r.prunes skip [] ∨ fs.listingError? (r.path []) = none)) ∨
      ∃ f, fs.Bars root skip f := by
  cases located : fs.locate root with
  | error e =>
    obtain ⟨relative,⟨_,_,removed⟩,_⟩ := locate_eq_error_iff.1 located
    exact .inr ⟨_,.adrift relative removed⟩
  | ok names =>
    cases leads : fs.resolve names.path with
    | error e => exact .inr ⟨_,.missing located leads⟩
    | ok base =>
      by_cases directory : fs.layout.isDirectory base
      · let r : Root := ⟨names,base,fs.namesLink names.path⟩
        have found : fs.findRoot root = .ok r := findRoot_eq_ok_iff.2 ⟨located,leads,directory,rfl⟩
        by_cases kept : r.prunes skip []
        · exact .inl ⟨r,found,.inl kept⟩
        · cases refused : fs.listingError? (r.path []) with
          | none => exact .inl ⟨r,found,.inr refused⟩
          | some e => exact .inr ⟨_,bars_of_refused found kept refused⟩
      · exact .inr ⟨_,.notDirectory located leads directory⟩

end FileSystem

/-- A walk fails exactly if something bars it, and so for its root alone: with a fatal failure, the disk as it was and nothing
logged. In whatever round a walk stops, it is for that reason and before its first step. Any other walk succeeds with an entry
for each of its visits, whatever fails at them; and what fails about a single file is never fatal. -/
theorem walk_fails_iff (fs : FileSystem) (s : Settings) :
    (∀ f, (fs.walk s).result = .error f ↔ fs.Bars s.root s.skip f) ∧
      (∀ f, (fs.walk s).result = .error f → f.isFatal ∧ (fs.walk s).after = fs ∧ (fs.walk s).log = []) ∧
      (∀ r w f, fs.findRoot s.root = .ok r → Relation.ReflTransGen (Underway.Follows r s) (.ofStart fs) w →
        w.round r s = .stopped f → fs.Bars s.root s.skip f ∧ w.steps = [] ∧ w.now = fs) ∧
      ((∀ f, ¬ fs.Bars s.root s.skip f) → ∃ r report, fs.findRoot s.root = .ok r ∧
        (fs.walk s).result = .ok report ∧ report.entries.length = (r.visits fs s.skip).length) ∧
      ∀ p chain mode f, (fs.simplifyFile p chain mode).result = .error f → ¬ f.isFatal := by
  have fails (f : Failure) : (fs.walk s).result = .error f ↔ fs.Bars s.root s.skip f := by
    constructor
    · intro failed
      rcases fs.begins_or_barred s.root s.skip with ⟨r,found,begun⟩ | ⟨g,bars⟩
      · rw [FileSystem.walk_eq_of_findRoot found begun] at failed
        cases failed
      · rw [FileSystem.walk_eq_of_bars bars] at failed
        cases failed
        exact bars
    · intro bars
      rw [FileSystem.walk_eq_of_bars bars]
      rfl
  refine ⟨fails,?_,?_,?_,?_⟩
  · intro f failed
    have bars := (fails f).1 failed
    rw [FileSystem.walk_eq_of_bars bars]
    exact ⟨bars.isFatal,rfl,rfl⟩
  · intro r w f found reached stopped
    obtain ⟨⟨e,kept,refused,rfl⟩,unmoved⟩ := (Underway.stage_of_reached found reached).of_stopped found stopped
    exact ⟨FileSystem.bars_of_refused found kept refused,unmoved⟩
  · intro free
    obtain ⟨r,found,begun⟩ := (fs.begins_or_barred s.root s.skip).resolve_right fun ⟨f,bars⟩ => free f bars
    rw [FileSystem.walk_eq_of_findRoot found begun]
    exact ⟨r,_,found,rfl,by rw [List.length_map, FileSystem.length_performAll]⟩
  · intro p chain mode f failed
    exact FileSystem.simplifyFile_error_not_isFatal failed

end ParamTidy
