import ParamTidy.Proofs.Rounds

/-!
# Histories

However often a disk is walked and its files are simplified one by one, under whatever settings, the bytes of each file change
at most once, and every later call finds the file in order: each state tidies all before it (`history_pairwise`).
-/

namespace ParamTidy

/-- A call, each with settings of its own. -/
inductive Call where
  | walk (s : Settings)
  | simplify (p : Path) (chain : List Encoding) (mode : Mode)

/-- How often an element of a list differs from the one before it. -/
def changes {α : Type} [DecidableEq α] : List α → Nat
  | a :: b :: rest => (if a = b then 0 else 1) + changes (b :: rest)
  | _ => 0

namespace FileSystem

/-- The steps of a walk that succeeds; one that fails has none. -/
def walkSteps (fs : FileSystem) (s : Settings) : List Step :=
  match (fs.walk s).result, fs.findRoot s.root with
  | .ok _, .ok r => fs.performAll s.encodings s.mode (r.visits fs s.skip)
  | _, _ => []

def afterCall (fs : FileSystem) : Call → FileSystem
  | .walk s => (fs.walk s).after
  | .simplify p chain mode => (fs.simplifyFile p chain mode).after

/-- The file systems in the course of a call, one after each file. -/
def duringCall (fs : FileSystem) : Call → List FileSystem
  | .walk s => (fs.walkSteps s).map Step.after
  | .simplify _ _ _ => []

/-- All file systems in the course of some calls, the first one included. -/
def history (fs : FileSystem) : List Call → List FileSystem
  | [] => [fs]
  | call :: calls => fs :: fs.duringCall call ++ (fs.afterCall call).history calls

theorem call_pairwise (fs : FileSystem) (call : Call) :
    (fs :: (fs.duringCall call ++ [fs.afterCall call])).Pairwise (Tidies Set.univ) := by
  cases call with
  | walk s =>
    cases ended : (fs.walk s).result with
    | error f =>
      simp only [duringCall, afterCall, walkSteps, walk_eq_of_error ended]
      simpa [Walk.ofFailure] using Tidies.refl fs
    | ok report =>
      obtain ⟨r,found,_,walked,_⟩ := walk_eq_of_ok ended
      have run := fs.performAll_pairwise s.encodings s.mode (r.visits fs s.skip)
      simp only [duringCall, afterCall, walkSteps, ended, found]
      rw [walked, Walk.ofSteps]
      exact run.imp (Tidies.mono (Set.subset_univ _))
  | simplify p chain mode =>
    have step := (fs.simplifyFile_tidies p chain mode).mono (Set.subset_univ _)
    simpa [duringCall, afterCall] using step

theorem history_pairwise (fs : FileSystem) (calls : List Call) : (fs.history calls).Pairwise (Tidies Set.univ) := by
  induction calls generalizing fs with
  | nil => simp [history]
  | cons call calls ih =>
    have course := fs.call_pairwise call
    have later := ih (fs.afterCall call)
    rw [← List.cons_append, List.pairwise_append] at course
    rw [history, List.pairwise_append]
    refine ⟨course.1,later,fun before member after member' => ?_⟩
    have left := course.2.2 before member (fs.afterCall call) (by simp)
    refine left.trans ?_
    cases calls with
    | nil =>
      rw [history, List.mem_singleton] at member'
      exact member' ▸ .refl _
    | cons call' calls =>
      rw [history, List.cons_append] at later member'
      rcases List.mem_cons.1 member' with rfl | member'
      · exact .refl _
      · exact List.rel_of_pairwise_cons later member'

end FileSystem

theorem changes_eq_zero {α : Type} [DecidableEq α] {a : α} {rest : List α} (same : ∀ x ∈ rest, x = a) :
    changes (a :: rest) = 0 := by
  induction rest with
  | nil => rfl
  | cons b rest ih =>
    obtain rfl : b = a := same b (by simp)
    simp [changes, ih fun x member => same x (List.mem_cons_of_mem _ member)]

/-- What changes only into what stays changes once. -/
theorem changes_le_one {α : Type} [DecidableEq α] (stays : α → Prop) {trace : List α}
    (settles : trace.Pairwise fun a b => b = a ∨ ¬ stays a ∧ stays b) : changes trace ≤ 1 := by
  induction trace with
  | nil => simp [changes]
  | cons a rest ih =>
    have later := List.pairwise_cons.1 settles
    cases rest with
    | nil => simp [changes]
    | cons b rest =>
      by_cases same : a = b
      · simpa [changes, same] using ih later.2
      · have settled := (later.1 b (by simp)).resolve_left (Ne.symm same)
        have rest_same : ∀ x ∈ rest, x = b := by
          intro x member
          rcases (List.pairwise_cons.1 later.2).1 x member with same | ⟨restless,_⟩
          · exact same
          · exact absurd settled.2 restless
        simp [changes, same, changes_eq_zero rest_same]

/-- In the course of any calls, walks and single files in whatever order, each with settings of its own, the bytes of a file
change at most once. Once they have changed, every call for a path that leads to the file finds it unchanged in the first
encoding of the chain, logs nothing and writes nothing. -/
theorem content_changes_at_most_once (fs : FileSystem) (calls : List Call) (l : Location) :
    changes ((fs.history calls).map (·.content l)) ≤ 1 ∧
      (fs.history calls).Pairwise fun before after => after.content l ≠ before.content l →
        ∀ p e chain mode, after.resolve p = .ok l →
          after.simplifyFile p (e :: chain) mode = ⟨.ok (.unchanged e),[],after⟩ := by
  have course := fs.history_pairwise calls
  constructor
  · refine changes_le_one IsTidy (List.pairwise_map.2 (course.imp fun tidies => ?_))
    rcases tidies.content l with same | ⟨_,chain,_,written⟩
    · exact .inl same
    · refine .inr ⟨fun tidy => ?_,isTidy_of_rewritten? written⟩
      rw [tidy.rewritten?_eq_none] at written
      cases written
  · refine course.imp fun {before after} tidies changed p e chain mode leads => ?_
    rcases tidies.content l with same | ⟨⟨access,node,readable,_⟩,_⟩
    · exact absurd same changed
    · have read : after.read p = .ok (after.content l) :=
        FileSystem.read_eq_ok_iff.2 ⟨l,access,leads,tidies.layout ▸ node,readable,rfl⟩
      exact FileSystem.simplifyFile_of_isTidy read (tidies.isTidy_of_ne changed) e chain mode

end ParamTidy
