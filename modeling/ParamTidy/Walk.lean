import ParamTidy.Walk.Settings
import ParamTidy.Walk.Traversal

/-!
# Walking a tree

A walk takes rounds: each takes the next item of a traversal and does what the item calls for, until the traversal has no more
to hand out or its root turns out not to be listable. The rounds give the report, the log and the simplified files.
-/

namespace ParamTidy

/-! ## Steps -/

/-- One visit carried out: its entry in the report, its log, and the file system after it. -/
structure Step where
  entry : Entry
  log : List LogLine
  after : FileSystem

/-- A failure is told in the log and in the report. -/
def Step.ofFailure (f : Failure) (log : List LogLine) (after : FileSystem) : Step :=
  ⟨.failed f.path f.message,log ++ [.warning f.message],after⟩

def Step.ofAttempt (p : Path) (a : Attempt) : Step :=
  match a.result with
  | .ok outcome => ⟨.processed p outcome,a.log,a.after⟩
  | .error f => .ofFailure f a.log a.after

def FileSystem.perform (fs : FileSystem) (chain : List Encoding) (mode : Mode) : Visit → Step
  | .pruned p => ⟨.skippedDirectory p,[.skippingDirectory p],fs⟩
  | .unlistable p e => .ofFailure (.untraversable p (.unlistable p e)) [] fs
  | .excluded p => ⟨.skippedFile p,[.skippingFile p],fs⟩
  | .candidate p => .ofAttempt p (fs.simplifyFile p chain mode)

def FileSystem.performAll (fs : FileSystem) (chain : List Encoding) (mode : Mode) : List Visit → List Step
  | [] => []
  | v :: visits =>
    let step := fs.perform chain mode v
    step :: step.after.performAll chain mode visits

def FileSystem.afterSteps (fs : FileSystem) (steps : List Step) : FileSystem :=
  (steps.getLast?.map Step.after).getD fs

theorem FileSystem.length_performAll (fs : FileSystem) (chain : List Encoding) (mode : Mode) (visits : List Visit) :
    (fs.performAll chain mode visits).length = visits.length := by
  induction visits generalizing fs with
  | nil => rfl
  | cons v visits ih => simp [performAll, ih]

/-! ## Rounds -/

structure Walk where
  result : Except Failure Report
  log : List LogLine
  after : FileSystem

namespace Walk

def ofFailure (fs : FileSystem) (f : Failure) : Walk := ⟨.error f,[],fs⟩

def ofSteps (fs : FileSystem) (root : Path) (steps : List Step) : Walk :=
  let report : Report := ⟨root,steps.map Step.entry⟩
  ⟨.ok report,steps.flatMap Step.log ++ [.ofReport report],fs.afterSteps steps⟩

end Walk

/-- A walk between two rounds: what is still to be handed out, its steps so far, the last one first, and the file system as they
have left it. -/
structure Underway where
  rest : Traversal
  steps : List Step
  now : FileSystem

/-- What becomes of a walk in one round. -/
inductive Round where
  | ended
  | stopped (f : Failure)
  | onward (w : Underway)

namespace Underway

variable (r : Root) (s : Settings)

def ofStart (fs : FileSystem) : Underway := ⟨.ready,[],fs⟩

/-- Goes on with what is left of a traversal after a visit, if there is one. -/
def goOn (w : Underway) (rest : Traversal) : Option Visit → Underway
  | none => ⟨rest,w.steps,w.now⟩
  | some v =>
    let step := w.now.perform s.encodings s.mode v
    ⟨rest,step :: w.steps,step.after⟩

/-- One round. Any refusal is told and leads on, but for that of the root, before which no directory was open. -/
def round (w : Underway) : Round :=
  match w.rest.next r w.now with
  | none => .ended
  | some (.refusal rel e 0,_) => .stopped (.environment (r.path []) (.unlistable (r.path rel) e))
  | some (.refusal rel e (_ + 1),rest) => .onward (w.goOn s rest (some (.unlistable (r.path rel) e)))
  | some (.entry rel .directory,rest) =>
    if s.skip.skipsDir (r.lastName rel) then .onward (w.goOn s rest.leave (some (.pruned (r.path rel))))
    else .onward (w.goOn s rest none)
  | some (.entry rel .file,rest) => .onward (w.goOn s rest (r.visitFile? s.skip rel))
  | some (.entry rel .link,rest) =>
    .onward (w.goOn s rest (if w.now.leadsToFile (r.path rel) then r.visitFile? s.skip rel else none))

def log (w : Underway) : List LogLine := w.steps.reverse.flatMap Step.log

def finish (w : Underway) (root : Path) : Walk :=
  let report : Report := ⟨root,w.steps.reverse.map Step.entry⟩
  ⟨.ok report,w.log ++ [.ofReport report],w.now⟩

end Underway

theorem FileSystem.perform_layout (fs : FileSystem) (chain : List Encoding) (mode : Mode) (v : Visit) :
    (fs.perform chain mode v).after.layout = fs.layout := by
  cases v with
  | candidate p =>
    have kept := fs.simplifyFile_layout p chain mode
    simp only [perform, Step.ofAttempt]
    split <;> exact kept
  | _ => rfl

namespace Underway

variable {r : Root} {s : Settings} {w w' : Underway}

theorem weight_goOn (rest : Traversal) (v? : Option Visit) :
    (w.goOn s rest v?).rest.weight r (w.goOn s rest v?).now.layout = rest.weight r w.now.layout := by
  cases v? with
  | none => rfl
  | some v => rw [goOn, FileSystem.perform_layout]

/-- With each round less is left to come. -/
theorem weight_round (onward : w.round r s = .onward w') :
    w'.rest.weight r w'.now.layout < w.rest.weight r w.now.layout := by
  unfold round at onward
  split at onward
  · cases onward
  · cases onward
  · next given =>
    cases onward
    rw [weight_goOn]
    exact Traversal.weight_next given
  · next rel rest given =>
    split at onward
    · cases onward
      rw [weight_goOn]
      exact Nat.lt_of_le_of_lt (rest.weight_leave r _) (Traversal.weight_next given)
    · cases onward
      rw [weight_goOn]
      exact Traversal.weight_next given
  · next given =>
    cases onward
    rw [weight_goOn]
    exact Traversal.weight_next given
  · next given =>
    cases onward
    rw [weight_goOn]
    exact Traversal.weight_next given

def run (r : Root) (s : Settings) (w : Underway) : Walk :=
  match _ : w.round r s with
  | .ended => w.finish (r.path [])
  | .stopped f => ⟨.error f,w.log,w.now⟩
  | .onward w' => w'.run r s
termination_by w.rest.weight r w.now.layout
decreasing_by exact weight_round ‹_›

end Underway

/-- Walks a tree, if there is a directory to start from. -/
def FileSystem.walk (fs : FileSystem) (s : Settings) : Walk :=
  match fs.findRoot s.root with
  | .error f => .ofFailure fs f
  | .ok r => (Underway.ofStart fs).run r s

end ParamTidy
