import ParamTidy.Encoding
import ParamTidy.Failure

/-!
# Reports

What a walk met, in the order it met it, and the totals drawn from that.
-/

namespace ParamTidy

/-- What became of a file that was read. -/
inductive Outcome where
  | unchanged (encoding : Encoding)
  | simplified (substitutions : Nat) (encoding : Encoding)
  | wouldSimplify (substitutions : Nat) (encoding : Encoding)
  deriving DecidableEq

def Outcome.substitutions : Outcome → Nat
  | unchanged _ => 0
  | simplified n _ | wouldSimplify n _ => n

def Outcome.encoding : Outcome → Encoding
  | unchanged e | simplified _ e | wouldSimplify _ e => e

/-- One thing met on a walk. -/
inductive Entry where
  | skippedDirectory (path : Path)
  | skippedFile (path : Path)
  | processed (path : Path) (outcome : Outcome)
  | failed (path : Path) (message : String)
  deriving DecidableEq

namespace Entry

def path : Entry → Path
  | skippedDirectory p | skippedFile p | processed p _ | failed p _ => p

def outcome? : Entry → Option Outcome
  | processed _ o => some o
  | _ => none

def isFailed : Entry → Bool
  | failed _ _ => true
  | _ => false

end Entry

structure Report where
  root : Path
  entries : List Entry
  deriving DecidableEq

namespace Report

def outcomes (r : Report) : List Outcome := r.entries.filterMap Entry.outcome?

def filesScanned (r : Report) : Nat := r.outcomes.length

/-- How many files were changed, or would be. -/
def filesChanged (r : Report) : Nat := r.outcomes.countP (0 < ·.substitutions)

/-- One more than the largest total, which is kept in 64 bits. -/
def totalLimit : Nat := 0x10000000000000000

/-- How many forms were replaced, or would be, in all files together. -/
def allSubstitutions (r : Report) : Nat := r.outcomes.foldr (fun o total => o.substitutions + total) 0

/-- The total of replaced forms, as it is kept: beyond the limit it starts from zero again. -/
def substitutions (r : Report) : Nat := r.allSubstitutions % totalLimit

/-- Within the limit nothing is lost. -/
theorem substitutions_eq {r : Report} (h : r.allSubstitutions < totalLimit) : r.substitutions = r.allSubstitutions :=
  Nat.mod_eq_of_lt h

def failures (r : Report) : Nat := r.entries.countP Entry.isFailed

end Report

end ParamTidy
