import ParamTidy.Text.CaseContext
import ParamTidy.Text.CaseMap

/-!
# Lower-casing a text

Each character goes to its own lower-case form, whatever stands about it, but for the capital sigma: at the end of a word it is
a final sigma.
-/

namespace ParamTidy

/-- Whether the first character with bearing on case is a letter with case. -/
def meetsCased (s : Text) : Bool := (s.dropWhile isCaseIgnorable).head?.any isCased

/-- Whether a letter ends its word: one with case comes before it, none after it. The characters before it are given from the
nearest on. -/
def endsWord (before after : Text) : Bool := meetsCased before && !meetsCased after

def lowerBetween (before : Text) (c : Char) (after : Text) : Text :=
  if c = 'Σ' then [if endsWord before after then 'ς' else 'σ'] else lowerChar c

/-- The lower-case form of what comes after the characters of `before`, the nearest first. -/
def lowercaseAfter (before : Text) : Text → Text
  | [] => []
  | c :: s => lowerBetween before c s ++ lowercaseAfter (c :: before) s

def lowercase (s : Text) : Text := lowercaseAfter [] s

theorem lowercaseAfter_cons (before : Text) (c : Char) (s : Text) :
    lowercaseAfter before (c :: s) = lowerBetween before c s ++ lowercaseAfter (c :: before) s := rfl

end ParamTidy
