import ParamTidy.ParameterList.Form

/-!
# Empty parameter lists

`simplify` writes every form as `()` and counts them; a bare `()` is no form.
-/

namespace ParamTidy

/-- A simplified text and the number of forms that were replaced in it. -/
structure Simplified where
  text : Text
  count : Nat
  deriving DecidableEq, Repr

def Simplified.keep (c : Char) (s : Simplified) : Simplified := ⟨c :: s.text,s.count⟩

def Simplified.replace (s : Simplified) : Simplified := ⟨'(' :: ')' :: s.text,s.count + 1⟩

def Simplified.changed (s : Simplified) : Bool := 0 < s.count

/-- Replaces the forms from left to right, each whole before the next is looked for; `done` is what has been written so far,
last character first. -/
def simplifyOnto (done : Text) (count : Nat) : Text → Simplified
  | [] => ⟨done.reverse,count⟩
  | c :: s =>
    if c = '(' then
      match _form : afterForm? s with
      | some rest => simplifyOnto (')' :: '(' :: done) (count + 1) rest
      | none => simplifyOnto (c :: done) count s
    else simplifyOnto (c :: done) count s
termination_by s => s.length
decreasing_by
  · simp only [List.length_cons]
    exact Nat.lt_succ_of_lt (afterForm?_length _form)
  · simp
  · simp

/-- The text with every form written as `()`, and their number. -/
def simplify (s : Text) : Simplified := simplifyOnto [] 0 s

theorem simplifyOnto_nil (done : Text) (count : Nat) : simplifyOnto done count [] = ⟨done.reverse,count⟩ := by
  rw [simplifyOnto]

theorem simplifyOnto_form {s rest : Text} (h : afterForm? s = some rest) (done : Text) (count : Nat) :
    simplifyOnto done count ('(' :: s) = simplifyOnto (')' :: '(' :: done) (count + 1) rest := by
  rw [simplifyOnto, if_pos rfl]
  split <;> simp_all

theorem simplifyOnto_open {s : Text} (h : afterForm? s = none) (done : Text) (count : Nat) :
    simplifyOnto done count ('(' :: s) = simplifyOnto ('(' :: done) count s := by
  rw [simplifyOnto, if_pos rfl]
  split <;> simp_all

theorem simplifyOnto_other {c : Char} (h : c ≠ '(') (s done : Text) (count : Nat) :
    simplifyOnto done count (c :: s) = simplifyOnto (c :: done) count s := by
  rw [simplifyOnto, if_neg h]

/-- What has been written stays in front of what is still to come. -/
theorem simplifyOnto_eq (done : Text) (count : Nat) (s : Text) :
    simplifyOnto done count s = ⟨done.reverse ++ (simplify s).text,count + (simplify s).count⟩ := by
  unfold simplify
  induction n : s.length using Nat.strongRecOn generalizing s done count with
  | ind n ih =>
    subst n
    cases s with
    | nil => simp [simplifyOnto_nil]
    | cons c s =>
      have shorter : s.length < (c :: s).length := by simp
      by_cases hc : c = '('
      · subst hc
        cases h : afterForm? s with
        | some rest =>
          have shorter := Nat.lt_trans (afterForm?_length h) shorter
          rw [simplifyOnto_form h, simplifyOnto_form h, ih _ shorter _ _ _ rfl,
            ih _ shorter [')', '('] (0 + 1) _ rfl]
          simp; omega
        | none =>
          rw [simplifyOnto_open h, simplifyOnto_open h, ih _ shorter _ _ _ rfl, ih _ shorter ['('] 0 _ rfl]
          simp
      · rw [simplifyOnto_other hc, simplifyOnto_other hc, ih _ shorter _ _ _ rfl, ih _ shorter [c] 0 _ rfl]
        simp

@[simp] theorem simplify_nil : simplify [] = ⟨[],0⟩ := simplifyOnto_nil [] 0

theorem simplify_form {s rest : Text} (h : afterForm? s = some rest) :
    simplify ('(' :: s) = (simplify rest).replace := by
  rw [simplify, simplifyOnto_form h, simplifyOnto_eq]
  simp [Simplified.replace, Nat.add_comm]

theorem simplify_open {s : Text} (h : afterForm? s = none) : simplify ('(' :: s) = (simplify s).keep '(' := by
  rw [simplify, simplifyOnto_open h, simplifyOnto_eq]
  simp [Simplified.keep]

theorem simplify_other {c : Char} {s : Text} (h : c ≠ '(') : simplify (c :: s) = (simplify s).keep c := by
  rw [simplify, simplifyOnto_other h, simplifyOnto_eq]
  simp [Simplified.keep]

end ParamTidy
