import Mathlib.Tactic.TFAE
import ParamTidy.Proofs.Seams

/-!
# One form at a time

To replace one form, wherever it stands, takes one from the count of a text and nothing from what it is simplified to
(`simplify_of_rewrites`). So the forms may be replaced in any order: it takes the same number of steps and ends in the same
text (`simplify_confluent`). That text holds no form, and only a text that holds none is left as it is
(`simplify_normal_form`).
-/

namespace ParamTidy

theorem simplify_text_length (s : Text) : (simplify s).text.length + (simplify s).count ≤ s.length := by
  induction s using simplify_induction with
  | nil => simp
  | form s rest read ih =>
    obtain ⟨inside,isInside,rfl⟩ := afterForm?_eq_some_iff.1 read
    have := List.length_pos_iff.2 isInside.ne_nil
    simp only [simplify_form read, Simplified.replace, List.length_cons, List.length_append]
    omega
  | opening s read ih =>
    simp only [simplify_open read, Simplified.keep, List.length_cons]
    omega
  | other c s paren ih =>
    simp only [simplify_other paren, Simplified.keep, List.length_cons]
    omega

theorem simplify_text_of_count {s : Text} (none : (simplify s).count = 0) : (simplify s).text = s := by
  induction s using simplify_induction with
  | nil => simp
  | form s rest read ih => simp [simplify_form read, Simplified.replace] at none
  | opening s read ih =>
    rw [simplify_open read] at none ⊢
    exact congrArg ('(' :: ·) (ih none)
  | other c s paren ih =>
    rw [simplify_other paren] at none ⊢
    exact congrArg (c :: ·) (ih none)

theorem simplify_text_eq_iff {s : Text} : (simplify s).text = s ↔ (simplify s).count = 0 := by
  constructor
  · intro same
    have := simplify_text_length s
    rw [same] at this
    omega
  · exact simplify_text_of_count

theorem simplify_eq_of_formFree {s : Text} (free : ¬ HoldsForm s) : simplify s = ⟨s,0⟩ := by
  have none := simplify_count_eq_zero_iff.2 free
  cases h : simplify s with
  | mk text count =>
    have same := simplify_text_of_count none
    rw [h] at none same
    rw [show count = 0 from none, show text = s from same]

/-- What comes out holds no form, and to simplify it again changes and counts nothing. Nothing is counted, nothing is changed
and no form is held in the same texts. -/
theorem simplify_normal_form (s : Text) :
    ¬ HoldsForm (simplify s).text ∧ simplify (simplify s).text = ⟨(simplify s).text,0⟩ ∧
      [(simplify s).count = 0, (simplify s).text = s, ¬ HoldsForm s].TFAE := by
  have free := simplify_text_formFree s
  refine ⟨free,simplify_eq_of_formFree free,?_⟩
  tfae_have 1 ↔ 2 := simplify_text_eq_iff.symm
  tfae_have 1 ↔ 3 := simplify_count_eq_zero_iff
  tfae_finish

/-- One form, wherever it stands in a text, is written as `()`. -/
inductive Rewrites : Text → Text → Prop
  | form (before : Text) {f : Text} (isForm : IsForm f) (after : Text) :
      Rewrites (before ++ f ++ after) (before ++ ['(',')'] ++ after)

/-- Some single steps, one after the other. -/
inductive RewritesIn : (steps : Nat) → Text → Text → Prop
  | none (s : Text) : RewritesIn 0 s s
  | next {steps : Nat} {s t u : Text} (first : Rewrites s t) (others : RewritesIn steps t u) : RewritesIn (steps + 1) s u

/-- A step takes one from the count and nothing from the outcome. -/
theorem simplify_of_rewrites {s t : Text} (step : Rewrites s t) :
    (simplify t).text = (simplify s).text ∧ (simplify t).count + 1 = (simplify s).count := by
  obtain ⟨before,isForm,after⟩ := step
  rw [simplify_append_form isForm, simplify_append_bare]
  constructor
  · rfl
  · simp [Simplified.keep, Simplified.replace, Nat.add_assoc]

theorem exists_rewrites_iff {s : Text} : (∃ t, Rewrites s t) ↔ HoldsForm s := by
  constructor
  · rintro ⟨_,before,isForm,after⟩
    exact ⟨_,isForm,before,after,rfl⟩
  · rintro ⟨f,isForm,before,after,rfl⟩
    exact ⟨_,.form before isForm after⟩

theorem simplify_of_rewritesIn {n : Nat} {s t : Text} (steps : RewritesIn n s t) :
    (simplify t).text = (simplify s).text ∧ (simplify t).count + n = (simplify s).count := by
  induction steps with
  | none s => exact ⟨rfl,rfl⟩
  | next first _ ih =>
    obtain ⟨text,count⟩ := simplify_of_rewrites first
    exact ⟨ih.1.trans text,by omega⟩

theorem rewritesIn_simplify (s : Text) : RewritesIn (simplify s).count s (simplify s).text := by
  induction n : (simplify s).count generalizing s with
  | zero =>
    rw [simplify_text_of_count n]
    exact .none s
  | succ n ih =>
    have holds : HoldsForm s := simplify_changed_iff.1 (by simp [Simplified.changed, n])
    obtain ⟨t,first⟩ := exists_rewrites_iff.2 holds
    obtain ⟨text,count⟩ := simplify_of_rewrites first
    rw [← text]
    exact .next first (ih t (by omega))

/-- The forms of a text may be replaced one at a time in any order. Each step takes one from the count and nothing from the
outcome, no run of steps is longer than the count, and exactly the runs as long as that, which all end in the text that comes
out, cannot go on. -/
theorem simplify_confluent (s : Text) :
    (∀ t, Rewrites s t → (simplify t).text = (simplify s).text ∧ (simplify t).count + 1 = (simplify s).count) ∧
      (∀ n t, RewritesIn n s t → n ≤ (simplify s).count) ∧
      ∀ n t, (RewritesIn n s t ∧ ¬ ∃ u, Rewrites t u) ↔ n = (simplify s).count ∧ t = (simplify s).text := by
  refine ⟨fun t step => simplify_of_rewrites step,?_,?_⟩
  · intro n t steps
    have := (simplify_of_rewritesIn steps).2
    omega
  · intro n t
    constructor
    · rintro ⟨steps,stuck⟩
      have none : (simplify t).count = 0 := simplify_count_eq_zero_iff.2 (mt exists_rewrites_iff.2 stuck)
      obtain ⟨text,count⟩ := simplify_of_rewritesIn steps
      refine ⟨by omega,?_⟩
      rw [← text, simplify_text_of_count none]
    · rintro ⟨rfl,rfl⟩
      exact ⟨rewritesIn_simplify s,mt exists_rewrites_iff.1 (simplify_text_formFree s)⟩

/-- The later of two forms may go first: what comes out is the same, and it takes as many steps. -/
theorem sample_simplify_confluent :
    Rewrites "( (void)( ) )".toList "( (void)() )".toList ∧ Rewrites "( (void)() )".toList "( ()() )".toList ∧
      (simplify "( (void)() )".toList).count + 1 = (simplify "( (void)( ) )".toList).count ∧
      1 ≤ (simplify "( (void)( ) )".toList).count ∧
      2 = (simplify "( (void)( ) )".toList).count ∧ "( ()() )".toList = (simplify "( (void)( ) )".toList).text := by
  have gap : IsForm "( )".toList := ⟨[' '],.gap (by simp) (List.forall_mem_singleton.2 (by decide)),rfl⟩
  have word : IsForm "(void)".toList := ⟨[] ++ "void".toList ++ [],.word (by simp) (by decide) (by simp),rfl⟩
  have first : Rewrites "( (void)( ) )".toList "( (void)() )".toList := .form "( (void)".toList gap " )".toList
  have second : Rewrites "( (void)() )".toList "( ()() )".toList := .form "( ".toList word "() )".toList
  have stuck : ¬ ∃ u, Rewrites "( ()() )".toList u :=
    mt exists_rewrites_iff.1 (simplify_count_eq_zero_iff.1 (by decide +kernel))
  obtain ⟨step,bound,run⟩ := simplify_confluent "( (void)( ) )".toList
  exact ⟨first,second,(step _ first).2,bound 1 _ (.next first (.none _)),
    (run 2 _).1 ⟨.next first (.next second (.none _)),stuck⟩⟩

end ParamTidy
