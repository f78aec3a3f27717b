import ParamTidy.ParameterList

/-!
# Texts without forms

A text holds a form if one stands somewhere in it. Exactly the texts that hold none are left as they are
(`simplify_count_eq_zero_iff`), and what is left of a text once it is simplified holds none (`simplify_text_formFree`).
-/

namespace ParamTidy

/-- A form stands somewhere in a text. -/
def HoldsForm (s : Text) : Prop := ∃ f, IsForm f ∧ f <:+: s

theorem simplify_induction {motive : Text → Prop} (nil : motive [])
    (form : ∀ s rest, afterForm? s = some rest → motive rest → motive ('(' :: s))
    (opening : ∀ s, afterForm? s = none → motive s → motive ('(' :: s))
    (other : ∀ c s, c ≠ '(' → motive s → motive (c :: s)) (s : Text) : motive s := by
  induction n : s.length using Nat.strongRecOn generalizing s with
  | ind n ih =>
    subst n
    cases s with
    | nil => exact nil
    | cons c s =>
      have shorter : s.length < (c :: s).length := by simp
      by_cases paren : c = '('
      · subst paren
        cases read : afterForm? s with
        | some rest => exact form s rest read (ih _ (Nat.lt_trans (afterForm?_length read) shorter) rest rfl)
        | none => exact opening s read (ih _ shorter s rfl)
      · exact other c s paren (ih _ shorter s rfl)

/-! ## Where a form stands -/

/-- The characters that may stand between the parentheses of a form: blanks and the letters of `void`. -/
def isInner (c : Char) : Bool := isBlank c || isV c || isO c || isI c || isD c

theorem isInner_of_isBlank {c : Char} (h : isBlank c) : isInner c := by simp [isInner, h]

private theorem isInner_of_spellsVoid {word : Text} (spelled : spellsVoid word) : ∀ c ∈ word, isInner c := by
  unfold spellsVoid at spelled
  split at spelled
  · next v o i d =>
    simp only [Bool.and_eq_true] at spelled
    obtain ⟨⟨⟨hv,ho⟩,hi⟩,hd⟩ := spelled
    intro c member
    simp only [List.mem_cons, List.not_mem_nil, or_false] at member
    rcases member with rfl | rfl | rfl | rfl <;> simp [isInner, *]
  · cases spelled

theorem IsInside.isInner {inside : Text} (h : IsInside inside) : ∀ c ∈ inside, isInner c := by
  cases h with
  | word before_blank spelled after_blank =>
    intro c member
    rcases List.mem_append.1 member with member | member
    · rcases List.mem_append.1 member with member | member
      · exact isInner_of_isBlank (before_blank c member)
      · exact isInner_of_spellsVoid spelled c member
    · exact isInner_of_isBlank (after_blank c member)
  | gap some_blank all_blank =>
    intro c member
    exact isInner_of_isBlank (all_blank c member)

theorem IsInside.ne_nil {inside : Text} (isInside : IsInside inside) : inside ≠ [] := by
  cases isInside with
  | @word before word after before_blank spelled after_blank =>
    intro empty
    simp only [List.append_eq_nil_iff] at empty
    rw [empty.1.2] at spelled
    cases spelled
  | gap some_blank all_blank => exact some_blank

theorem afterForm?_closing (s : Text) : afterForm? (')' :: s) = none := by
  simp [afterForm?, List.dropWhile_cons_of_neg, not_isBlank_closing, afterVoid?_closing]

/-- A form is read behind an opening parenthesis exactly if it stands there. -/
theorem afterForm?_eq_some_iff_isForm {s rest : Text} : afterForm? s = some rest ↔ ∃ f, IsForm f ∧ '(' :: s = f ++ rest := by
  constructor
  · intro read
    obtain ⟨inside,isInside,rfl⟩ := afterForm?_eq_some_iff.1 read
    exact ⟨'(' :: inside ++ [')'],⟨inside,isInside,rfl⟩,by simp⟩
  · rintro ⟨_,⟨inside,isInside,rfl⟩,split⟩
    exact afterForm?_eq_some_iff.2 ⟨inside,isInside,by simpa using split⟩

theorem IsForm.afterForm?_append {f : Text} (isForm : IsForm f) (rest : Text) :
    ∃ s, f ++ rest = '(' :: s ∧ afterForm? s = some rest := by
  obtain ⟨inside,isInside,rfl⟩ := isForm
  exact ⟨inside ++ ')' :: rest,by simp,afterForm?_eq_some_iff.2 ⟨inside,isInside,rfl⟩⟩

def NoFormBegins (s : Text) : Prop := ∀ f, IsForm f → ¬ f <+: s

theorem noFormBegins_opening {s : Text} (read : afterForm? s = none) : NoFormBegins ('(' :: s) := by
  rintro f isForm ⟨rest,split⟩
  have found := afterForm?_eq_some_iff_isForm.2 ⟨f,isForm,split.symm⟩
  rw [read] at found
  cases found

theorem noFormBegins_other {c : Char} (paren : c ≠ '(') (s : Text) : NoFormBegins (c :: s) := by
  rintro _ ⟨inside,_,rfl⟩ ⟨rest,split⟩
  exact paren (List.cons.inj split).1.symm

theorem holdsForm_nil : ¬ HoldsForm [] := by
  rintro ⟨f,⟨inside,_,rfl⟩,infixed⟩
  simp at infixed

theorem holdsForm_form {s rest : Text} (read : afterForm? s = some rest) : HoldsForm ('(' :: s) := by
  obtain ⟨f,isForm,split⟩ := afterForm?_eq_some_iff_isForm.1 read
  exact ⟨f,isForm,split ▸ (List.prefix_append f rest).isInfix⟩

theorem HoldsForm.cons {s : Text} (holds : HoldsForm s) (c : Char) : HoldsForm (c :: s) := by
  obtain ⟨f,isForm,infixed⟩ := holds
  exact ⟨f,isForm,infixed.trans (List.suffix_cons _ _).isInfix⟩

theorem NoFormBegins.holdsForm_cons {c : Char} {s : Text} (none : NoFormBegins (c :: s)) :
    HoldsForm (c :: s) ↔ HoldsForm s := by
  constructor
  · rintro ⟨f,isForm,infixed⟩
    rcases List.infix_cons_iff.1 infixed with begins | later
    · exact absurd begins (none f isForm)
    · exact ⟨f,isForm,later⟩
  · exact fun holds => holds.cons c

theorem holdsForm_opening {s : Text} (read : afterForm? s = none) : HoldsForm ('(' :: s) ↔ HoldsForm s :=
  (noFormBegins_opening read).holdsForm_cons

theorem holdsForm_other {c : Char} (h : c ≠ '(') {s : Text} : HoldsForm (c :: s) ↔ HoldsForm s :=
  (noFormBegins_other h s).holdsForm_cons

/-- No form begins where no parenthesis opens. -/
theorem holdsForm_append {s t : Text} (h : '(' ∉ s) : HoldsForm (s ++ t) ↔ HoldsForm t := by
  induction s with
  | nil => rfl
  | cons c s ih =>
    simp only [List.mem_cons, not_or] at h
    rw [List.cons_append, holdsForm_other (Ne.symm h.1), ih h.2]

/-! ## What is left -/

theorem simplify_count_eq_zero_iff {s : Text} : (simplify s).count = 0 ↔ ¬ HoldsForm s := by
  induction s using simplify_induction with
  | nil => simp [holdsForm_nil]
  | form s rest read ih => simp [simplify_form read, Simplified.replace, holdsForm_form read]
  | opening s read ih => simpa [simplify_open read, Simplified.keep, holdsForm_opening read] using ih
  | other c s paren ih => simpa [simplify_other paren, Simplified.keep, holdsForm_other paren] using ih

theorem simplify_changed_iff {s : Text} : (simplify s).changed ↔ HoldsForm s := by
  rw [Simplified.changed, decide_eq_true_iff, Nat.pos_iff_ne_zero, Ne, simplify_count_eq_zero_iff, Classical.not_not]

theorem simplify_changed_eq_false_iff {s : Text} : (simplify s).changed = false ↔ ¬ HoldsForm s := by
  rw [← simplify_changed_iff, Bool.not_eq_true]

private theorem opening_ne {w s rest : Text} (inner : ∀ c ∈ w, isInner c) : '(' :: s ≠ w ++ ')' :: rest := by
  intro same
  cases w with
  | nil => simp at same
  | cons c w =>
    simp only [List.cons_append, List.cons.injEq] at same
    have opening := inner c (by simp)
    rw [← same.1] at opening
    exact absurd opening (by decide)

/-- What may stand in a form, up to a closing parenthesis, stood in the text before: nothing is put together across what has
been replaced. -/
private theorem stood_before {s w rest : Text} (inner : ∀ c ∈ w, isInner c) (left : (simplify s).text = w ++ ')' :: rest) :
    ∃ tail, s = w ++ ')' :: tail := by
  induction s using simplify_induction generalizing w with
  | nil => simp at left
  | form s tail read ih =>
    rw [simplify_form read, Simplified.replace] at left
    exact absurd left (opening_ne inner)
  | opening s read ih =>
    rw [simplify_open read, Simplified.keep] at left
    exact absurd left (opening_ne inner)
  | other c s paren ih =>
    rw [simplify_other paren] at left
    cases w with
    | nil =>
      simp only [Simplified.keep, List.nil_append, List.cons.injEq] at left
      exact ⟨s,by simp [left.1]⟩
    | cons d w =>
      simp only [Simplified.keep, List.cons_append, List.cons.injEq] at left
      obtain ⟨tail,same⟩ := ih (fun c member => inner c (List.mem_cons_of_mem _ member)) left.2
      exact ⟨tail,by rw [left.1, same, List.cons_append]⟩

/-- No form is left in what has been simplified. -/
theorem simplify_text_formFree (s : Text) : ¬ HoldsForm (simplify s).text := by
  induction s using simplify_induction with
  | nil => simpa using holdsForm_nil
  | form s rest read ih =>
    simpa [simplify_form read, Simplified.replace, holdsForm_opening (afterForm?_closing _), holdsForm_other] using ih
  | opening s read ih =>
    have still : afterForm? (simplify s).text = none := by
      cases found : afterForm? (simplify s).text with
      | none => rfl
      | some tail =>
        obtain ⟨inside,isInside,same⟩ := afterForm?_eq_some_iff.1 found
        obtain ⟨tail',before⟩ := stood_before isInside.isInner same
        have : afterForm? s = some tail' := afterForm?_eq_some_iff.2 ⟨inside,isInside,before⟩
        rw [read] at this
        cases this
    simpa [simplify_open read, Simplified.keep, holdsForm_opening still] using ih
  | other c s paren ih => simpa [simplify_other paren, Simplified.keep, holdsForm_other paren] using ih

end ParamTidy
