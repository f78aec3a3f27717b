import ParamTidy.Text.Blank

/-!
# Forms

A form is a pair of parentheses around the word `void` with any blanks about it, or around nothing but blanks. `IsForm` says
what a form is, `afterForm?` reads one off the head of a text, and `afterForm?_eq_some_iff` holds the one to the other.
-/

namespace ParamTidy

/-! ## The word -/

def isV (c : Char) : Bool := c == 'v' || c == 'V'

def isO (c : Char) : Bool := c == 'o' || c == 'O'

/-- The letter `i`, small, capital or dotless; the dotted capital is none. -/
def isI (c : Char) : Bool := c == 'i' || c == 'I' || c == 'ı'

def isD (c : Char) : Bool := c == 'd' || c == 'D'

def spellsVoid : Text → Bool
  | [v, o, i, d] => isV v && isO o && isI i && isD d
  | _ => false

/-! ## What a form is -/

/-- What may stand between the parentheses of a form. -/
inductive IsInside : Text → Prop
  | word {before word after : Text} (before_blank : ∀ c ∈ before, isBlank c) (spelled : spellsVoid word)
      (after_blank : ∀ c ∈ after, isBlank c) : IsInside (before ++ word ++ after)
  | gap {blanks : Text} (some_blank : blanks ≠ []) (all_blank : ∀ c ∈ blanks, isBlank c) : IsInside blanks

/-- A form, its parentheses included. -/
def IsForm (f : Text) : Prop := ∃ inside, IsInside inside ∧ f = '(' :: inside ++ [')']

theorem length_of_spellsVoid {word : Text} (spelled : spellsVoid word) : word.length = 4 := by
  unfold spellsVoid at spelled
  split at spelled
  · rfl
  · cases spelled

theorem isInside_of_spellsVoid {word : Text} (spelled : spellsVoid word) : IsInside word := by
  have alone : IsInside ([] ++ word ++ []) := .word (by simp) spelled (by simp)
  simpa using alone

theorem isInside_singleton_iff {c : Char} : IsInside [c] ↔ isBlank c := by
  constructor
  · intro isInside
    generalize same : [c] = t at isInside
    cases isInside with
    | word before_blank spelled after_blank =>
      have := congrArg List.length same
      simp only [List.length_append, length_of_spellsVoid spelled, List.length_singleton] at this
      omega
    | gap some_blank all_blank => exact all_blank c (same ▸ List.mem_singleton_self c)
  · intro blank
    exact .gap (by simp) (by simpa using blank)

/-! ## Reading a form -/

def afterVoid? : Text → Option Text
  | v :: o :: i :: d :: rest => if isV v && isO o && isI i && isD d then some rest else none
  | _ => none

/-- What follows a closing parenthesis, blanks before it allowed. -/
def afterClosing? (s : Text) : Option Text :=
  match s.dropWhile isBlank with
  | ')' :: rest => some rest
  | _ => none

/-- What follows a form whose opening parenthesis has just been read. -/
def afterForm? (s : Text) : Option Text :=
  match afterVoid? (s.dropWhile isBlank) with
  | some rest => afterClosing? rest
  | none => if s.head?.any isBlank then afterClosing? s else none

theorem not_isBlank_of_isV {c : Char} (h : isV c) : isBlank c = false := by
  simp only [isV, Bool.or_eq_true, beq_iff_eq] at h
  rcases h with h | h <;> subst h <;> decide

theorem not_isBlank_closing : isBlank ')' = false := by decide

theorem afterVoid?_eq_some_iff {s rest : Text} : afterVoid? s = some rest ↔ ∃ word, spellsVoid word ∧ s = word ++ rest := by
  constructor
  · intro h
    unfold afterVoid? at h
    split at h
    · next v o i d tail =>
      split at h
      · next spelled => exact ⟨[v, o, i, d],spelled,by simp [Option.some.inj h]⟩
      · cases h
    · cases h
  · rintro ⟨word,spelled,rfl⟩
    unfold spellsVoid at spelled
    split at spelled
    · simp only [List.cons_append, List.nil_append, afterVoid?, spelled, if_true]
    · cases spelled

theorem afterClosing?_eq_some_iff {s rest : Text} :
    afterClosing? s = some rest ↔ ∃ blanks, (∀ c ∈ blanks, isBlank c) ∧ s = blanks ++ ')' :: rest := by
  constructor
  · intro h
    unfold afterClosing? at h
    split at h
    · next tail e =>
      refine ⟨s.takeWhile isBlank,List.all_eq_true.1 List.all_takeWhile,?_⟩
      rw [← Option.some.inj h, ← e, List.takeWhile_append_dropWhile]
    · cases h
  · rintro ⟨blanks,all,rfl⟩
    simp [afterClosing?, List.dropWhile_append_of_pos all, not_isBlank_closing]

/-- The head of a word is no blank. -/
theorem dropWhile_isBlank_word {word : Text} (spelled : spellsVoid word) (rest : Text) :
    (word ++ rest).dropWhile isBlank = word ++ rest := by
  unfold spellsVoid at spelled
  split at spelled
  · simp only [Bool.and_eq_true] at spelled
    simp [not_isBlank_of_isV spelled.1.1.1]
  · cases spelled

theorem afterVoid?_closing (rest : Text) : afterVoid? (')' :: rest) = none := by
  unfold afterVoid?
  split
  · next e => simp [(List.cons.inj e).1.symm, isV]
  · rfl

/-- Exactly the forms are read. -/
theorem afterForm?_eq_some_iff {s rest : Text} :
    afterForm? s = some rest ↔ ∃ inside, IsInside inside ∧ s = inside ++ ')' :: rest := by
  constructor
  · intro h
    unfold afterForm? at h
    split at h
    · next tail e =>
      obtain ⟨word,spelled,hw⟩ := afterVoid?_eq_some_iff.1 e
      obtain ⟨after,blank,rfl⟩ := afterClosing?_eq_some_iff.1 h
      refine ⟨s.takeWhile isBlank ++ word ++ after,.word (List.all_eq_true.1 List.all_takeWhile) spelled blank,?_⟩
      rw [List.append_assoc, List.append_assoc, ← hw, List.takeWhile_append_dropWhile]
    · split at h
      · next head =>
        obtain ⟨blanks,all,rfl⟩ := afterClosing?_eq_some_iff.1 h
        refine ⟨blanks,.gap ?_ all,rfl⟩
        rintro rfl
        simp [not_isBlank_closing] at head
      · cases h
  · rintro ⟨inside,form,rfl⟩
    unfold afterForm?
    cases form with
    | @word before word after before_blank spelled after_blank =>
      rw [List.append_assoc, List.append_assoc, List.dropWhile_append_of_pos before_blank,
        dropWhile_isBlank_word spelled, afterVoid?_eq_some_iff.2 ⟨word,spelled,rfl⟩]
      exact afterClosing?_eq_some_iff.2 ⟨after,after_blank,rfl⟩
    | gap some_blank all_blank =>
      rw [List.dropWhile_append_of_pos all_blank, List.dropWhile_cons_of_neg (by simp [not_isBlank_closing]),
        afterVoid?_closing]
      cases inside with
      | nil => exact absurd rfl some_blank
      | cons c blanks =>
        simp only [List.cons_append, List.head?_cons, Option.any_some, all_blank c (by simp), if_true]
        exact afterClosing?_eq_some_iff.2 ⟨c :: blanks,all_blank,rfl⟩

theorem afterForm?_length {s rest : Text} (h : afterForm? s = some rest) : rest.length < s.length := by
  obtain ⟨inside,_,rfl⟩ := afterForm?_eq_some_iff.1 h
  simp
  omega

end ParamTidy
