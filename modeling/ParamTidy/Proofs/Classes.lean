import Mathlib.Data.List.Forall2
import ParamTidy.Proofs.Seams

/-!
# Characters by their classes

To simplify a text is to look at the classes of its characters alone: each parenthesis is one for itself, the blanks are one,
and each letter of the word is one with its other spellings. Texts that agree class by class are simplified alike
(`simplify_forall₂`), and characters of different classes are told apart by some text (`sameClass_iff`).
-/

namespace ParamTidy

/-! ## Classes -/

/-- Two characters have the same place in forms, or none both of them. -/
structure SameClass (c c' : Char) : Prop where
  opening : c = '(' ↔ c' = '('
  closing : c = ')' ↔ c' = ')'
  blank : isBlank c = isBlank c'
  v : isV c = isV c'
  o : isO c = isO c'
  i : isI c = isI c'
  d : isD c = isD c'

theorem SameClass.refl (c : Char) : SameClass c c := ⟨.rfl,.rfl,rfl,rfl,rfl,rfl,rfl⟩

theorem ne_of_isBlank {c d : Char} (blank : isBlank c) (solid : isBlank d = false) : c ≠ d := by
  rintro rfl
  rw [solid] at blank
  cases blank

theorem not_letter_of_isBlank {c : Char} (blank : isBlank c) :
    isV c = false ∧ isO c = false ∧ isI c = false ∧ isD c = false := by
  simp only [isV, isO, isI, isD, Bool.or_eq_false_iff, beq_eq_false_iff_ne]
  refine ⟨⟨?_,?_⟩,⟨?_,?_⟩,⟨⟨?_,?_⟩,?_⟩,?_,?_⟩ <;> exact ne_of_isBlank blank (by decide)

theorem sameClass_of_isBlank {c c' : Char} (blank : isBlank c) (blank' : isBlank c') : SameClass c c' := by
  obtain ⟨v,o,i,d⟩ := not_letter_of_isBlank blank
  obtain ⟨v',o',i',d'⟩ := not_letter_of_isBlank blank'
  constructor
  · exact iff_of_false (ne_of_isBlank blank (by decide)) (ne_of_isBlank blank' (by decide))
  · exact iff_of_false (ne_of_isBlank blank (by decide)) (ne_of_isBlank blank' (by decide))
  · rw [blank, blank']
  · rw [v, v']
  · rw [o, o']
  · rw [i, i']
  · rw [d, d']

/-! ## Texts in lock step -/

section
variable {R : Char → Char → Prop} (classes : ∀ c c', R c c' → SameClass c c') {s t : Text}
include classes

theorem dropWhile_isBlank_forall₂ (alike : List.Forall₂ R s t) :
    List.Forall₂ R (s.dropWhile isBlank) (t.dropWhile isBlank) := by
  induction alike with
  | nil => exact .nil
  | @cons c c' s t related rest ih =>
    have same := (classes c c' related).blank
    by_cases blank : isBlank c
    · rw [List.dropWhile_cons_of_pos blank, List.dropWhile_cons_of_pos (same ▸ blank)]
      exact ih
    · rw [List.dropWhile_cons_of_neg blank, List.dropWhile_cons_of_neg (same ▸ blank)]
      exact .cons related rest

theorem afterVoid?_forall₂ (alike : List.Forall₂ R s t) : Option.Rel (List.Forall₂ R) (afterVoid? s) (afterVoid? t) := by
  match alike with
  | .nil => exact .none
  | .cons _ .nil => exact .none
  | .cons _ (.cons _ .nil) => exact .none
  | .cons _ (.cons _ (.cons _ .nil)) => exact .none
  | .cons v (.cons o (.cons i (.cons d rest))) =>
    simp only [afterVoid?, (classes _ _ v).v, (classes _ _ o).o, (classes _ _ i).i, (classes _ _ d).d]
    split
    · exact .some rest
    · exact .none

theorem afterClosing?_forall₂ (alike : List.Forall₂ R s t) :
    Option.Rel (List.Forall₂ R) (afterClosing? s) (afterClosing? t) := by
  have left := dropWhile_isBlank_forall₂ classes alike
  unfold afterClosing?
  generalize s.dropWhile isBlank = left_s at left
  generalize t.dropWhile isBlank = left_t at left
  cases left with
  | nil => exact .none
  | @cons c c' s t related rest =>
    by_cases closing : c = ')'
    · have closing' := (classes c c' related).closing.1 closing
      subst closing closing'
      exact .some rest
    · have closing' := mt (classes c c' related).closing.2 closing
      split
      · next e => exact absurd (List.cons.inj e).1 closing
      · split
        · next e => exact absurd (List.cons.inj e).1 closing'
        · exact .none

theorem afterForm?_forall₂ (alike : List.Forall₂ R s t) : Option.Rel (List.Forall₂ R) (afterForm? s) (afterForm? t) := by
  have words := afterVoid?_forall₂ classes (dropWhile_isBlank_forall₂ classes alike)
  have begins : s.head?.any isBlank = t.head?.any isBlank := by
    cases alike with
    | nil => rfl
    | @cons c c' s t related _ => exact (classes c c' related).blank
  unfold afterForm?
  generalize afterVoid? (s.dropWhile isBlank) = word at words
  generalize afterVoid? (t.dropWhile isBlank) = word' at words
  cases words with
  | some rest => exact afterClosing?_forall₂ classes rest
  | none =>
    by_cases blank : t.head?.any isBlank
    · simp only [begins, blank, if_true]
      exact afterClosing?_forall₂ classes alike
    · simp only [begins, blank]
      exact .none

/-- Texts that agree class by class are simplified alike: as many forms are replaced, and what comes out still agrees. -/
theorem simplify_forall₂ (opening : R '(' '(') (closing : R ')' ')') (alike : List.Forall₂ R s t) :
    List.Forall₂ R (simplify s).text (simplify t).text ∧ (simplify s).count = (simplify t).count := by
  induction s using simplify_induction generalizing t with
  | nil =>
    cases alike
    rw [simplify_nil]
    exact ⟨.nil,rfl⟩
  | form s rest read ih =>
    obtain ⟨c',t,related,behind,rfl⟩ := List.forall₂_cons_left_iff.1 alike
    obtain rfl := (classes _ _ related).opening.1 rfl
    have forms := afterForm?_forall₂ classes behind
    rw [read] at forms
    generalize read' : afterForm? t = found at forms
    cases forms with
    | some rests =>
      obtain ⟨texts,counts⟩ := ih rests
      rw [simplify_form read, simplify_form read']
      exact ⟨.cons opening (.cons closing texts),congrArg (· + 1) counts⟩
  | opening s read ih =>
    obtain ⟨c',t,related,behind,rfl⟩ := List.forall₂_cons_left_iff.1 alike
    obtain rfl := (classes _ _ related).opening.1 rfl
    have forms := afterForm?_forall₂ classes behind
    rw [read] at forms
    generalize read' : afterForm? t = found at forms
    cases forms
    obtain ⟨texts,counts⟩ := ih behind
    rw [simplify_open read, simplify_open read']
    exact ⟨.cons related texts,counts⟩
  | other c s paren ih =>
    obtain ⟨c',t,related,behind,rfl⟩ := List.forall₂_cons_left_iff.1 alike
    have paren' := mt (classes _ _ related).opening.2 paren
    obtain ⟨texts,counts⟩ := ih behind
    rw [simplify_other paren, simplify_other paren']
    exact ⟨.cons related texts,counts⟩

end

theorem simplify_map {f : Char → Char} (classes : ∀ c, SameClass c (f c)) (s : Text) :
    (simplify (s.map f)).text = (simplify s).text.map f ∧ (simplify (s.map f)).count = (simplify s).count := by
  have related : ∀ c c', f c = c' → SameClass c c' := by
    rintro c _ rfl
    exact classes c
  have alike : List.Forall₂ (fun c c' => f c = c') s (s.map f) := by
    rw [← List.forall₂_map_left_iff, List.forall₂_eq_eq_eq]
  obtain ⟨texts,counts⟩ := simplify_forall₂ related ((classes '(').opening.1 rfl) ((classes ')').closing.1 rfl) alike
  rw [← List.forall₂_map_left_iff, List.forall₂_eq_eq_eq] at texts
  exact ⟨texts.symm,counts.symm⟩

/-! ## Characters told apart -/

/-- As many characters as the word has, not all of them blank, are inside a form if they spell the word. -/
theorem isInside_iff_spellsVoid {t : Text} (length : t.length = 4) (solid : ∃ c ∈ t, isBlank c = false) :
    IsInside t ↔ spellsVoid t := by
  constructor
  · intro isInside
    cases isInside with
    | @word before word after before_blank spelled after_blank =>
      simp only [List.length_append, length_of_spellsVoid spelled] at length
      obtain rfl : before = [] := List.length_eq_zero_iff.1 (by omega)
      obtain rfl : after = [] := List.length_eq_zero_iff.1 (by omega)
      simpa using spelled
    | gap some_blank all_blank =>
      obtain ⟨c,member,solid⟩ := solid
      rw [all_blank c member] at solid
      cases solid
  · exact isInside_of_spellsVoid

/-- What stands between two parentheses and holds none itself is inside a form if that form is counted. -/
theorem count_enclosed_iff {t : Text} (opening : '(' ∉ t) (closing : ')' ∉ t) :
    (simplify ('(' :: t ++ [')'])).count = 1 ↔ IsInside t := by
  constructor
  · intro one
    rw [List.cons_append] at one
    cases read : afterForm? (t ++ [')']) with
    | none =>
      have nothing : (simplify (t ++ [')'])).count = 0 := by
        apply simplify_count_eq_zero_iff.2
        apply not_holdsForm_of_opening
        simpa using opening
      rw [simplify_open read, Simplified.keep, nothing] at one
      cases one
    | some rest =>
      obtain ⟨inside,isInside,split⟩ := afterForm?_eq_some_iff.1 read
      rcases List.append_eq_append_iff.1 split with ⟨more,rfl,ends⟩ | ⟨more,rfl,ends⟩
      · cases more with
        | nil => simpa using isInside
        | cons c more => simp at ends
      · cases more with
        | nil => simpa using isInside
        | cons c more =>
          rw [List.cons_append, List.cons.injEq] at ends
          apply absurd _ closing
          rw [← ends.1]
          exact List.mem_append_right _ List.mem_cons_self
  · intro isInside
    have whole := simplify_append_form ⟨t,isInside,rfl⟩ [] []
    rw [List.append_nil, List.nil_append, simplify_nil, Simplified.nil_append] at whole
    rw [whole]
    rfl

theorem eq_opening_iff {c : Char} : c = '(' ↔ (simplify [c, ' ', ')']).count = 1 := by
  constructor
  · rintro rfl
    decide +kernel
  · intro one
    apply Classical.byContradiction
    intro other
    have nothing : (simplify [c, ' ', ')']).count = 0 :=
      simplify_count_eq_zero_iff.2 (not_holdsForm_of_opening (by simp [Ne.symm other]))
    rw [nothing] at one
    cases one

theorem eq_closing_iff {c : Char} : c = ')' ↔ (simplify ['(', ' ', c]).count = 1 := by
  constructor
  · rintro rfl
    decide +kernel
  · intro one
    apply Classical.byContradiction
    intro other
    have nothing : (simplify ['(', ' ', c]).count = 0 :=
      simplify_count_eq_zero_iff.2 (not_holdsForm_of_closing (by simp [Ne.symm other]))
    rw [nothing] at one
    cases one

/-- No text tells two characters apart by the number of its forms. -/
def Untold (c c' : Char) : Prop :=
  ∀ before after, (simplify (before ++ c :: after)).count = (simplify (before ++ c' :: after)).count

namespace Untold

variable {c c' : Char} (untold : Untold c c')
include untold

theorem opening : c = '(' ↔ c' = '(' := by
  have counts : (simplify [c, ' ', ')']).count = (simplify [c', ' ', ')']).count := untold [] [' ', ')']
  rw [eq_opening_iff, eq_opening_iff, counts]

theorem closing : c = ')' ↔ c' = ')' := by
  have counts : (simplify ['(', ' ', c]).count = (simplify ['(', ' ', c']).count := untold ['(', ' '] []
  rw [eq_closing_iff, eq_closing_iff, counts]

/-- Neither can be put for the other to make the inside of a form of what is none. -/
theorem isInside_iff (opens : c ≠ '(') (closes : c ≠ ')') (before after : Text)
    (plain : '(' ∉ before ++ after ∧ ')' ∉ before ++ after) :
    IsInside (before ++ c :: after) ↔ IsInside (before ++ c' :: after) := by
  have flat {d : Char} (ne : d ≠ '(') (ne' : d ≠ ')') : '(' ∉ before ++ d :: after ∧ ')' ∉ before ++ d :: after := by
    simp_all [eq_comm]
  have here := flat opens closes
  have there := flat (mt untold.opening.2 opens) (mt untold.closing.2 closes)
  have counts := untold ('(' :: before) (after ++ [')'])
  rw [← count_enclosed_iff here.1 here.2, ← count_enclosed_iff there.1 there.2]
  simpa using congrArg (· = 1) counts

theorem spellsVoid_eq (opens : c ≠ '(') (closes : c ≠ ')') (before after : Text)
    (plain : '(' ∉ before ++ after ∧ ')' ∉ before ++ after) (length : (before ++ after).length = 3)
    (solid : ∃ d ∈ before ++ after, isBlank d = false) :
    spellsVoid (before ++ c :: after) = spellsVoid (before ++ c' :: after) := by
  have whole (d : Char) : IsInside (before ++ d :: after) ↔ spellsVoid (before ++ d :: after) := by
    apply isInside_iff_spellsVoid
    · rw [List.length_append] at length
      rw [List.length_append, List.length_cons]
      omega
    · obtain ⟨x,member,solid⟩ := solid
      rw [List.mem_append] at member
      exact ⟨x,List.mem_append.2 (member.imp_right (List.mem_cons_of_mem d)),solid⟩
  rw [Bool.eq_iff_iff, ← whole, ← whole]
  exact untold.isInside_iff opens closes before after plain

/-- The class of a character shows alone between two parentheses, and in the place of each letter of the word. -/
theorem sameClass : SameClass c c' := by
  by_cases opens : c = '('
  · rw [opens, untold.opening.1 opens]
    exact .refl _
  by_cases closes : c = ')'
  · rw [closes, untold.closing.1 closes]
    exact .refl _
  have letter := untold.spellsVoid_eq opens closes
  constructor
  · exact untold.opening
  · exact untold.closing
  · rw [Bool.eq_iff_iff, ← isInside_singleton_iff, ← isInside_singleton_iff]
    exact untold.isInside_iff opens closes [] [] (by simp)
  · simpa [spellsVoid, isO, isI, isD] using letter [] ['o', 'i', 'd'] (by decide) rfl ⟨'o',by decide⟩
  · simpa [spellsVoid, isV, isI, isD] using letter ['v'] ['i', 'd'] (by decide) rfl ⟨'v',by decide⟩
  · simpa [spellsVoid, isV, isO, isD] using letter ['v', 'o'] ['d'] (by decide) rfl ⟨'v',by decide⟩
  · simpa [spellsVoid, isV, isO, isI] using letter ['v', 'o', 'i'] [] (by decide) rfl ⟨'v',by decide⟩

end Untold

/-- The characters of one class are those that no text tells apart. -/
theorem sameClass_iff {c c' : Char} : SameClass c c' ↔ Untold c c' := by
  constructor
  · intro same before after
    have own (s : Text) : List.Forall₂ SameClass s s := List.forall₂_same.2 fun d _ => .refl d
    have alike : List.Forall₂ SameClass (before ++ c :: after) (before ++ c' :: after) :=
      List.rel_append (own before) (.cons same (own after))
    exact (simplify_forall₂ (fun _ _ => id) (.refl _) (.refl _) alike).2
  · exact Untold.sameClass

/-! ## Letters of ASCII -/

instance (c c' : Char) : Decidable (SameClass c c') :=
  decidable_of_iff ((c = '(' ↔ c' = '(') ∧ (c = ')' ↔ c' = ')') ∧ isBlank c = isBlank c' ∧ isV c = isV c' ∧ isO c = isO c' ∧
      isI c = isI c' ∧ isD c = isD c')
    ⟨fun ⟨opening,closing,blank,v,o,i,d⟩ => ⟨opening,closing,blank,v,o,i,d⟩,
      fun same => ⟨same.opening,same.closing,same.blank,same.v,same.o,same.i,same.d⟩⟩

theorem sameClass_ofNat_ascii : ∀ n < 0x80, SameClass (Char.ofNat n) (Char.ofNat n).toUpper ∧
    SameClass (Char.ofNat n) (Char.ofNat n).toLower := by
  decide +kernel

theorem toUpper_toLower_of_high {c : Char} (high : 0x80 ≤ c.toNat) : c.toUpper = c ∧ c.toLower = c := by
  have beyond {d : Char} (ascii : d.toNat < 0x80) : ¬ c.val ≤ d.val := by
    intro below
    exact absurd (UInt32.le_iff_toNat_le.1 below) (Nat.not_le.2 (Nat.lt_of_lt_of_le ascii high))
  constructor
  · exact dif_neg fun inside => beyond (by decide) inside.2
  · exact dif_neg fun inside => beyond (by decide) inside.2

theorem sameClass_toUpper_toLower (c : Char) : SameClass c c.toUpper ∧ SameClass c c.toLower := by
  by_cases ascii : c.toNat < 0x80
  · have same := sameClass_ofNat_ascii c.toNat ascii
    rwa [Char.ofNat_toNat] at same
  · obtain ⟨upper,lower⟩ := toUpper_toLower_of_high (Nat.le_of_not_lt ascii)
    rw [upper, lower]
    exact ⟨.refl c,.refl c⟩

/-! ## Texts by their classes -/

/-- Characters may be replaced by others of their classes before or after a text is simplified, and as many forms are counted.
So it makes no difference when letters of ASCII are made capital or small, and a blank may be put for another everywhere.
Nothing more will do: characters that no text tells apart are of one class. -/
theorem simplify_sees_classes :
    (∀ f : Char → Char, (∀ c, SameClass c (f c)) → ∀ s, (simplify (s.map f)).text = (simplify s).text.map f ∧
      (simplify (s.map f)).count = (simplify s).count) ∧
    (∀ s, (simplify (s.map Char.toUpper)).text = (simplify s).text.map Char.toUpper ∧
      (simplify (s.map Char.toUpper)).count = (simplify s).count) ∧
    (∀ s, (simplify (s.map Char.toLower)).text = (simplify s).text.map Char.toLower ∧
      (simplify (s.map Char.toLower)).count = (simplify s).count) ∧
    (∀ x y, isBlank x → isBlank y → ∀ s,
      (simplify (s.map fun c => if c = x then y else c)).count = (simplify s).count) ∧
    ∀ c c', SameClass c c' ↔ Untold c c' := by
  refine ⟨fun f classes => simplify_map classes,?_,?_,?_,fun c c' => sameClass_iff⟩
  · exact simplify_map fun c => (sameClass_toUpper_toLower c).1
  · exact simplify_map fun c => (sameClass_toUpper_toLower c).2
  · intro x y blank blank' s
    refine (simplify_map (fun c => ?_) s).2
    by_cases here : c = x
    · rw [if_pos here, here]
      exact sameClass_of_isBlank blank blank'
    · rw [if_neg here]
      exact .refl c

/-- A dotless i counts as the letter, a capital one with a dot does not. -/
example : SameClass 'ı' 'I' ∧ ¬ SameClass 'İ' 'I' := by decide

end ParamTidy
