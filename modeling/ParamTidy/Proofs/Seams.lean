import ParamTidy.Proofs.FormFree

/-!
# Texts put together

A text may be simplified piece by piece exactly where no form stands across the seam (`simplify_append_iff`). So it may where
the last character before the seam, or the first one after it, has no place in a form there (`simplify_append`), and no
character but these will do for all texts (`simplify_piecewise`). No form reaches beyond an opening parenthesis that is not its
own, so what follows may always be cut off there (`simplify_append_opening`).
-/

namespace ParamTidy

/-! ## Pieces -/

/-- What has been simplified before and after a seam. -/
instance : Append Simplified := ⟨fun s t => ⟨s.text ++ t.text,s.count + t.count⟩⟩

@[simp] theorem Simplified.count_append (s t : Simplified) : (s ++ t).count = s.count + t.count := rfl

theorem Simplified.nil_append (s : Simplified) : (⟨[],0⟩ : Simplified) ++ s = s := by
  show (⟨[] ++ s.text,0 + s.count⟩ : Simplified) = s
  rw [List.nil_append, Nat.zero_add]

theorem Simplified.keep_append (c : Char) (s t : Simplified) : s.keep c ++ t = (s ++ t).keep c := rfl

theorem Simplified.replace_append (s t : Simplified) : s.replace ++ t = (s ++ t).replace := by
  show (⟨_,s.count + 1 + t.count⟩ : Simplified) = ⟨_,s.count + t.count + 1⟩
  rw [Nat.add_right_comm]
  rfl

/-! ## Forms across a seam -/

/-- A form stands across the place where `a` ends and `b` begins: it is opened before and closed behind. -/
def FormCrosses (a b : Text) : Prop :=
  ∃ before after, IsInside (before ++ after) ∧ '(' :: before <:+ a ∧ after ++ [')'] <+: b

theorem FormCrosses.append {a b : Text} (crosses : FormCrosses a b) (w : Text) : FormCrosses (w ++ a) b := by
  obtain ⟨before,after,isInside,ends,begins⟩ := crosses
  exact ⟨before,after,isInside,ends.trans (List.suffix_append w a),begins⟩

/-- What can be read before a seam is read there, and nothing else. -/
theorem afterForm?_append {a b : Text} (apart : ¬ FormCrosses ('(' :: a) b) :
    afterForm? (a ++ b) = (afterForm? a).map (· ++ b) := by
  cases read : afterForm? a with
  | some rest =>
    obtain ⟨inside,isInside,rfl⟩ := afterForm?_eq_some_iff.1 read
    exact afterForm?_eq_some_iff.2 ⟨inside,isInside,by simp⟩
  | none =>
    rw [Option.map_none, Option.eq_none_iff_forall_ne_some]
    intro rest found
    obtain ⟨inside,isInside,same⟩ := afterForm?_eq_some_iff.1 found
    rcases List.append_eq_append_iff.1 same with ⟨after,rfl,rfl⟩ | ⟨between,rfl,split⟩
    · exact apart ⟨a,after,isInside,List.suffix_rfl,rest,by simp⟩
    · cases between with
      | nil =>
        rw [List.nil_append] at split
        have whole : IsInside (inside ++ []) := by rwa [List.append_nil]
        exact apart ⟨inside,[],whole,by simp,rest,by simp [split]⟩
      | cons c between =>
        simp only [List.cons_append, List.cons.injEq] at split
        have : afterForm? (inside ++ c :: between) = some between :=
          afterForm?_eq_some_iff.2 ⟨inside,isInside,by rw [split.1]⟩
        rw [read] at this
        cases this

/-- Where no form stands across the seam, each piece is simplified for itself. -/
theorem simplify_append_of_not_crosses {a b : Text} (apart : ¬ FormCrosses a b) :
    simplify (a ++ b) = simplify a ++ simplify b := by
  induction a using simplify_induction with
  | nil => rw [List.nil_append, simplify_nil, Simplified.nil_append]
  | form s rest read ih =>
    have further : afterForm? (s ++ b) = some (rest ++ b) := by rw [afterForm?_append apart, read, Option.map_some]
    obtain ⟨inside,_,split⟩ := afterForm?_eq_some_iff.1 read
    have left : ¬ FormCrosses rest b := by
      intro crosses
      apply apart
      simpa [split] using crosses.append ('(' :: inside ++ [')'])
    rw [List.cons_append, simplify_form further, ih left, simplify_form read, Simplified.replace_append]
  | opening s read ih =>
    have further : afterForm? (s ++ b) = none := by rw [afterForm?_append apart, read, Option.map_none]
    have left : ¬ FormCrosses s b := fun crosses => apart (crosses.append ['('])
    rw [List.cons_append, simplify_open further, ih left, simplify_open read, Simplified.keep_append]
  | other c s paren ih =>
    have left : ¬ FormCrosses s b := fun crosses => apart (crosses.append [c])
    rw [List.cons_append, simplify_other paren, ih left, simplify_other paren, Simplified.keep_append]

/-! ## Characters at a seam -/

/-- No form can stand across the place where `a` ends and `b` begins, for the last character before it or the first one after
it. Where there is no such character, none can either. -/
def Parted (a b : Text) : Prop :=
  (∀ c ∈ a.getLast?, c ≠ '(' ∧ isInner c = false) ∨ (∀ c ∈ b.head?, c ≠ ')' ∧ isInner c = false)

theorem parted_closing (a b : Text) : Parted (a ++ [')']) b := by
  left
  intro c member
  rw [List.getLast?_concat] at member
  cases member
  decide

theorem parted_opening (a b : Text) : Parted a ('(' :: b) := by
  right
  intro c member
  cases member
  decide

theorem Parted.not_crosses {a b : Text} (parted : Parted a b) : ¬ FormCrosses a b := by
  rintro ⟨before,after,isInside,⟨w,rfl⟩,⟨rest,rfl⟩⟩
  have inner := isInside.isInner
  rcases parted with last | first
  · cases ends : before.getLast? with
    | none => exact (last '(' (by simp [List.getLast?_append, List.getLast?_cons, ends])).1 rfl
    | some c =>
      have := (last c (by simp [List.getLast?_append, List.getLast?_cons, ends])).2
      rw [inner c (List.mem_append_left _ (List.mem_of_getLast? ends))] at this
      cases this
  · cases after with
    | nil => exact (first ')' (by simp)).1 rfl
    | cons c after =>
      have := (first c (by simp)).2
      rw [inner c (by simp)] at this
      cases this

theorem simplify_append {a b : Text} (parted : Parted a b) : simplify (a ++ b) = simplify a ++ simplify b :=
  simplify_append_of_not_crosses parted.not_crosses

/-- What stands before an opening parenthesis may be cut off. -/
theorem simplify_append_opening (a b : Text) : simplify (a ++ '(' :: b) = simplify a ++ simplify ('(' :: b) :=
  simplify_append (parted_opening a b)

/-- A form is replaced wherever it stands, and what stands before and after it is simplified for itself. -/
theorem simplify_append_form {f : Text} (isForm : IsForm f) (before after : Text) :
    simplify (before ++ f ++ after) = simplify before ++ (simplify after).replace := by
  obtain ⟨s,written,read⟩ := isForm.afterForm?_append after
  rw [List.append_assoc, written, simplify_append_opening, simplify_form read]

/-- A bare pair of parentheses is kept wherever it stands, and what stands before and after it is simplified for itself. -/
theorem simplify_append_bare (before after : Text) :
    simplify (before ++ ['(',')'] ++ after) = simplify before ++ ((simplify after).keep ')').keep '(' := by
  rw [List.append_assoc]
  show simplify (before ++ '(' :: ')' :: after) = _
  rw [simplify_append_opening, simplify_open (afterForm?_closing after), simplify_other (by decide)]

/-! ## What a seam costs -/

theorem not_holdsForm_of_opening {s : Text} (none : '(' ∉ s) : ¬ HoldsForm s := by
  have nothing := holdsForm_append (t := []) none
  rw [List.append_nil] at nothing
  exact fun holds => holdsForm_nil (nothing.1 holds)

theorem not_holdsForm_of_closing {s : Text} (none : ')' ∉ s) : ¬ HoldsForm s := by
  rintro ⟨_,⟨inside,_,rfl⟩,infixed⟩
  exact none (infixed.subset (by simp))

/-- A form across the seam is in neither piece, and all others are in one of them. -/
theorem FormCrosses.count_append {a b : Text} (crosses : FormCrosses a b) :
    (simplify (a ++ b)).count = (simplify a).count + (simplify b).count + 1 := by
  obtain ⟨before,after,isInside,⟨w,rfl⟩,⟨rest,rfl⟩⟩ := crosses
  have inner := isInside.isInner
  have outer (c : Char) (other : isInner c = false) : c ∉ before ++ after := by
    intro member
    rw [inner c member] at other
    cases other
  have opened : (simplify ('(' :: before)).count = 0 := by
    apply simplify_count_eq_zero_iff.2
    apply not_holdsForm_of_closing
    have := outer ')' (by decide)
    simp_all
  have closed : (simplify (after ++ [')'])).count = 0 := by
    apply simplify_count_eq_zero_iff.2
    apply not_holdsForm_of_opening
    have := outer '(' (by decide)
    simp_all
  have isForm : IsForm ('(' :: (before ++ after) ++ [')']) := ⟨_,isInside,rfl⟩
  have whole : (w ++ '(' :: before) ++ (after ++ [')'] ++ rest) = w ++ ('(' :: (before ++ after) ++ [')']) ++ rest := by simp
  rw [whole, simplify_append_form isForm, simplify_append_opening, simplify_append (parted_closing after rest)]
  simp only [Simplified.count_append, Simplified.replace, opened, closed]
  omega

/-- Each piece is simplified for itself exactly where no form stands across the seam. -/
theorem simplify_append_iff {a b : Text} : simplify (a ++ b) = simplify a ++ simplify b ↔ ¬ FormCrosses a b := by
  constructor
  · intro piecewise crosses
    have more := crosses.count_append
    rw [piecewise, Simplified.count_append] at more
    omega
  · exact simplify_append_of_not_crosses

/-- Every blank and every letter of the word stands in some form. -/
theorem exists_isInside {c : Char} (inner : isInner c) : ∃ before after, IsInside (before ++ c :: after) := by
  simp only [isInner, Bool.or_eq_true] at inner
  rcases inner with (((blank | v) | o) | i) | d
  · exact ⟨[],[],isInside_singleton_iff.2 blank⟩
  · exact ⟨[],['o', 'i', 'd'],isInside_of_spellsVoid (by simp [spellsVoid, v, isO, isI, isD])⟩
  · exact ⟨['v'],['i', 'd'],isInside_of_spellsVoid (by simp [spellsVoid, o, isV, isI, isD])⟩
  · exact ⟨['v', 'o'],['d'],isInside_of_spellsVoid (by simp [spellsVoid, i, isV, isO, isD])⟩
  · exact ⟨['v', 'o', 'i'],[],isInside_of_spellsVoid (by simp [spellsVoid, d, isV, isO, isI])⟩

/-- The characters behind which every text may be cut. -/
theorem cut_behind_iff {c : Char} :
    (∀ a b, simplify (a ++ [c] ++ b) = simplify (a ++ [c]) ++ simplify b) ↔ c ≠ '(' ∧ isInner c = false := by
  constructor
  · intro piecewise
    constructor
    · rintro rfl
      apply simplify_append_iff.1 (piecewise [] [' ', ')'])
      exact ⟨[],[' '],isInside_singleton_iff.2 (by decide),List.suffix_rfl,List.prefix_rfl⟩
    · apply Bool.eq_false_iff.2
      intro inner
      obtain ⟨before,after,isInside⟩ := exists_isInside inner
      apply simplify_append_iff.1 (piecewise ('(' :: before) (after ++ [')']))
      exact ⟨before ++ [c],after,by simpa using isInside,List.suffix_rfl,List.prefix_rfl⟩
  · intro other a b
    apply simplify_append
    left
    intro d member
    rw [List.getLast?_concat] at member
    cases member
    exact other

/-- The characters before which every text may be cut. -/
theorem cut_before_iff {c : Char} :
    (∀ a b, simplify (a ++ c :: b) = simplify a ++ simplify (c :: b)) ↔ c ≠ ')' ∧ isInner c = false := by
  constructor
  · intro piecewise
    constructor
    · rintro rfl
      apply simplify_append_iff.1 (piecewise ['(', ' '] [])
      exact ⟨[' '],[],isInside_singleton_iff.2 (by decide),List.suffix_rfl,List.prefix_rfl⟩
    · apply Bool.eq_false_iff.2
      intro inner
      obtain ⟨before,after,isInside⟩ := exists_isInside inner
      apply simplify_append_iff.1 (piecewise ('(' :: before) (after ++ [')']))
      exact ⟨before,c :: after,isInside,List.suffix_rfl,List.prefix_rfl⟩
  · intro other a b
    apply simplify_append
    right
    intro d member
    cases member
    exact other

/-- A text may be cut and simplified piece by piece where it is empty on one side, where no form can go on from the last
character before the seam, or none can be open at the first one after it, as behind a closing and before an opening parenthesis.
Only a form that stands across the seam forbids it, so there is no other character behind which, or before which, every text may
be cut. -/
theorem simplify_piecewise :
    (∀ a b, a = [] ∨ b = [] ∨ Parted a b → (simplify (a ++ b)).text = (simplify a).text ++ (simplify b).text ∧
      (simplify (a ++ b)).count = (simplify a).count + (simplify b).count) ∧
    (∀ a b, a.getLast? = some ')' ∨ b.head? = some '(' → simplify (a ++ b) = simplify a ++ simplify b) ∧
    (∀ a b, simplify (a ++ b) = simplify a ++ simplify b ↔ ¬ FormCrosses a b) ∧
    (∀ c, (∀ a b, simplify (a ++ [c] ++ b) = simplify (a ++ [c]) ++ simplify b) ↔ c ≠ '(' ∧ isInner c = false) ∧
    (∀ c, (∀ a b, simplify (a ++ c :: b) = simplify a ++ simplify (c :: b)) ↔ c ≠ ')' ∧ isInner c = false) := by
  refine ⟨?_,?_,fun _ _ => simplify_append_iff,fun _ => cut_behind_iff,fun _ => cut_before_iff⟩
  · intro a b seam
    have parted : Parted a b := by
      rcases seam with rfl | rfl | parted
      · exact .inl (by simp)
      · exact .inr (by simp)
      · exact parted
    rw [simplify_append parted]
    exact ⟨rfl,rfl⟩
  · rintro a b (closed | opened)
    · obtain ⟨a,rfl⟩ := List.getLast?_eq_some_iff.1 closed
      exact simplify_append (parted_closing a b)
    · obtain ⟨b,rfl⟩ := List.head?_eq_some_iff.1 opened
      exact simplify_append_opening a b

end ParamTidy
