import ParamTidy.Proofs.Rewriting
import ParamTidy.Text.Utf8

/-!
# What is deleted

To simplify a text is to delete characters that may stand inside a form, blanks and the letters of the word, and nothing else
(`simplify_deletes`). So nothing is put in or moved, all other characters stay as they follow one another, and no bracket is
opened or closed by it (`simplify_only_deletes`).
-/

namespace ParamTidy

/-- One text comes from another by deleting some characters of a kind, each where it stands. -/
inductive Deletes (p : Char → Bool) : (deleted : Nat) → Text → Text → Prop
  | done : Deletes p 0 [] []
  | keep {n : Nat} {s t : Text} (c : Char) (others : Deletes p n s t) : Deletes p n (c :: s) (c :: t)
  | delete {n : Nat} {s t : Text} {c : Char} (kind : p c) (others : Deletes p n s t) : Deletes p (n + 1) (c :: s) t

namespace Deletes

variable {p : Char → Bool} {n : Nat} {s t : Text}

/-- A stretch of characters of the kind may be deleted as a whole. -/
theorem append {w : Text} (kind : ∀ c ∈ w, p c) (others : Deletes p n s t) : Deletes p (n + w.length) (w ++ s) t := by
  induction w with
  | nil => exact others
  | cons c w ih => exact .delete (kind c (by simp)) (ih fun d member => kind d (List.mem_cons_of_mem _ member))

theorem sublist (deletes : Deletes p n s t) : t.Sublist s := by
  induction deletes with
  | done => exact .slnil
  | keep c _ ih => exact ih.cons_cons c
  | delete _ _ ih => exact ih.cons _

/-- Characters of another kind stay as they follow one another. -/
theorem filter_eq (deletes : Deletes p n s t) {q : Char → Bool} (other : ∀ c, p c → q c = false) :
    t.filter q = s.filter q := by
  induction deletes with
  | done => rfl
  | keep c _ ih => rw [List.filter_cons, List.filter_cons, ih]
  | delete kind _ ih => rw [List.filter_cons_of_neg (by simp [other _ kind]), ih]

theorem length_add (deletes : Deletes p n s t) : t.length + n = s.length := by
  induction deletes with
  | done => rfl
  | keep c _ ih =>
    simp only [List.length_cons]
    omega
  | delete _ _ ih =>
    simp only [List.length_cons]
    omega

/-- A character takes at least one byte with it. -/
theorem length_encode_add (deletes : Deletes p n s t) : (Utf8.encode t).length + n ≤ (Utf8.encode s).length := by
  induction deletes with
  | done => simp
  | keep c _ ih =>
    simp only [Utf8.encode_cons, List.length_append]
    omega
  | @delete _ _ _ c _ _ ih =>
    have := Utf8.length_encodeChar_pos c
    simp only [Utf8.encode_cons, List.length_append]
    omega

end Deletes

/-- What stands inside the forms is deleted, and nothing else. -/
theorem simplify_deletes (s : Text) : ∃ n, Deletes isInner n s (simplify s).text := by
  induction s using simplify_induction with
  | nil =>
    rw [simplify_nil]
    exact ⟨0,.done⟩
  | form s rest read ih =>
    obtain ⟨n,deletes⟩ := ih
    obtain ⟨inside,isInside,rfl⟩ := afterForm?_eq_some_iff.1 read
    rw [simplify_form read]
    exact ⟨n + inside.length,.keep '(' (.append isInside.isInner (.keep ')' deletes))⟩
  | opening s read ih =>
    obtain ⟨n,deletes⟩ := ih
    rw [simplify_open read]
    exact ⟨n,.keep '(' deletes⟩
  | other c s paren ih =>
    obtain ⟨n,deletes⟩ := ih
    rw [simplify_other paren]
    exact ⟨n,.keep c deletes⟩

/-- The kinds of brackets, what opens one and what closes it. -/
def brackets : List (Char × Char) := [('(',')'), ('[',']'), ('\x7b','\x7d')]

def isBracket (c : Char) : Bool := brackets.any fun b => c == b.1 || c == b.2

/-- What is to be closed behind a character, the innermost first, or none if it closes what is not the innermost one. -/
def closingsAfter? (closings : Text) (c : Char) : Option Text :=
  match brackets.lookup c with
  | some closing => some (closing :: closings)
  | none => if isBracket c then (if closings.head? = some c then some closings.tail else none) else some closings

/-- What a text leaves to be closed, the innermost first, or none if its brackets do not match; `closings` are to be closed when
it begins. -/
def unclosed? (closings s : Text) : Option Text := s.foldlM closingsAfter? closings

theorem closingsAfter?_of_not_isBracket {c : Char} (plain : isBracket c = false) (closings : Text) :
    closingsAfter? closings c = some closings := by
  have unlisted : brackets.lookup c = none := by
    rw [List.lookup_eq_none_iff]
    intro b member
    simp only [isBracket, List.any_eq_false, Bool.or_eq_true, not_or] at plain
    simpa using (plain b member).1
  simp [closingsAfter?, unlisted, plain]

/-- What is left to be closed hangs on the brackets alone. -/
theorem unclosed?_filter (closings s : Text) : unclosed? closings (s.filter isBracket) = unclosed? closings s := by
  rw [unclosed?, unclosed?, List.foldlM_filter]
  congr 1
  funext closings c
  by_cases bracket : isBracket c
  · rw [if_pos bracket]
  · rw [if_neg bracket, closingsAfter?_of_not_isBracket (by simpa using bracket)]
    rfl

theorem not_isBracket_of_isInner {c : Char} (inner : isInner c) : isBracket c = false := by
  have outside : ∀ b ∈ brackets, isInner b.1 = false ∧ isInner b.2 = false := by decide
  rw [isBracket, List.any_eq_false]
  intro b member
  simp only [Bool.or_eq_true, beq_iff_eq]
  rintro (rfl | rfl)
  · simp [(outside b member).1] at inner
  · simp [(outside b member).2] at inner

/-- To simplify a text is to delete blanks and letters of the word from it. What comes out is a part of the text in the same
order, and nothing but such characters is missing from it: characters of any other kind, all parentheses among them, stay as
they follow one another. So the brackets match as before, whatever was open. For each form that is counted the text becomes
shorter, in characters and in bytes. -/
theorem simplify_only_deletes (s : Text) :
    (simplify s).text.Sublist s ∧
      (simplify s).text.filter (!isInner ·) = s.filter (!isInner ·) ∧
      (∀ q : Char → Bool, (∀ c, isInner c → q c = false) → (simplify s).text.filter q = s.filter q) ∧
      (∀ closings, unclosed? closings (simplify s).text = unclosed? closings s) ∧
      (simplify s).text.length + (simplify s).count ≤ s.length ∧
      (Utf8.encode (simplify s).text).length + (simplify s).count ≤ (Utf8.encode s).length := by
  obtain ⟨n,deletes⟩ := simplify_deletes s
  have shorter := simplify_text_length s
  have counted : (simplify s).count ≤ n := by
    have := deletes.length_add
    omega
  refine ⟨deletes.sublist,deletes.filter_eq (by simp),fun q other => deletes.filter_eq other,?_,shorter,?_⟩
  · intro closings
    rw [← unclosed?_filter, deletes.filter_eq fun c => not_isBracket_of_isInner, unclosed?_filter]
  · have := deletes.length_encode_add
    omega

/-- A bracket left open stays open behind a form, and one too many stays one too many. -/
example : unclosed? [] "f( void )([x".toList = some [']', ')'] ∧ unclosed? [] "f( void ))".toList = none := by decide

end ParamTidy
