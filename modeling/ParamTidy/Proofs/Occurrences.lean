import Mathlib.Data.Set.Card
import ParamTidy.Proofs.FormFree

/-!
# Where forms stand

The forms of a text are all stretches of it that are forms, wherever they stand (`formsOf`). No two of them share a character
(`formsOf_pairwise`), so to simplify a text is to write every one of them as `()` and to keep all else in its place
(`simplify_replaces_all`).
-/

namespace ParamTidy

/-- A stretch of a text: how many characters stand before it, and what it reads. -/
@[ext]
structure Stretch where
  start : Nat
  text : Text
  deriving DecidableEq

namespace Stretch

/-- One of its characters stands at a place. -/
def Covers (o : Stretch) (i : Nat) : Prop := o.start ≤ i ∧ i < o.start + o.text.length

def Apart (o o' : Stretch) : Prop := ∀ i, ¬ (o.Covers i ∧ o'.Covers i)

/-- The same stretch when more characters stand before it. -/
def later (n : Nat) (o : Stretch) : Stretch := { o with start := n + o.start }

theorem later_injective (n : Nat) : Function.Injective (later n) := by
  intro o o' same
  simp only [later, mk.injEq] at same
  ext1
  · omega
  · exact same.2

theorem later_later (m n : Nat) (o : Stretch) : (o.later n).later m = o.later (m + n) := by
  simp [later, Nat.add_assoc]

end Stretch

/-- The forms that stand in a text, each at its place. -/
def formsOf (s : Text) : Set Stretch := {o | IsForm o.text ∧ o.text <+: s.drop o.start}

/-- The text `t` is the text `s` with each of some stretches, in their order, written as `()` and every other character kept in
its place; `start` characters stand before. -/
inductive Replaces : (start : Nat) → List Stretch → (s t : Text) → Prop
  | done (start : Nat) : Replaces start [] [] []
  | keep {start : Nat} {found : List Stretch} {s t : Text} (c : Char) (later : Replaces (start + 1) found s t) :
      Replaces start found (c :: s) (c :: t)
  | replace {start : Nat} {found : List Stretch} {s t : Text} (f : Text) (later : Replaces (start + f.length) found s t) :
      Replaces start (⟨start,f⟩ :: found) (f ++ s) ('(' :: ')' :: t)

/-! ## Forms keep apart -/

theorem IsForm.getElem?_zero {f : Text} (isForm : IsForm f) : f[0]? = some '(' := by
  obtain ⟨inside,_,rfl⟩ := isForm
  rfl

/-- In a form no parenthesis opens but the first character. -/
theorem IsForm.getElem?_ne_opening {f : Text} (isForm : IsForm f) {i : Nat} (positive : 0 < i) : f[i]? ≠ some '(' := by
  obtain ⟨inside,isInside,rfl⟩ := isForm
  obtain ⟨i,rfl⟩ := Nat.exists_eq_succ_of_ne_zero (Nat.ne_of_gt positive)
  intro opening
  have member : '(' ∈ inside ++ [')'] := List.mem_of_getElem? (i := i) opening
  rcases List.mem_append.1 member with member | member
  · exact absurd (isInside.isInner '(' member) (by decide)
  · exact absurd member (by decide)

/-- At one place no two forms begin. -/
theorem IsForm.unique {f g s : Text} (isForm : IsForm f) (isForm' : IsForm g) (begins : f <+: s) (begins' : g <+: s) :
    f = g := by
  obtain ⟨rest,split⟩ := begins
  obtain ⟨rest',split'⟩ := begins'
  obtain ⟨t,written,read⟩ := isForm.afterForm?_append rest
  obtain ⟨t',written',read'⟩ := isForm'.afterForm?_append rest'
  rw [split] at written
  rw [split', written, List.cons.injEq] at written'
  rw [← written'.2, read, Option.some.injEq] at read'
  have same : f ++ rest = g ++ rest := by rw [split, read', split']
  exact List.append_cancel_right same

section
variable {s : Text} {o o' : Stretch}

theorem getElem?_of_mem_formsOf (member : o ∈ formsOf s) {i : Nat} (inside : i < o.text.length) :
    s[o.start + i]? = o.text[i]? := by
  obtain ⟨rest,same⟩ := member.2
  rw [← List.getElem?_drop, ← same, List.getElem?_append_left inside]

theorem getElem?_start_of_mem_formsOf (member : o ∈ formsOf s) : s[o.start]? = some '(' := by
  have first := member.1.getElem?_zero
  have := getElem?_of_mem_formsOf member (List.getElem?_eq_some_iff.1 first).1
  rwa [Nat.add_zero, first] at this

/-- A form ends before the next one begins. -/
theorem formsOf_apart (member : o ∈ formsOf s) (member' : o' ∈ formsOf s) (before : o.start < o'.start) :
    o.start + o.text.length ≤ o'.start := by
  apply Nat.le_of_not_lt
  intro inside
  have opens := getElem?_start_of_mem_formsOf member'
  have shut : o.text[o'.start - o.start]? ≠ some '(' := member.1.getElem?_ne_opening (by omega)
  rw [← getElem?_of_mem_formsOf member (by omega), show o.start + (o'.start - o.start) = o'.start by omega] at shut
  exact shut opens

theorem formsOf_eq_of_start (member : o ∈ formsOf s) (member' : o' ∈ formsOf s) (same : o.start = o'.start) : o = o' := by
  ext1
  · exact same
  · exact member.1.unique member'.1 member.2 (same ▸ member'.2)

end

/-- No two forms of a text share a character. -/
theorem formsOf_pairwise (s : Text) : (formsOf s).Pairwise Stretch.Apart := by
  intro o member o' member' ne
  rintro i ⟨⟨from_start,to_end⟩,from_start',to_end'⟩
  rcases Nat.lt_trichotomy o.start o'.start with before | same | after
  · have := formsOf_apart member member' before
    omega
  · exact ne (formsOf_eq_of_start member member' same)
  · have := formsOf_apart member' member after
    omega

/-! ## The forms along the scan -/

theorem later_mem_formsOf_iff {w s : Text} {o : Stretch} : o.later w.length ∈ formsOf (w ++ s) ↔ o ∈ formsOf s := by
  simp only [formsOf, Stretch.later, Set.mem_ofPred_eq, List.drop_length_add_append]

theorem formsOf_nil : formsOf [] = ∅ := by
  apply Set.eq_empty_of_forall_notMem
  rintro o ⟨⟨inside,_,same⟩,begins⟩
  rw [List.drop_nil, List.prefix_nil, same] at begins
  cases begins

/-- Where no form begins, the forms are those of the rest. -/
theorem formsOf_cons {c : Char} {s : Text} (none : NoFormBegins (c :: s)) :
    formsOf (c :: s) = Stretch.later 1 '' formsOf s := by
  ext o
  constructor
  · intro member
    obtain ⟨start,f⟩ := o
    cases start with
    | zero => exact absurd member.2 (none f member.1)
    | succ i => exact ⟨⟨i,f⟩,member,by rw [Stretch.later, Nat.add_comm]⟩
  · rintro ⟨o,member,rfl⟩
    exact (later_mem_formsOf_iff (w := [c])).2 member

/-- Behind a form at the head of a text stand the forms of the rest. -/
theorem formsOf_form {f : Text} (isForm : IsForm f) (rest : Text) :
    formsOf (f ++ rest) = insert ⟨0,f⟩ (Stretch.later f.length '' formsOf rest) := by
  have head : (⟨0,f⟩ : Stretch) ∈ formsOf (f ++ rest) := ⟨isForm,List.prefix_append f rest⟩
  ext o
  constructor
  · intro member
    rcases Nat.eq_zero_or_pos o.start with zero | positive
    · exact .inl (formsOf_eq_of_start member head zero)
    · have beyond := formsOf_apart head member positive
      have same : o = Stretch.later f.length ⟨o.start - f.length,o.text⟩ := by
        ext1
        · simp only [Stretch.later, Nat.zero_add] at beyond ⊢
          omega
        · rfl
      rw [same] at member ⊢
      exact .inr ⟨_,later_mem_formsOf_iff.1 member,rfl⟩
  · rintro (rfl | ⟨o,member,rfl⟩)
    · exact head
    · exact later_mem_formsOf_iff.2 member

/-! ## All of them are replaced -/

/-- As many forms are counted as stand in the text. -/
theorem encard_formsOf (s : Text) : (formsOf s).encard = (simplify s).count := by
  have shift (n : Nat) (s : Text) : (Stretch.later n '' formsOf s).encard = (formsOf s).encard :=
    (Stretch.later_injective n).encard_image _
  induction s using simplify_induction with
  | nil => simp [formsOf_nil]
  | form s rest read ih =>
    obtain ⟨f,isForm,split⟩ := afterForm?_eq_some_iff_isForm.1 read
    have fresh : (⟨0,f⟩ : Stretch) ∉ Stretch.later f.length '' formsOf rest := by
      rintro ⟨o,_,same⟩
      have := congrArg Stretch.start same
      have := List.length_pos_of_mem (List.mem_of_getElem? isForm.getElem?_zero)
      simp only [Stretch.later] at *
      omega
    rw [simplify_form read, split, formsOf_form isForm, Set.encard_insert_of_notMem fresh, shift, ih]
    simp [Simplified.replace]
  | opening s read ih => rw [formsOf_cons (noFormBegins_opening read), shift, ih, simplify_open read, Simplified.keep]
  | other c s paren ih => rw [formsOf_cons (noFormBegins_other paren s), shift, ih, simplify_other paren, Simplified.keep]

/-- Every form is replaced, and nothing else. -/
theorem exists_replaces (s : Text) (start : Nat) :
    ∃ found, {o | o ∈ found} = Stretch.later start '' formsOf s ∧ Replaces start found s (simplify s).text := by
  induction s using simplify_induction generalizing start with
  | nil =>
    refine ⟨[],by simp [formsOf_nil],?_⟩
    rw [simplify_nil]
    exact .done start
  | form s rest read ih =>
    obtain ⟨f,isForm,split⟩ := afterForm?_eq_some_iff_isForm.1 read
    obtain ⟨found,all,replaces⟩ := ih (start + f.length)
    refine ⟨⟨start,f⟩ :: found,?_,?_⟩
    · rw [split, formsOf_form isForm, Set.image_insert_eq, Set.image_image]
      simp only [Stretch.later_later, ← all]
      ext o
      simp [Stretch.later]
    · rw [simplify_form read, split]
      exact .replace f replaces
  | opening s read ih =>
    obtain ⟨found,all,replaces⟩ := ih (start + 1)
    refine ⟨found,?_,?_⟩
    · rw [all, formsOf_cons (noFormBegins_opening read), Set.image_image]
      simp only [Stretch.later_later]
    · rw [simplify_open read]
      exact .keep '(' replaces
  | other c s paren ih =>
    obtain ⟨found,all,replaces⟩ := ih (start + 1)
    refine ⟨found,?_,?_⟩
    · rw [all, formsOf_cons (noFormBegins_other paren s), Set.image_image]
      simp only [Stretch.later_later]
    · rw [simplify_other paren]
      exact .keep c replaces

theorem not_isForm_bare : ¬ IsForm ['(',')'] := by
  intro isForm
  obtain ⟨s,written,read⟩ := isForm.afterForm?_append []
  obtain rfl : [')'] = s := (List.cons.inj written).2
  rw [afterForm?_closing] at read
  cases read

/-- No two forms of a text share a character. As many of them are counted as stand in it, a bare pair of parentheses not being
one, and what comes out is the text with every one of them written as `()` and every other character kept in its place. -/
theorem simplify_replaces_all (s : Text) :
    (formsOf s).Pairwise Stretch.Apart ∧ (formsOf s).encard = (simplify s).count ∧
      (∀ i, ⟨i,['(',')']⟩ ∉ formsOf s) ∧
      ∃ found, {o | o ∈ found} = formsOf s ∧ Replaces 0 found s (simplify s).text := by
  refine ⟨formsOf_pairwise s,encard_formsOf s,fun i member => not_isForm_bare member.1,?_⟩
  obtain ⟨found,all,replaces⟩ := exists_replaces s 0
  have still : Stretch.later 0 = id := by
    funext o
    simp [Stretch.later]
  rw [still, Set.image_id] at all
  exact ⟨found,all,replaces⟩

/-- A parenthesis before a form, a name in the word's place and a bare pair are left alone. -/
example : simplify "( (void) f(\tVOID ) (void x) ()".toList = ⟨"( () f() (void x) ()".toList,2⟩ := by decide +kernel

end ParamTidy
