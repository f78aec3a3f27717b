import ParamTidy.Text.Lowercase
import ParamTidy.Text.Utf8.RoundTrip

/-!
# Lower-casing part by part

A word ends at a character that is neither a letter with case nor passed over in the look for one. What stands on one side of
such a character is lower-cased without a look at the other side (`lowercase_append`). Below the small letters of ASCII no
character is the lower-case form of another (`eq_of_mem_lowerBetween`). A text of ASCII without a `k` is the lower-case form of
its own variants in ASCII and of nothing else (`lowercase_eq_iff`). What has been lower-cased once stays as it is
(`lowercase_lowercase`).
-/

namespace ParamTidy

/-! ## Where words end -/

/-- A look for the next letter goes no further than this character, and finds none there. -/
def StopsWords (c : Char) : Prop := isCaseIgnorable c = false ∧ isCased c = false

section
variable {d : Char} (stops : StopsWords d)
include stops

theorem meetsCased_append (s t : Text) : meetsCased (s ++ d :: t) = meetsCased s := by
  induction s with
  | nil => simp [meetsCased, stops.1, stops.2]
  | cons c s ih =>
    by_cases passed : isCaseIgnorable c
    · simpa [meetsCased, passed] using ih
    · simp [meetsCased, passed]

theorem lowerBetween_append_left (before more : Text) (c : Char) (after : Text) :
    lowerBetween (before ++ d :: more) c after = lowerBetween before c after := by
  rw [lowerBetween, lowerBetween, endsWord, endsWord, meetsCased_append stops]

theorem lowerBetween_append_right (before : Text) (c : Char) (after more : Text) :
    lowerBetween before c (after ++ d :: more) = lowerBetween before c after := by
  rw [lowerBetween, lowerBetween, endsWord, endsWord, meetsCased_append stops]

/-- What comes before the end of a word has no bearing on what comes after it. -/
theorem lowercaseAfter_append_left (before more s : Text) : lowercaseAfter (before ++ d :: more) s = lowercaseAfter before s := by
  induction s generalizing before with
  | nil => rfl
  | cons c s ih =>
    rw [lowercaseAfter_cons, lowercaseAfter_cons, lowerBetween_append_left stops, ← ih (c :: before), List.cons_append]

theorem lowercaseAfter_append (before s t : Text) : lowercaseAfter before (s ++ d :: t) =
    lowercaseAfter before s ++ lowerBetween (s.reverse ++ before) d t ++ lowercase t := by
  induction s generalizing before with
  | nil =>
    have apart : lowercaseAfter (d :: before) t = lowercase t := lowercaseAfter_append_left stops [] before t
    rw [List.nil_append, lowercaseAfter_cons, apart]
    rfl
  | cons c s ih =>
    rw [List.cons_append, lowercaseAfter_cons, lowercaseAfter_cons, lowerBetween_append_right stops, ih]
    simp

/-- A text is lower-cased part by part on both sides of the end of a word. -/
theorem lowercase_append (s t : Text) : lowercase (s ++ d :: t) = lowercase s ++ lowerChar d ++ lowercase t := by
  have plain : d ≠ 'Σ' := by
    rintro rfl
    exact absurd stops.2 (by decide +kernel)
  rw [lowercase, lowercaseAfter_append stops, lowerBetween, if_neg plain]
  rfl

end

/-! ## Characters that only stand for themselves -/

/-- Every run of counterparts begins at a small letter or later and holds characters only. -/
theorem caseRows_image : ∀ r ∈ caseRows, 0x61 ≤ r.image ∧
    (r.image + (r.last - r.first) < 0xD800 ∨ 0xDFFF < r.image ∧ r.image + (r.last - r.first) < 0x110000) := by
  decide +kernel

theorem CaseRow.le_of_covers (r : CaseRow) {n : Nat} (covered : r.covers n) : r.first ≤ n ∧ n ≤ r.last := by
  simp only [covers, Bool.and_eq_true, decide_eq_true_eq] at covered
  exact covered.1

/-- The counterpart of a code point is another character from the small letters on, or the code point itself. -/
theorem lowerPoint_cases (n : Nat) : lowerPoint n = n ∨ 0x61 ≤ lowerPoint n ∧
    (lowerPoint n < 0xD800 ∨ 0xDFFF < lowerPoint n ∧ lowerPoint n < 0x110000) := by
  unfold lowerPoint
  split
  · next r found =>
    obtain ⟨small,valid⟩ := caseRows_image r (List.mem_of_find?_eq_some found)
    have covered := List.find?_some found
    have bounds := r.le_of_covers covered
    omega
  · exact .inl rfl

theorem toNat_ofNat_lowerPoint (c : Char) : (Char.ofNat (lowerPoint c.toNat)).toNat = lowerPoint c.toNat := by
  rcases lowerPoint_cases c.toNat with own | ⟨_,valid⟩
  · rw [own, Char.ofNat_toNat]
  · exact Utf8.toNat_ofNat_of_valid valid

/-- Two characters have a lower-case form of their own kind, all others go to their counterpart. -/
theorem lowerBetween_cases (before : Text) (c : Char) (after : Text) :
    (c = 'Σ' ∧ (lowerBetween before c after = ['ς'] ∨ lowerBetween before c after = ['σ'])) ∨
    (c = 'İ' ∧ lowerBetween before c after = ['i', '\u0307']) ∨
    (c ≠ 'İ' ∧ lowerBetween before c after = [Char.ofNat (lowerPoint c.toNat)]) := by
  unfold lowerBetween lowerChar
  by_cases sigma : c = 'Σ'
  · rw [if_pos sigma]
    refine .inl ⟨sigma,?_⟩
    split
    · exact .inl rfl
    · exact .inr rfl
  rw [if_neg sigma]
  by_cases dotted : c = 'İ'
  · rw [if_pos dotted]
    exact .inr (.inl ⟨dotted,rfl⟩)
  · rw [if_neg dotted]
    exact .inr (.inr ⟨dotted,rfl⟩)

/-- A character below the small letters of ASCII is in the lower-case form of itself alone, which holds nothing else. -/
theorem eq_of_mem_lowerBetween {before after : Text} {c d : Char} (low : d.toNat < 0x61)
    (member : d ∈ lowerBetween before c after) : c = d ∧ lowerBetween before c after = [d] := by
  rcases lowerBetween_cases before c after with ⟨_,form | form⟩ | ⟨_,form⟩ | ⟨_,form⟩
  · rw [form, List.mem_singleton] at member
    exact absurd (member ▸ low) (by decide)
  · rw [form, List.mem_singleton] at member
    exact absurd (member ▸ low) (by decide)
  · simp only [form, List.mem_cons, List.not_mem_nil, or_false] at member
    rcases member with rfl | rfl <;> exact absurd low (by decide)
  · rw [form, List.mem_singleton] at member
    have number : d.toNat = lowerPoint c.toNat := by rw [member, toNat_ofNat_lowerPoint]
    rcases lowerPoint_cases c.toNat with own | ⟨small,_⟩
    · rw [own, Char.ofNat_toNat] at member
      rw [form, own, Char.ofNat_toNat]
      exact ⟨member.symm,by rw [member]⟩
    · omega

theorem lowerBetween_ne_nil (before : Text) (c : Char) (after : Text) : lowerBetween before c after ≠ [] := by
  rcases lowerBetween_cases before c after with ⟨_,form | form⟩ | ⟨_,form⟩ | ⟨_,form⟩ <;> simp [form]

/-- Below the small letters of ASCII the lower-case form of a text holds nothing that the text does not hold. -/
theorem mem_of_mem_lowercaseAfter {before s : Text} {d : Char} (low : d.toNat < 0x61)
    (member : d ∈ lowercaseAfter before s) : d ∈ s := by
  induction s generalizing before with
  | nil => cases member
  | cons c s ih =>
    rw [lowercaseAfter_cons] at member
    rcases List.mem_append.1 member with here | later
    · exact (eq_of_mem_lowerBetween low here).1 ▸ List.mem_cons_self
    · exact List.mem_cons_of_mem c (ih later)

/-- A text whose lower-case form stays below the small letters is that form already. -/
theorem lowercaseAfter_eq_self {before s : Text} (low : ∀ d ∈ lowercaseAfter before s, d.toNat < 0x61) :
    lowercaseAfter before s = s := by
  induction s generalizing before with
  | nil => rfl
  | cons c s ih =>
    rw [lowercaseAfter_cons] at low ⊢
    obtain ⟨d,here⟩ := List.exists_mem_of_ne_nil _ (lowerBetween_ne_nil before c s)
    obtain ⟨rfl,alone⟩ := eq_of_mem_lowerBetween (low d (List.mem_append_left _ here)) here
    rw [alone, ih fun x later => low x (List.mem_append_right _ later), List.singleton_append]

/-! ## What becomes ASCII -/

/-- Outside ASCII only the Kelvin sign has its counterpart there. -/
theorem caseRows_image_ascii : ∀ r ∈ caseRows,
    r.last < 0x80 ∨ 0x80 ≤ r.image ∨ r.first = '\u212A'.toNat ∧ r.last = r.first ∧ r.image = 'k'.toNat := by
  decide +kernel

theorem lowerPoint_of_high {n : Nat} (high : 0x80 ≤ n) : 0x80 ≤ lowerPoint n ∨ lowerPoint n = 'k'.toNat := by
  unfold lowerPoint
  split
  · next r found =>
    have covered := List.find?_some found
    have bounds := r.le_of_covers covered
    have image := caseRows_image_ascii r (List.mem_of_find?_eq_some found)
    omega
  · exact .inl high

/-- The Kelvin sign. -/
example : lowerPoint 0x212A = 'k'.toNat := by decide +kernel

/-- The lower-case form of a character outside ASCII holds another one, or it is a `k`. -/
theorem exists_mem_lowerBetween {c : Char} (high : 0x80 ≤ c.toNat) (before after : Text) :
    ∃ d ∈ lowerBetween before c after, 0x80 ≤ d.toNat ∨ d = 'k' := by
  rcases lowerBetween_cases before c after with ⟨_,form | form⟩ | ⟨_,form⟩ | ⟨_,form⟩
  · exact ⟨'ς',by simp [form],.inl (by decide)⟩
  · exact ⟨'σ',by simp [form],.inl (by decide)⟩
  · exact ⟨'\u0307',by simp [form],.inl (by decide)⟩
  · refine ⟨_,form ▸ List.mem_singleton_self _,?_⟩
    rw [← Char.toNat_inj, toNat_ofNat_lowerPoint]
    exact lowerPoint_of_high high

theorem ascii_of_lowercaseAfter {before s : Text} (plain : ∀ d ∈ lowercaseAfter before s, d.toNat < 0x80 ∧ d ≠ 'k') :
    ∀ c ∈ s, c.toNat < 0x80 := by
  induction s generalizing before with
  | nil => simp
  | cons c s ih =>
    rw [lowercaseAfter_cons] at plain
    refine List.forall_mem_cons.2 ⟨?_,ih fun d later => plain d (List.mem_append_right _ later)⟩
    apply Nat.lt_of_not_le
    intro high
    obtain ⟨d,here,outside⟩ := exists_mem_lowerBetween high before s
    obtain ⟨low,other⟩ := plain d (List.mem_append_left _ here)
    rcases outside with outside | same
    · omega
    · exact other same

theorem lowercaseAfter_of_ascii {s : Text} (ascii : ∀ c ∈ s, c.toNat < 0x80) (before : Text) :
    lowercaseAfter before s = s.map Char.toLower := by
  induction s generalizing before with
  | nil => rfl
  | cons c s ih =>
    obtain ⟨low,later⟩ := List.forall_mem_cons.1 ascii
    have plain : c ≠ 'Σ' := by
      rintro rfl
      exact absurd low (by decide)
    rw [lowercaseAfter_cons, lowerBetween, if_neg plain, lowerChar_of_lt low, ih later, List.map_cons, List.singleton_append]

/-- What is lower-cased to a text of ASCII without a `k` is of ASCII itself, and differs from it in capital letters at most. -/
theorem lowercase_eq_iff {s t : Text} (plain : ∀ d ∈ t, d.toNat < 0x80 ∧ d ≠ 'k') :
    lowercase s = t ↔ (∀ c ∈ s, c.toNat < 0x80) ∧ s.map Char.toLower = t := by
  constructor
  · rintro rfl
    have ascii := ascii_of_lowercaseAfter plain
    exact ⟨ascii,(lowercaseAfter_of_ascii ascii []).symm⟩
  · rintro ⟨ascii,rfl⟩
    exact lowercaseAfter_of_ascii ascii []

/-! ## Numbers held against each other all at once -/

/-- The number whose binary digits are ones at some places. -/
def onesAt (places : List Nat) : Nat := places.foldr (fun n ones => 1 <<< n ||| ones) 0

theorem testBit_onesAt {places : List Nat} {n : Nat} (member : n ∈ places) : (onesAt places).testBit n := by
  induction places with
  | nil => cases member
  | cons m places ih =>
    rw [onesAt, List.foldr_cons, Nat.testBit_or]
    rcases List.mem_cons.1 member with rfl | later
    · simp
    · rw [← onesAt, ih later, Bool.or_true]

theorem notMem_of_onesAt {places others : List Nat} (apart : onesAt places &&& onesAt others = 0) {n : Nat}
    (member : n ∈ places) : n ∉ others := by
  intro common
  have both : (onesAt places &&& onesAt others).testBit n := by
    rw [Nat.testBit_and, testBit_onesAt member, testBit_onesAt common, Bool.and_true]
  rw [apart, Nat.zero_testBit] at both
  cases both

/-! ## Lower-casing again -/

namespace CaseRow

variable (r : CaseRow)

/-- How many steps each code point of the run is away from the first one. -/
def offsets : List Nat := List.range ((r.last - r.first) / r.step + 1)

def points : List Nat := r.offsets.map fun k => r.first + r.step * k

def images : List Nat := r.offsets.map fun k => r.image + r.step * k

variable {r}

theorem exists_offset {n : Nat} (covered : r.covers n) : ∃ k ∈ r.offsets, n - r.first = r.step * k := by
  have bounds := r.le_of_covers covered
  simp only [covers, Bool.and_eq_true, beq_iff_eq] at covered
  refine ⟨(n - r.first) / r.step,?_,(Nat.mul_div_cancel' (Nat.dvd_of_mod_eq_zero covered.2)).symm⟩
  rw [offsets, List.mem_range, Nat.lt_succ_iff]
  exact Nat.div_le_div_right (by omega)

theorem mem_points {n : Nat} (covered : r.covers n) : n ∈ r.points := by
  obtain ⟨k,member,steps⟩ := exists_offset covered
  have bounds := r.le_of_covers covered
  exact List.mem_map.2 ⟨k,member,by omega⟩

theorem mem_images {n : Nat} (covered : r.covers n) : r.image + (n - r.first) ∈ r.images := by
  obtain ⟨k,member,steps⟩ := exists_offset covered
  exact List.mem_map.2 ⟨k,member,by rw [steps]⟩

end CaseRow

/-- No counterpart has a counterpart itself, be it one with two characters. -/
theorem caseRows_apart :
    onesAt ('İ'.toNat :: caseRows.flatMap CaseRow.points) &&& onesAt (caseRows.flatMap CaseRow.images) = 0 := by
  decide +kernel

theorem lowerPoint_of_uncovered {n : Nat} (uncovered : ∀ r ∈ caseRows, ¬ r.covers n) : lowerPoint n = n := by
  rw [lowerPoint, List.find?_eq_none.2 uncovered]

/-- A code point other than the capital dotted I goes to one that goes to itself and is not that I either. -/
theorem lowerPoint_settles {n : Nat} (plain : n ≠ 'İ'.toNat) :
    lowerPoint n ≠ 'İ'.toNat ∧ lowerPoint (lowerPoint n) = lowerPoint n := by
  cases found : caseRows.find? (·.covers n) with
  | none =>
    have own : lowerPoint n = n := lowerPoint_of_uncovered (List.find?_eq_none.1 found)
    rw [own]
    exact ⟨plain,own⟩
  | some r =>
    have image : lowerPoint n = r.image + (n - r.first) := by rw [lowerPoint, found]
    have covered : r.covers n := by simpa using List.find?_some found
    have reached : lowerPoint n ∈ caseRows.flatMap CaseRow.images := by
      rw [image]
      exact List.mem_flatMap.2 ⟨r,List.mem_of_find?_eq_some found,CaseRow.mem_images covered⟩
    have apart {m : Nat} (member : m ∈ 'İ'.toNat :: caseRows.flatMap CaseRow.points) : m ≠ lowerPoint n := by
      rintro rfl
      exact notMem_of_onesAt caseRows_apart member reached
    refine ⟨(apart List.mem_cons_self).symm,lowerPoint_of_uncovered fun s row covered => ?_⟩
    exact apart (List.mem_cons_of_mem _ (List.mem_flatMap.2 ⟨s,row,CaseRow.mem_points covered⟩)) rfl

/-- A character that is its own lower-case form wherever it stands. -/
def IsLower (c : Char) : Prop := c ≠ 'Σ' ∧ lowerChar c = [c]

/-- The lower-case form of a character consists of such ones. -/
theorem isLower_of_mem_lowerBetween {before after : Text} {c d : Char} (member : d ∈ lowerBetween before c after) :
    IsLower d := by
  rcases lowerBetween_cases before c after with ⟨_,form | form⟩ | ⟨_,form⟩ | ⟨other,form⟩
  · rw [form, List.mem_singleton] at member
    exact member ▸ ⟨by decide,by decide +kernel⟩
  · rw [form, List.mem_singleton] at member
    exact member ▸ ⟨by decide,by decide +kernel⟩
  · simp only [form, List.mem_cons, List.not_mem_nil, or_false] at member
    rcases member with rfl | rfl
    · exact ⟨by decide,by decide +kernel⟩
    · exact ⟨by decide,by decide +kernel⟩
  · rw [form, List.mem_singleton] at member
    obtain ⟨plain,settled⟩ := lowerPoint_settles fun same => other (Char.toNat_inj.1 same)
    have number : d.toNat = lowerPoint c.toNat := by rw [member, toNat_ofNat_lowerPoint]
    rw [← number] at plain settled
    constructor
    · rintro rfl
      exact absurd settled (by decide +kernel)
    · rw [lowerChar, if_neg fun same => plain (congrArg Char.toNat same), settled, Char.ofNat_toNat]

theorem isLower_of_mem_lowercaseAfter {before s : Text} {d : Char} (member : d ∈ lowercaseAfter before s) : IsLower d := by
  induction s generalizing before with
  | nil => cases member
  | cons c s ih =>
    rw [lowercaseAfter_cons] at member
    rcases List.mem_append.1 member with here | later
    · exact isLower_of_mem_lowerBetween here
    · exact ih later

theorem lowercaseAfter_of_isLower {s : Text} (lower : ∀ c ∈ s, IsLower c) (before : Text) : lowercaseAfter before s = s := by
  induction s generalizing before with
  | nil => rfl
  | cons c s ih =>
    obtain ⟨plain,own⟩ := lower c List.mem_cons_self
    rw [lowercaseAfter_cons, lowerBetween, if_neg plain, own, ih fun d later => lower d (List.mem_cons_of_mem c later),
      List.singleton_append]

/-- A text in lower case stays as it is when it is lower-cased again. -/
@[simp] theorem lowercase_lowercase (s : Text) : lowercase (lowercase s) = lowercase s :=
  lowercaseAfter_of_isLower (fun _ member => isLower_of_mem_lowercaseAfter member) []

end ParamTidy
