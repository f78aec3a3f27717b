import ParamTidy.Proofs.Decoding
import ParamTidy.Proofs.Occurrences

/-!
# Forms that a misreading shows

A text in UTF-8 that is read one byte at a time shows those of its forms that are ASCII throughout, each where its bytes begin,
and no others (`formsOf_misread`). A form with a character outside ASCII in it, a blank or a dotless i, is one no longer
(`misreading_shows_ascii_forms`).
-/

namespace ParamTidy

/-- The forms of a text without a character outside ASCII. -/
def asciiFormsOf (s : Text) : Set Stretch := {o | o ∈ formsOf s ∧ ∀ c ∈ o.text, c.toNat < 0x80}

/-- Where a stretch of a text without a character outside ASCII stands among the bytes of the text. -/
def Stretch.inBytes (s : Text) (o : Stretch) : Stretch := { o with start := (Utf8.encode (s.take o.start)).length }

/-! ## Characters among bytes -/

theorem Utf8.encode_take_append_drop (s : Text) (n : Nat) : encode (s.take n) ++ encode (s.drop n) = encode s := by
  rw [← encode_append, List.take_append_drop]

/-- Bytes before a character tell how many characters they are. -/
theorem Utf8.eq_of_length_encode_take {s : Text} {m n : Nat} (inside : m ≤ s.length) (inside' : n ≤ s.length)
    (same : (encode (s.take m)).length = (encode (s.take n)).length) : m = n := by
  have split := (encode_take_append_drop s m).trans (encode_take_append_drop s n).symm
  have bytes := (List.append_inj split same).1
  have texts := congrArg decode? bytes
  rw [decode?_encode, decode?_encode, Option.some.injEq] at texts
  simpa [inside, inside'] using congrArg List.length texts

section
variable {read : UInt8 → Char} (bytewise : ReadsBytewise read)

theorem drop_misread (s : Text) (n : Nat) :
    ((Utf8.encode s).map read).drop (Utf8.encode (s.take n)).length = (Utf8.encode (s.drop n)).map read := by
  rw [← Utf8.encode_take_append_drop s n, List.map_append, List.drop_left' (by simp)]

include bytewise

theorem map_encode_append_ascii {w : Text} (ascii : ∀ c ∈ w, c.toNat < 0x80) (s : Text) :
    (Utf8.encode (w ++ s)).map read = w ++ (Utf8.encode s).map read := by
  induction w with
  | nil => rfl
  | cons c w ih =>
    rw [List.cons_append, map_encode_ascii bytewise (ascii c (by simp)),
      ih fun d member => ascii d (List.mem_cons_of_mem _ member), List.cons_append]

/-- What is read as an opening parenthesis is the first byte of a character. -/
theorem exists_of_opening {s : Text} {i : Nat} (opens : ((Utf8.encode s).map read)[i]? = some '(') :
    ∃ n, i = (Utf8.encode (s.take n)).length := by
  induction s generalizing i with
  | nil => simp at opens
  | cons c s ih =>
    by_cases low : c.toNat < 0x80
    · cases i with
      | zero => exact ⟨0,rfl⟩
      | succ i =>
        rw [map_encode_ascii bytewise low, List.getElem?_cons_succ] at opens
        obtain ⟨n,rfl⟩ := ih opens
        exact ⟨n + 1,by simp [Utf8.encodeChar_ascii low, Nat.add_comm]⟩
    · obtain ⟨lead,tail,written,_,_,flat⟩ := map_encode_high bytewise (Nat.le_of_not_lt low) s
      have length : (lead :: tail).length = (Utf8.encodeChar c).length := by
        have := congrArg List.length written
        simp only [Utf8.encode_cons, List.length_map, List.length_append] at this ⊢
        omega
      rw [written] at opens
      by_cases within : i < (lead :: tail).length
      · rw [List.getElem?_append_left within] at opens
        exact absurd (List.mem_of_getElem? opens) flat
      · rw [List.getElem?_append_right (Nat.le_of_not_lt within)] at opens
        obtain ⟨n,same⟩ := ih opens
        refine ⟨n + 1,?_⟩
        simp only [List.take_succ_cons, Utf8.encode_cons, List.length_append]
        omega

/-! ## Forms among bytes -/

/-- At the head of a text exactly the forms that are ASCII are read as forms. -/
theorem prefix_misread_iff {f s : Text} (isForm : IsForm f) :
    f <+: (Utf8.encode s).map read ↔ (∀ c ∈ f, c.toNat < 0x80) ∧ f <+: s := by
  constructor
  · rintro ⟨rest,misread⟩
    obtain ⟨inside,isInside,rfl⟩ := isForm
    cases s with
    | nil => simp at misread
    | cons c s =>
      have low : c.toNat < 0x80 := by
        apply Classical.byContradiction
        intro high
        obtain ⟨lead,tail,written,_,_,flat⟩ := map_encode_high bytewise (Nat.le_of_not_lt high) s
        rw [written, List.cons_append, List.cons_append, List.cons_append, List.cons.injEq] at misread
        exact flat (misread.1 ▸ List.mem_cons_self)
      rw [map_encode_ascii bytewise low] at misread
      simp only [List.cons_append, List.append_assoc, List.nil_append, List.cons.injEq] at misread
      obtain ⟨rfl,misread⟩ := misread
      obtain ⟨ascii,tail,rfl⟩ := ascii_of_misread bytewise isInside.isInner misread.symm
      refine ⟨?_,tail,by simp⟩
      simp only [List.cons_append, List.mem_cons, List.mem_append, List.not_mem_nil, or_false]
      rintro d (rfl | member | rfl)
      · decide
      · exact ascii d member
      · decide
  · rintro ⟨ascii,rest,rfl⟩
    exact ⟨_,(map_encode_append_ascii bytewise ascii rest).symm⟩

/-- The forms that a misread text shows are those of the text that are ASCII, each where its bytes begin. -/
theorem formsOf_misread (s : Text) : formsOf ((Utf8.encode s).map read) = Stretch.inBytes s '' asciiFormsOf s := by
  ext o
  constructor
  · intro member
    obtain ⟨n,starts⟩ := exists_of_opening bytewise (getElem?_start_of_mem_formsOf member)
    have begins := member.2
    rw [starts, drop_misread, prefix_misread_iff bytewise member.1] at begins
    refine ⟨⟨n,o.text⟩,⟨⟨member.1,begins.2⟩,begins.1⟩,?_⟩
    ext1
    · exact starts.symm
    · rfl
  · rintro ⟨o,⟨⟨isForm,begins⟩,ascii⟩,rfl⟩
    refine ⟨isForm,?_⟩
    rw [Stretch.inBytes, drop_misread]
    exact (prefix_misread_iff bytewise isForm).2 ⟨ascii,begins⟩

end

theorem inBytes_injOn (s : Text) : Set.InjOn (Stretch.inBytes s) (asciiFormsOf s) := by
  have within (o : Stretch) (member : o ∈ asciiFormsOf s) : o.start ≤ s.length :=
    Nat.le_of_lt (List.getElem?_eq_some_iff.1 (getElem?_start_of_mem_formsOf member.1)).1
  intro o member o' member' same
  obtain ⟨starts,texts⟩ := Stretch.mk.inj same
  ext1
  · exact Utf8.eq_of_length_encode_take (within o member) (within o' member') starts
  · exact texts

/-- The encodings that read one byte at a time accept every text in UTF-8, and what they make of it holds the forms of the text
that are ASCII throughout, each where its bytes begin, and no others. As many forms are counted in it, so none at all if the
text holds none. -/
theorem misreading_shows_ascii_forms {e : Encoding} (single : e ≠ .utf8) (s : Text) :
    ∃ t, e.decode? (Utf8.encode s) = some t ∧ formsOf t = Stretch.inBytes s '' asciiFormsOf s ∧
      (simplify t).count = (asciiFormsOf s).encard ∧ (¬ HoldsForm s → ¬ HoldsForm t) := by
  obtain ⟨read,_,bytewise,reads⟩ := Encoding.decode?_eq_map single
  have forms := formsOf_misread bytewise s
  refine ⟨_,reads _,forms,?_,mt (holdsForm_of_misread bytewise)⟩
  rw [← encard_formsOf, forms, (inBytes_injOn s).encard_image]

/-- Of four forms only the one between is shown in which nothing but ASCII stands: the others hold a line break or a blank
outside ASCII, of which the second byte is a blank for itself, or a dotless i. -/
theorem sample_misreading_shows_ascii_forms : Encoding.latin1 ≠ .utf8 ∧
    (simplify "(\u0085)(voıd)é( void\t)(\u00A0)".toList).count = 4 ∧
    (asciiFormsOf "(\u0085)(voıd)é( void\t)(\u00A0)".toList).encard = 1 ∧
    ∃ t, Encoding.latin1.decode? (Utf8.encode "(\u0085)(voıd)é( void\t)(\u00A0)".toList) = some t ∧
      ⟨13,"( void\t)".toList⟩ ∈ formsOf t := by
  have single : Encoding.latin1 ≠ .utf8 := by decide
  obtain ⟨t,read,forms,counted,_⟩ := misreading_shows_ascii_forms single "(\u0085)(voıd)é( void\t)(\u00A0)".toList
  have one : (simplify t).count = 1 := by
    obtain rfl := Option.some.inj read
    decide +kernel
  have isForm : IsForm "( void\t)".toList :=
    ⟨[' '] ++ "void".toList ++ ['\t'],.word (List.forall_mem_singleton.2 (by decide)) (by decide)
      (List.forall_mem_singleton.2 (by decide)),rfl⟩
  refine ⟨single,by decide +kernel,?_,t,read,?_⟩
  · rw [← counted, one]
    rfl
  · rw [forms]
    exact ⟨⟨10,"( void\t)".toList⟩,⟨⟨isForm,"(\u00A0)".toList,rfl⟩,by simp⟩,rfl⟩

end ParamTidy
