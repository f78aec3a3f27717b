import ParamTidy.Encoding
import ParamTidy.Proofs.FormFree
import ParamTidy.Text.Utf8.RoundTrip

/-!
# Reading UTF-8 one byte at a time

What one of the one-byte encodings makes of a text in UTF-8 holds a form only if the text does (`holdsForm_of_misread`): the
bytes that follow the first one of a character may be read as blanks, but that first one never is.
-/

namespace ParamTidy

/-- How bytes are read one by one: those of ASCII as themselves, the others as no opening parenthesis, and the first byte of a
longer character as nothing that has a place in a form. -/
structure ReadsBytewise (read : UInt8 → Char) : Prop where
  ascii : ∀ b, b.toNat < 0x80 → read b = Char.ofNat b.toNat
  high : ∀ b, 0x80 ≤ b.toNat → read b ≠ '('
  lead : ∀ b, 0xC0 ≤ b.toNat → isInner (read b) = false ∧ read b ≠ ')'

/-- What holds of every octet holds of every byte. -/
theorem octet_forall {P : UInt8 → Prop} (h : ∀ n < 256, P (.ofNat n)) (b : UInt8) : P b := by
  have := h b.toNat b.toNat_lt
  rwa [UInt8.ofNat_toNat] at this

theorem readsBytewise_latin1Char : ReadsBytewise Encoding.latin1Char where
  ascii := fun _ _ => rfl
  high := octet_forall (by decide +kernel)
  lead := octet_forall (by decide +kernel)

theorem readsBytewise_windows1252Char : ReadsBytewise Encoding.windows1252Char where
  ascii := fun b low => by rw [Encoding.windows1252Char, if_neg (by omega), Encoding.latin1Char]
  high := octet_forall (by decide +kernel)
  lead := octet_forall (by decide +kernel)

theorem Utf8.encodeChar_ascii {c : Char} (low : c.toNat < 0x80) : encodeChar c = [.ofNat c.toNat] := by
  simp [encodeChar, low]

theorem Utf8.encodeChar_high {c : Char} (high : 0x80 ≤ c.toNat) :
    ∃ lead tail, encodeChar c = lead :: tail ∧ 0xC0 ≤ lead.toNat ∧ ∀ b ∈ tail, 0x80 ≤ b.toNat := by
  have valid := toNat_bounds c
  unfold encodeChar
  simp only [show ¬ c.toNat < 0x80 by omega, if_false]
  split
  · refine ⟨_,_,rfl,?_,?_⟩
    · rw [toNat_ofNat_octet (by omega)]; omega
    · intro b member
      simp only [List.mem_singleton] at member
      subst member
      rw [toNat_ofNat_octet (by omega)]; omega
  · split
    · refine ⟨_,_,rfl,?_,?_⟩
      · rw [toNat_ofNat_octet (by omega)]; omega
      · intro b member
        simp only [List.mem_cons, List.not_mem_nil, or_false] at member
        rcases member with rfl | rfl <;> rw [toNat_ofNat_octet (by omega)] <;> omega
    · refine ⟨_,_,rfl,?_,?_⟩
      · rw [toNat_ofNat_octet (by omega)]; omega
      · intro b member
        simp only [List.mem_cons, List.not_mem_nil, or_false] at member
        rcases member with rfl | rfl | rfl <;> rw [toNat_ofNat_octet (by omega)] <;> omega

section
variable {read : UInt8 → Char} (bytewise : ReadsBytewise read)
include bytewise

theorem map_encode_ascii {c : Char} (low : c.toNat < 0x80) (s : Text) :
    (Utf8.encode (c :: s)).map read = c :: (Utf8.encode s).map read := by
  have octet : (UInt8.ofNat c.toNat).toNat = c.toNat := Utf8.toNat_ofNat_octet (by omega)
  rw [Utf8.encode_cons, Utf8.encodeChar_ascii low, List.map_append, List.map_singleton,
    bytewise.ascii _ (by omega), octet, Char.ofNat_toNat, List.singleton_append]

theorem map_encode_high {c : Char} (high : 0x80 ≤ c.toNat) (s : Text) :
    ∃ lead tail, (Utf8.encode (c :: s)).map read = lead :: tail ++ (Utf8.encode s).map read
      ∧ isInner lead = false ∧ lead ≠ ')' ∧ '(' ∉ lead :: tail := by
  obtain ⟨b,bytes,written,first,later⟩ := Utf8.encodeChar_high high
  have apart := bytewise.lead b first
  refine ⟨read b,bytes.map read,by rw [Utf8.encode_cons, written, List.map_append, List.map_cons],apart.1,apart.2,?_⟩
  intro member
  rcases List.mem_cons.1 member with same | member
  · exact bytewise.high b (by omega) same.symm
  · obtain ⟨b',member,same⟩ := List.mem_map.1 member
    exact bytewise.high b' (later b' member) same

/-- What may stand in a form, up to a closing parenthesis, is no misreading: it stands in the text, and all of it is ASCII. -/
theorem ascii_of_misread {s w rest : Text} (inner : ∀ c ∈ w, isInner c)
    (misread : (Utf8.encode s).map read = w ++ ')' :: rest) :
    (∀ c ∈ w, c.toNat < 0x80) ∧ ∃ tail, s = w ++ ')' :: tail := by
  induction s generalizing w with
  | nil => simp at misread
  | cons c s ih =>
    by_cases low : c.toNat < 0x80
    · rw [map_encode_ascii bytewise low] at misread
      cases w with
      | nil =>
        simp only [List.nil_append, List.cons.injEq] at misread
        exact ⟨nofun,s,by simp [misread.1]⟩
      | cons d w =>
        simp only [List.cons_append, List.cons.injEq] at misread
        obtain ⟨ascii,tail,same⟩ := ih (fun x member => inner x (List.mem_cons_of_mem _ member)) misread.2
        exact ⟨List.forall_mem_cons.2 ⟨misread.1 ▸ low,ascii⟩,tail,by rw [misread.1, same, List.cons_append]⟩
    · obtain ⟨lead,tail,written,apart,notClosing,_⟩ := map_encode_high bytewise (Nat.le_of_not_lt low) s
      rw [written] at misread
      cases w with
      | nil =>
        simp only [List.cons_append, List.nil_append, List.cons.injEq] at misread
        exact absurd misread.1 notClosing
      | cons d w =>
        simp only [List.cons_append, List.cons.injEq] at misread
        have := inner d (by simp)
        rw [← misread.1, apart] at this
        cases this

/-- A misread text holds no form that the text does not hold. -/
theorem holdsForm_of_misread {s : Text} (holds : HoldsForm ((Utf8.encode s).map read)) : HoldsForm s := by
  induction s with
  | nil => exact absurd holds holdsForm_nil
  | cons c s ih =>
    by_cases low : c.toNat < 0x80
    · rw [map_encode_ascii bytewise low] at holds
      by_cases paren : c = '('
      · subst paren
        cases found : afterForm? ((Utf8.encode s).map read) with
        | none => exact (ih ((holdsForm_opening found).1 holds)).cons _
        | some rest =>
          obtain ⟨inside,isInside,same⟩ := afterForm?_eq_some_iff.1 found
          obtain ⟨_,tail,same⟩ := ascii_of_misread bytewise isInside.isInner same
          exact holdsForm_form (afterForm?_eq_some_iff.2 ⟨inside,isInside,same⟩)
      · exact (ih ((holdsForm_other paren).1 holds)).cons c
    · obtain ⟨lead,tail,written,_,_,flat⟩ := map_encode_high bytewise (Nat.le_of_not_lt low) s
      rw [written, holdsForm_append flat] at holds
      exact (ih holds).cons c

end

/-- Whichever encoding a text in UTF-8 is read in, no form appears that it does not hold. -/
theorem holdsForm_of_decode? {e : Encoding} {s t : Text} (read : e.decode? (Utf8.encode s) = some t)
    (holds : HoldsForm t) : HoldsForm s := by
  cases e with
  | utf8 =>
    rw [Encoding.decode?, Utf8.decode?_encode, Option.some.injEq] at read
    rwa [read]
  | latin1 =>
    rw [Encoding.decode?, Option.some.injEq] at read
    exact holdsForm_of_misread readsBytewise_latin1Char (read ▸ holds)
  | windows1252 =>
    rw [Encoding.decode?, Option.some.injEq] at read
    exact holdsForm_of_misread readsBytewise_windows1252Char (read ▸ holds)

/-- No encoding refuses a text in UTF-8. -/
theorem decode?_encode_isSome (e : Encoding) (s : Text) : ∃ t, e.decode? (Utf8.encode s) = some t := by
  cases e with
  | utf8 => exact ⟨s,Utf8.decode?_encode s⟩
  | latin1 => exact ⟨_,rfl⟩
  | windows1252 => exact ⟨_,rfl⟩

end ParamTidy
