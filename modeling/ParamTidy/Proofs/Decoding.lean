import Mathlib.Data.List.TakeWhile
import ParamTidy.Proofs.Tidying

/-!
# What decoding accepts and what it keeps

Well-formed UTF-8 is said of the bytes alone: bit patterns one after the other, each no longer than needed for the number of a
character (`IsWellFormed`). UTF-8 reads such bytes and no others, the one-byte encodings read any, and in each of the three
encodings the text tells the bytes (`decoding_lossless`). So a chain of encodings comes to its first one or to the first that
is not UTF-8, and notes each UTF-8 in front of that (`chain_settles`).
-/

namespace ParamTidy

namespace Utf8

/-! ## Bit patterns -/

/-- A byte that goes on with a character. -/
def IsTrail (b : UInt8) : Prop := 0x80 ≤ b.toNat ∧ b.toNat ≤ 0xBF

/-- The bit patterns of UTF-8, each with the number that its open bits make up. -/
inductive Pattern : Bytes → Nat → Prop
  | one {a : UInt8} (lead : a.toNat ≤ 0x7F) : Pattern [a] a.toNat
  | two {a b : UInt8} (lead : 0xC0 ≤ a.toNat ∧ a.toNat ≤ 0xDF) (second : IsTrail b) :
      Pattern [a, b] ((a.toNat - 0xC0) * 64 + (b.toNat - 0x80))
  | three {a b c : UInt8} (lead : 0xE0 ≤ a.toNat ∧ a.toNat ≤ 0xEF) (second : IsTrail b) (third : IsTrail c) :
      Pattern [a, b, c] ((a.toNat - 0xE0) * 4096 + (b.toNat - 0x80) * 64 + (c.toNat - 0x80))
  | four {a b c d : UInt8} (lead : 0xF0 ≤ a.toNat ∧ a.toNat ≤ 0xF7) (second : IsTrail b) (third : IsTrail c)
      (fourth : IsTrail d) :
      Pattern [a, b, c, d]
        ((a.toNat - 0xF0) * 262144 + (b.toNat - 0x80) * 4096 + (c.toNat - 0x80) * 64 + (d.toNat - 0x80))

/-- Bytes spell the character of a number: no pattern with fewer bytes has that number, and it is no surrogate and not above
U+10FFFF. -/
structure Spells (bytes : Bytes) (n : Nat) : Prop where
  pattern : Pattern bytes n
  shortest : ∀ other, Pattern other n → bytes.length ≤ other.length
  notSurrogate : ¬ (0xD800 ≤ n ∧ n ≤ 0xDFFF)
  inRange : n ≤ 0x10FFFF

/-- Bytes that can be cut into spellings of characters, with nothing left over. -/
def IsWellFormed (bytes : Bytes) : Prop :=
  ∃ spellings : List Bytes, bytes = spellings.flatten ∧ ∀ s ∈ spellings, ∃ n, Spells s n

theorem Pattern.of_eq {bytes : Bytes} {m n : Nat} (pattern : Pattern bytes m) (same : m = n) : Pattern bytes n := same ▸ pattern

theorem isTrail_ofNat {n : Nat} (low : 0x80 ≤ n) (high : n ≤ 0xBF) : IsTrail (.ofNat n) := by
  rw [IsTrail, toNat_ofNat_octet (by omega)]
  exact ⟨low,high⟩

theorem pattern_encodeChar (c : Char) : Pattern (encodeChar c) c.toNat := by
  have valid := toNat_bounds c
  have back : Char.ofNat c.toNat = c := Char.ofNat_toNat c
  generalize c.toNat = n at valid back
  subst back
  by_cases one : n < 0x80
  · rw [encodeChar_one one]
    have octet := toNat_ofNat_octet (show n < 256 by omega)
    exact (Pattern.one (by omega)).of_eq octet
  by_cases two : n < 0x800
  · rw [encodeChar_two (by omega)]
    have first := toNat_ofNat_octet (show 0xC0 + n / 64 < 256 by omega)
    have second := toNat_ofNat_octet (show 0x80 + n % 64 < 256 by omega)
    exact (Pattern.two (by omega) (isTrail_ofNat (by omega) (by omega))).of_eq (by rw [first, second]; omega)
  by_cases three : n < 0x10000
  · rw [encodeChar_three (by omega) (by omega)]
    have first := toNat_ofNat_octet (show 0xE0 + n / 4096 < 256 by omega)
    have second := toNat_ofNat_octet (show 0x80 + n / 64 % 64 < 256 by omega)
    have third := toNat_ofNat_octet (show 0x80 + n % 64 < 256 by omega)
    exact (Pattern.three (by omega) (isTrail_ofNat (by omega) (by omega)) (isTrail_ofNat (by omega) (by omega))).of_eq
      (by rw [first, second, third]; omega)
  · rw [encodeChar_four (by omega)]
    have first := toNat_ofNat_octet (show 0xF0 + n / 262144 < 256 by omega)
    have second := toNat_ofNat_octet (show 0x80 + n / 4096 % 64 < 256 by omega)
    have third := toNat_ofNat_octet (show 0x80 + n / 64 % 64 < 256 by omega)
    have fourth := toNat_ofNat_octet (show 0x80 + n % 64 < 256 by omega)
    exact (Pattern.four (by omega) (isTrail_ofNat (by omega) (by omega)) (isTrail_ofNat (by omega) (by omega))
      (isTrail_ofNat (by omega) (by omega))).of_eq (by rw [first, second, third, fourth]; omega)

def width (n : Nat) : Nat := if n < 0x80 then 1 else if n < 0x800 then 2 else if n < 0x10000 then 3 else 4

theorem length_encodeChar (c : Char) : (encodeChar c).length = width c.toNat := by
  simp only [encodeChar, width]
  split
  · rfl
  split
  · rfl
  split <;> rfl

theorem Pattern.width_le {bytes : Bytes} {n : Nat} (pattern : Pattern bytes n) : width n ≤ bytes.length := by
  cases pattern with
  | one lead => grind [width]
  | two lead second => grind [width, IsTrail]
  | three lead second third => grind [width, IsTrail]
  | four lead second third fourth => grind [width]

theorem spells_encodeChar (c : Char) : Spells (encodeChar c) c.toNat where
  pattern := pattern_encodeChar c
  shortest := fun _ pattern => length_encodeChar c ▸ pattern.width_le
  notSurrogate := by
    have := toNat_bounds c
    omega
  inRange := by
    have := toNat_bounds c
    omega

theorem Spells.eq_encodeChar {bytes : Bytes} {n : Nat} (spells : Spells bytes n) : bytes = encodeChar (.ofNat n) := by
  obtain ⟨pattern,shortest,notSurrogate,inRange⟩ := spells
  have number : (Char.ofNat n).toNat = n := toNat_ofNat_of_valid (by omega)
  have short : bytes.length ≤ width n := by
    have short := shortest _ ((pattern_encodeChar (.ofNat n)).of_eq number)
    rwa [length_encodeChar, number] at short
  clear shortest number
  cases pattern with
  | one lead => rw [encodeChar_one (by omega), UInt8.ofNat_toNat]
  | @two a b lead second =>
    generalize number : (a.toNat - 0xC0) * 64 + (b.toNat - 0x80) = n at *
    have needed : 0x80 ≤ n := by grind [width]
    rw [IsTrail] at second
    rw [encodeChar_two (by omega), show 0xC0 + n / 64 = a.toNat by omega, show 0x80 + n % 64 = b.toNat by omega,
      UInt8.ofNat_toNat, UInt8.ofNat_toNat]
  | @three a b c lead second third =>
    generalize number : (a.toNat - 0xE0) * 4096 + (b.toNat - 0x80) * 64 + (c.toNat - 0x80) = n at *
    have needed : 0x800 ≤ n := by grind [width]
    rw [IsTrail] at second third
    rw [encodeChar_three (by omega) (by omega), show 0xE0 + n / 4096 = a.toNat by omega,
      show 0x80 + n / 64 % 64 = b.toNat by omega, show 0x80 + n % 64 = c.toNat by omega, UInt8.ofNat_toNat,
      UInt8.ofNat_toNat, UInt8.ofNat_toNat]
  | @four a b c d lead second third fourth =>
    generalize number : (a.toNat - 0xF0) * 262144 + (b.toNat - 0x80) * 4096 + (c.toNat - 0x80) * 64 + (d.toNat - 0x80) = n at *
    have needed : 0x10000 ≤ n := by grind [width]
    rw [IsTrail] at second third fourth
    rw [encodeChar_four (by omega), show 0xF0 + n / 262144 = a.toNat by omega,
      show 0x80 + n / 4096 % 64 = b.toNat by omega, show 0x80 + n / 64 % 64 = c.toNat by omega,
      show 0x80 + n % 64 = d.toNat by omega, UInt8.ofNat_toNat, UInt8.ofNat_toNat, UInt8.ofNat_toNat, UInt8.ofNat_toNat]

/-! ## Well-formed bytes -/

/-- Well-formed bytes are those that texts are written in. -/
theorem isWellFormed_iff {bytes : Bytes} : IsWellFormed bytes ↔ ∃ t, bytes = encode t := by
  constructor
  · rintro ⟨spellings,rfl,spelled⟩
    induction spellings with
    | nil => exact ⟨[],rfl⟩
    | cons s spellings ih =>
      obtain ⟨n,spells⟩ := spelled s (by simp)
      obtain ⟨t,rest⟩ := ih fun x member => spelled x (List.mem_cons_of_mem _ member)
      exact ⟨.ofNat n :: t,by rw [List.flatten_cons, rest, encode_cons, ← spells.eq_encodeChar]⟩
  · rintro ⟨t,rfl⟩
    refine ⟨t.map encodeChar,rfl,?_⟩
    intro s member
    obtain ⟨c,_,rfl⟩ := List.mem_map.1 member
    exact ⟨c.toNat,spells_encodeChar c⟩

theorem decode?_isSome_iff {bytes : Bytes} : (decode? bytes).isSome ↔ IsWellFormed bytes := by
  simp only [isWellFormed_iff, Option.isSome_iff_exists, decode?_eq_some_iff]

theorem wellFormed_iff {bytes : Bytes} : wellFormed bytes ↔ IsWellFormed bytes := by
  rw [← decode?_isSome, decode?_isSome_iff]

theorem decode?_encodeChar_append (c : Char) (bytes : Bytes) :
    decode? (encodeChar c ++ bytes) = (decode? bytes).map (c :: ·) := by
  have formed : wellFormed (encodeChar c ++ bytes) = wellFormed bytes := by simp [wellFormed, scan_encodeChar_append]
  have read : lossy (encodeChar c ++ bytes) = c :: lossy bytes := by simp [lossy, scan_encodeChar_append]
  rw [decode?, decode?, formed, read]
  split <;> rfl

theorem encode_ascii {bytes : Bytes} (ascii : ∀ b ∈ bytes, b.toNat < 0x80) :
    encode (bytes.map fun b => Char.ofNat b.toNat) = bytes := by
  induction bytes with
  | nil => rfl
  | cons b bytes ih =>
    rw [List.map_cons, encode_cons, encodeChar_one (ascii b (by simp)), UInt8.ofNat_toNat,
      ih fun x member => ascii x (List.mem_cons_of_mem _ member), List.singleton_append]

end Utf8

namespace Encoding

/-! ## One byte, one character -/

theorem latin1Char_injective : Function.Injective latin1Char := by
  intro a b same
  have number (x : UInt8) : (latin1Char x).toNat = x.toNat :=
    Utf8.toNat_ofNat_of_valid (.inl (Nat.lt_trans x.toNat_lt (by decide)))
  have numbers := congrArg Char.toNat same
  rwa [number, number, UInt8.toNat_inj] at numbers

def windows1252Byte (c : Char) : UInt8 :=
  if c.toNat ∈ windows1252High then .ofNat (0x80 + windows1252High.idxOf c.toNat) else .ofNat c.toNat

/-- None of the 32 characters that have a place of their own is another of them or takes the place of one of the rest. -/
theorem windows1252Byte_char : Function.LeftInverse windows1252Byte windows1252Char := octet_forall (by decide +kernel)

theorem windows1252Char_injective : Function.Injective windows1252Char := windows1252Byte_char.injective

/-- The one-byte encodings read each byte as a character of its own, those of ASCII as themselves. -/
theorem decode?_eq_map {e : Encoding} (single : e ≠ .utf8) : ∃ read : UInt8 → Char, Function.Injective read ∧
    ReadsBytewise read ∧ ∀ bytes, e.decode? bytes = some (bytes.map read) := by
  cases e with
  | utf8 => exact absurd rfl single
  | latin1 => exact ⟨_,latin1Char_injective,readsBytewise_latin1Char,fun _ => rfl⟩
  | windows1252 => exact ⟨_,windows1252Char_injective,readsBytewise_windows1252Char,fun _ => rfl⟩

/-! ## The bytes of a text -/

theorem decode?_injective {e : Encoding} {bytes bytes' : Bytes} {t : Text} (read : e.decode? bytes = some t)
    (read' : e.decode? bytes' = some t) : bytes = bytes' := by
  by_cases utf8 : e = .utf8
  · subst utf8
    rw [Utf8.decode?_eq_some_iff.1 read, Utf8.decode?_eq_some_iff.1 read']
  · obtain ⟨char,injective,_,reads⟩ := decode?_eq_map utf8
    rw [reads, Option.some.injEq] at read read'
    exact (List.map_inj_right fun _ _ same => injective same).1 (read.trans read'.symm)

theorem decode?_ascii {bytes : Bytes} (ascii : ∀ b ∈ bytes, b.toNat < 0x80) (e : Encoding) :
    e.decode? bytes = some (bytes.map fun b => Char.ofNat b.toNat) := by
  by_cases utf8 : e = .utf8
  · subst utf8
    exact Utf8.decode?_eq_some_iff.2 (Utf8.encode_ascii ascii).symm
  · obtain ⟨char,_,bytewise,reads⟩ := decode?_eq_map utf8
    rw [reads, List.map_congr_left fun b member => bytewise.ascii b (ascii b member)]

end Encoding

/-- Nothing is lost in decoding. UTF-8 reads well-formed bytes and no others, and writing its text gives back the bytes, a byte
order mark with them; what has been written is read again. The one-byte encodings read any bytes, each as one character. In none
of the three are two byte strings read as one text, and ASCII is read alike in all. -/
theorem decoding_lossless :
    (∀ bytes, (Encoding.utf8.decode? bytes).isSome ↔ Utf8.IsWellFormed bytes) ∧
    (∀ bytes t, Encoding.utf8.decode? bytes = some t → Utf8.encode t = bytes) ∧
    (∀ bytes, Encoding.utf8.decode? (0xEF :: 0xBB :: 0xBF :: bytes) =
      (Encoding.utf8.decode? bytes).map ('\uFEFF' :: ·)) ∧
    (∀ t, Encoding.utf8.decode? (Utf8.encode t) = some t) ∧
    (∀ e ∈ [Encoding.latin1, .windows1252], ∃ read : UInt8 → Char, ∀ bytes, e.decode? bytes = some (bytes.map read)) ∧
    (∀ (e : Encoding) (bytes bytes' : Bytes) (t : Text), e.decode? bytes = some t → e.decode? bytes' = some t →
      bytes = bytes') ∧
    (∀ bytes : Bytes, (∀ b ∈ bytes, b.toNat < 0x80) → ∃ t, ∀ e : Encoding, e.decode? bytes = some t) := by
  refine ⟨fun _ => Utf8.decode?_isSome_iff,?_,Utf8.decode?_encodeChar_append '\uFEFF',Utf8.decode?_encode,?_,?_,?_⟩
  · intro bytes t read
    exact (Utf8.decode?_eq_some_iff.1 read).symm
  · intro e single
    obtain ⟨read,_,_,reads⟩ := Encoding.decode?_eq_map (e := e) (by rintro rfl; simp at single)
    exact ⟨read,reads⟩
  · intro e bytes bytes' t read read'
    exact Encoding.decode?_injective read read'
  · intro bytes ascii
    exact ⟨_,Encoding.decode?_ascii ascii⟩

/-! ## Chains -/

namespace Encoding

/-- What an encoding refuses is malformed, and the encoding is UTF-8. -/
theorem decode?_eq_none_iff {e : Encoding} {bytes : Bytes} :
    e.decode? bytes = none ↔ e = .utf8 ∧ ¬ Utf8.IsWellFormed bytes := by
  rw [← Option.isNone_iff_eq_none, decode?_isNone, ← Utf8.wellFormed_iff, Bool.not_eq_true]

theorem exists_decode? {e : Encoding} {bytes : Bytes} (accepts : e ≠ .utf8 ∨ Utf8.IsWellFormed bytes) :
    ∃ t, e.decode? bytes = some t := by
  rw [← Option.ne_none_iff_exists', ne_eq, decode?_eq_none_iff]
  rintro ⟨utf8,malformed⟩
  exact accepts.elim (fun other => other utf8) malformed

theorem read?_eq_none_iff {chain : List Encoding} {bytes : Bytes} :
    read? chain bytes = none ↔ ∀ e ∈ chain, e.decode? bytes = none := by
  simp [read?]

/-- The first encoding that accepts the bytes gives the reading, and those before it are noted, whatever comes after it. -/
theorem read?_of_refused {before : List Encoding} {bytes : Bytes} {e : Encoding} {t : Text}
    (refused : ∀ x ∈ before, x.decode? bytes = none) (read : e.decode? bytes = some t) (after : List Encoding) :
    read? (before ++ e :: after) bytes = some ⟨t,e⟩ ∧ refusals (before ++ e :: after) bytes = before := by
  constructor
  · exact read?_eq_some_iff.2 ⟨before,after,rfl,refused,read⟩
  · rw [refusals, List.takeWhile_append_of_pos (by simpa using refused), List.takeWhile_cons_of_neg (by simp [read]),
      List.append_nil]

theorem read?_of_formed {bytes : Bytes} (formed : Utf8.IsWellFormed bytes) (e : Encoding) (rest : List Encoding) :
    ∃ t, e.decode? bytes = some t ∧ read? (e :: rest) bytes = some ⟨t,e⟩ ∧ refusals (e :: rest) bytes = [] := by
  obtain ⟨t,read⟩ := exists_decode? (e := e) (.inr formed)
  have first : ∀ x ∈ ([] : List Encoding), x.decode? bytes = none := nofun
  exact ⟨t,read,read?_of_refused first read rest⟩

section
variable {bytes : Bytes} (malformed : ¬ Utf8.IsWellFormed bytes)
include malformed

theorem read?_of_malformed {e : Encoding} (other : e ≠ .utf8) (n : Nat) (rest : List Encoding) :
    ∃ t, e.decode? bytes = some t ∧ read? (List.replicate n .utf8 ++ e :: rest) bytes = some ⟨t,e⟩ ∧
      refusals (List.replicate n .utf8 ++ e :: rest) bytes = List.replicate n .utf8 := by
  have accepts : e ≠ .utf8 ∨ Utf8.IsWellFormed bytes := .inl other
  obtain ⟨t,read⟩ := exists_decode? accepts
  have refused : ∀ x ∈ List.replicate n Encoding.utf8, x.decode? bytes = none := by
    intro x member
    exact decode?_eq_none_iff.2 ⟨List.eq_of_mem_replicate member,malformed⟩
  exact ⟨t,read,read?_of_refused refused read rest⟩

theorem read?_of_all_utf8 {chain : List Encoding} (all : ∀ e ∈ chain, e = .utf8) :
    read? chain bytes = none ∧ refusals chain bytes = List.replicate chain.length .utf8 := by
  have refused : ∀ e ∈ chain, e.decode? bytes = none := by
    intro e member
    exact decode?_eq_none_iff.2 ⟨all e member,malformed⟩
  refine ⟨read?_eq_none_iff.2 refused,?_⟩
  rw [refusals, List.takeWhile_eq_self_iff.2 (by simpa using refused)]
  exact List.eq_replicate_of_mem all

end

/-- A chain fails if it is empty, or on malformed bytes if there is nothing in it but UTF-8. -/
theorem read?_fails_iff {chain : List Encoding} {bytes : Bytes} :
    read? chain bytes = none ↔ chain = [] ∨ (∀ e ∈ chain, e = .utf8) ∧ ¬ Utf8.IsWellFormed bytes := by
  rw [read?_eq_none_iff]
  constructor
  · intro refused
    cases chain with
    | nil => exact .inl rfl
    | cons e rest =>
      refine .inr ⟨fun x member => (decode?_eq_none_iff.1 (refused x member)).1,?_⟩
      exact (decode?_eq_none_iff.1 (refused e (by simp))).2
  · rintro (rfl | ⟨all,malformed⟩) e member
    · cases member
    · exact decode?_eq_none_iff.2 ⟨all e member,malformed⟩

theorem read?_of_same_front {chain : List Encoding} {bytes : Bytes} {reading : Reading}
    (found : read? chain bytes = some reading) :
    ∃ front rest, chain = front ++ reading.encoding :: rest ∧ ∀ other,
      read? (front ++ reading.encoding :: other) bytes = some reading ∧
        refusals (front ++ reading.encoding :: other) bytes = refusals chain bytes := by
  obtain ⟨front,rest,rfl,refused,read⟩ := read?_eq_some_iff.1 found
  have noted := (read?_of_refused refused read rest).2
  refine ⟨front,rest,rfl,fun other => ?_⟩
  rw [noted]
  exact read?_of_refused refused read other

theorem read?_standard (bytes : Bytes) : ∃ reading, read? standard bytes = some reading ∧
    reading.encoding = if Utf8.wellFormed bytes then .utf8 else .latin1 := by
  by_cases formed : Utf8.wellFormed bytes
  · obtain ⟨t,_,found,_⟩ := read?_of_formed (Utf8.wellFormed_iff.1 formed) .utf8 [.latin1, .windows1252]
    exact ⟨_,found,by rw [if_pos formed]⟩
  · have malformed : ¬ Utf8.IsWellFormed bytes := fun formed' => formed (Utf8.wellFormed_iff.2 formed')
    obtain ⟨t,_,found,_⟩ := read?_of_malformed malformed (e := .latin1) (by simp) 1 [.windows1252]
    exact ⟨_,found,by rw [if_neg formed]⟩

end Encoding

/-- What comes of any chain of encodings. Well-formed bytes are read in its first one, and nothing is logged. Malformed bytes
are read in the first one that is not UTF-8, or not at all, and each UTF-8 in front of it is logged once. Hence a chain fails
only if it is empty or holds nothing but UTF-8 for malformed bytes, what comes after the chosen encoding does not matter, and
the standard chain never fails and never comes to Windows-1252. -/
theorem chain_settles (chain : List Encoding) (bytes : Bytes) :
    (Utf8.IsWellFormed bytes → ∀ e rest, chain = e :: rest → ∃ t, e.decode? bytes = some t ∧
      Encoding.read? chain bytes = some ⟨t,e⟩ ∧ (Encoding.refusals chain bytes).map LogLine.refused = []) ∧
    (¬ Utf8.IsWellFormed bytes → ∀ n e rest, chain = List.replicate n .utf8 ++ e :: rest → e ≠ .utf8 →
      ∃ t, e.decode? bytes = some t ∧ Encoding.read? chain bytes = some ⟨t,e⟩ ∧
        (Encoding.refusals chain bytes).map LogLine.refused = List.replicate n (.refused .utf8)) ∧
    (¬ Utf8.IsWellFormed bytes → (∀ e ∈ chain, e = .utf8) → Encoding.read? chain bytes = none ∧
      (Encoding.refusals chain bytes).map LogLine.refused = List.replicate chain.length (.refused .utf8)) ∧
    (LogLine.refused .utf8).text = "DEBUG input is not valid utf-8" ∧
    (Encoding.read? chain bytes = none ↔ chain = [] ∨ (∀ e ∈ chain, e = .utf8) ∧ ¬ Utf8.IsWellFormed bytes) ∧
    (∀ reading, Encoding.read? chain bytes = some reading → ∃ front rest, chain = front ++ reading.encoding :: rest ∧
      ∀ other, Encoding.read? (front ++ reading.encoding :: other) bytes = some reading ∧
        Encoding.refusals (front ++ reading.encoding :: other) bytes = Encoding.refusals chain bytes) ∧
    ∃ reading, Encoding.read? Encoding.standard bytes = some reading ∧ reading.encoding ≠ .windows1252 := by
  refine ⟨?_,?_,?_,rfl,Encoding.read?_fails_iff,fun _ => Encoding.read?_of_same_front,?_⟩
  · rintro formed e rest rfl
    obtain ⟨t,read,found,noted⟩ := Encoding.read?_of_formed formed e rest
    exact ⟨t,read,found,congrArg (List.map LogLine.refused) noted⟩
  · rintro malformed n e rest rfl other
    obtain ⟨t,read,found,noted⟩ := Encoding.read?_of_malformed malformed other n rest
    exact ⟨t,read,found,by rw [noted, List.map_replicate]⟩
  · intro malformed all
    obtain ⟨found,noted⟩ := Encoding.read?_of_all_utf8 malformed all
    exact ⟨found,by rw [noted, List.map_replicate]⟩
  · obtain ⟨reading,found,chosen⟩ := Encoding.read?_standard bytes
    refine ⟨reading,found,?_⟩
    rw [chosen]
    split <;> decide

end ParamTidy
