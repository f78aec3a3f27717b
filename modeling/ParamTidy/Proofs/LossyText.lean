import ParamTidy.Text.Utf8.RoundTrip

/-!
# Bytes that need not be text

A byte that goes on with no character ends what stands before it, whether a character is complete there or not, so any bytes
can be cut in front of it and read part by part (`scan_append`, `lossy_append`). Such bytes are those of ASCII and those that
characters begin with. No character is shown that is not in the bytes, the replacement character aside (`mem_of_mem_lossy`),
and no ending of the bytes is hidden or made up when they are shown (`suffix_lossy_iff`).
-/

namespace ParamTidy.Utf8

@[simp] theorem lossy_nil : lossy [] = [] := by simp [lossy]

/-! ## In front of a character -/

section
variable {b : UInt8} (apart : b.toNat < 0x80 ∨ 0xBF < b.toNat) (rest : Bytes)
include apart

theorem readTail_append {low high : Nat} (bounds : 0x80 ≤ low ∧ high ≤ 0xBF) (lacking value : Nat) (a : Bytes) :
    readTail lacking value low high (a ++ b :: rest) =
      ((readTail lacking value low high a).1,(readTail lacking value low high a).2 ++ b :: rest) := by
  fun_induction readTail lacking value low high a with
  | case1 => rfl
  | case2 lacking value low high x a inside ih =>
    rw [List.cons_append, readTail, if_pos inside]
    exact ih (by decide)
  | case3 lacking value low high x a outside => rw [List.cons_append, readTail, if_neg outside]
  | case4 => rw [List.nil_append, readTail, if_neg (by omega)]

theorem readChar_append (x : UInt8) (a : Bytes) :
    readChar x (a ++ b :: rest) = ((readChar x a).1,(readChar x a).2 ++ b :: rest) := by
  have tail (lacking value : Nat) {low high : Nat} (bounds : 0x80 ≤ low ∧ high ≤ 0xBF) :=
    readTail_append apart rest bounds lacking value a
  simp only [readChar]
  split
  · rfl
  split
  · rfl
  split
  · exact tail _ _ (by decide)
  split
  · exact tail _ _ (by split <;> split <;> decide)
  split
  · exact tail _ _ (by split <;> split <;> decide)
  · rfl

/-- Bytes are read apart on both sides of a place where no character goes on. -/
theorem scan_append (a : Bytes) : scan (a ++ b :: rest) = scan a ++ scan (b :: rest) := by
  induction n : a.length using Nat.strongRecOn generalizing a with
  | ind n ih =>
    subst n
    cases a with
    | nil => simp
    | cons x a =>
      have shorter : (readChar x a).2.length < (x :: a).length := Nat.lt_succ_of_le (readChar_length x a)
      rw [List.cons_append, scan_cons, readChar_append apart, ih _ shorter _ rfl, scan_cons x, List.cons_append]

theorem lossy_append (a : Bytes) : lossy (a ++ b :: rest) = lossy a ++ lossy (b :: rest) := by
  simp [lossy, scan_append apart]

end

theorem lossy_append_ascii {b : UInt8} (ascii : b.toNat < 0x80) (rest a : Bytes) :
    lossy (a ++ b :: rest) = lossy a ++ Char.ofNat b.toNat :: lossy rest := by
  rw [lossy_append (.inl ascii)]
  simp [lossy, scan_cons, readChar, ascii]

theorem apart_of_readChar {b : UInt8} {bytes rest : Bytes} {c : Char} (read : readChar b bytes = (some c,rest)) :
    b.toNat < 0x80 ∨ 0xBF < b.toNat := by
  simp only [readChar] at read
  split at read
  · next ascii => exact .inl ascii
  split at read
  · simp at read
  · next lead => exact .inr (by omega)

theorem lossy_append_encode (a : Bytes) (t : Text) : lossy (a ++ encode t) = lossy a ++ t := by
  cases t with
  | nil => simp
  | cons c t =>
    obtain ⟨b,tail,written,read⟩ := readChar_encodeChar c (encode t)
    have bytes : encode (c :: t) = b :: (tail ++ encode t) := by rw [encode_cons, written, List.cons_append]
    rw [bytes, lossy_append (apart_of_readChar read), ← bytes, lossy_encode]

/-! ## What is shown -/

theorem readTail_suffix (lacking value low high : Nat) (rest : Bytes) :
    (readTail lacking value low high rest).2 <:+ rest := by
  fun_induction readTail lacking value low high rest with
  | case1 => exact List.suffix_rfl
  | case2 lacking value low high b rest inside ih => exact ih.trans (List.suffix_cons b rest)
  | case3 => exact List.suffix_rfl
  | case4 => exact List.suffix_rfl

theorem readChar_suffix (b : UInt8) (rest : Bytes) : (readChar b rest).2 <:+ rest := by
  simp only [readChar]
  split
  · exact List.suffix_rfl
  split
  · exact List.suffix_rfl
  split
  · exact readTail_suffix ..
  split
  · exact readTail_suffix ..
  split
  · exact readTail_suffix ..
  · exact List.suffix_rfl

/-- What is read from some point on stands in the bytes from some point on. -/
theorem exists_suffix_of_scan {bytes : Bytes} {front back : List (Option Char)} (read : scan bytes = front ++ back) :
    ∃ rest, rest <:+ bytes ∧ scan rest = back := by
  induction front generalizing bytes with
  | nil => exact ⟨bytes,List.suffix_rfl,read⟩
  | cons x front ih =>
    cases bytes with
    | nil => simp at read
    | cons b bytes =>
      rw [scan_cons, List.cons_append, List.cons.injEq] at read
      obtain ⟨rest,later,reads⟩ := ih read.2
      exact ⟨rest,later.trans ((readChar_suffix b bytes).trans (List.suffix_cons b bytes)),reads⟩

/-- The bytes of a character that is read stand where it is read. -/
theorem mem_of_mem_scan {bytes : Bytes} {c : Char} (read : some c ∈ scan bytes) : ∀ b ∈ encodeChar c, b ∈ bytes := by
  obtain ⟨front,back,split⟩ := List.append_of_mem read
  obtain ⟨rest,later,reads⟩ := exists_suffix_of_scan split
  intro b member
  apply later.subset
  cases rest with
  | nil => simp at reads
  | cons x rest =>
    rw [scan_cons, List.cons.injEq] at reads
    rw [eq_encodeChar_of_readChar (Prod.ext reads.1 rfl)]
    exact List.mem_append_left _ member

/-- A character that is shown and is not the replacement character is in the bytes. -/
theorem mem_of_mem_lossy {bytes : Bytes} {c : Char} (shown : c ∈ lossy bytes) (plain : c ≠ '\uFFFD') :
    ∀ b ∈ encodeChar c, b ∈ bytes := by
  obtain ⟨x,read,same⟩ := List.mem_map.1 shown
  cases x with
  | none => exact absurd same.symm plain
  | some d =>
    obtain rfl : d = c := same
    exact mem_of_mem_scan read

/-- Bytes that are shown without a replacement character are what the text is written in. -/
theorem eq_encode_of_lossy {bytes : Bytes} {t : Text} (shown : lossy bytes = t) (plain : '\uFFFD' ∉ t) : bytes = encode t := by
  subst shown
  refine (encode_lossy (List.all_eq_true.2 fun x read => ?_)).symm
  cases x with
  | none => exact absurd (List.mem_map.2 ⟨none,read,rfl⟩) plain
  | some c => rfl

/-- Bytes are shown with an ending, if no replacement character is in it, exactly if they end in what it is written in. -/
theorem suffix_lossy_iff {bytes : Bytes} {t : Text} (plain : '\uFFFD' ∉ t) : t <:+ lossy bytes ↔ encode t <:+ bytes := by
  constructor
  · rintro ⟨front,shown⟩
    obtain ⟨xs,ys,read,_,ending⟩ := List.map_eq_append_iff.1 shown.symm
    obtain ⟨rest,later,reads⟩ := exists_suffix_of_scan read
    have written : rest = encode t := eq_encode_of_lossy (by rw [lossy, reads, ending]) plain
    exact written ▸ later
  · rintro ⟨a,rfl⟩
    rw [lossy_append_encode]
    exact List.suffix_append _ _

end ParamTidy.Utf8
