import ParamTidy.Text.Utf8

/-!
# Reading and writing UTF-8

Reading undoes writing and writing undoes reading: `decode?_eq_some_iff` says that a byte string is read as a text exactly when
it is what the text is written as, so no two byte strings are read alike.
-/

namespace ParamTidy.Utf8

/-! ## Numbers of bytes and characters -/

theorem toNat_ofNat_octet {n : Nat} (h : n < 256) : (UInt8.ofNat n).toNat = n := UInt8.toNat_ofNat_of_lt h

theorem toNat_bounds (c : Char) : c.toNat < 0xD800 ∨ 0xDFFF < c.toNat ∧ c.toNat < 0x110000 := c.valid

theorem toNat_ofNat_of_valid {n : Nat} (valid : n < 0xD800 ∨ 0xDFFF < n ∧ n < 0x110000) : (Char.ofNat n).toNat = n := by
  rw [Char.ofNat, dif_pos valid]
  rfl

/-! ## The bytes of a character -/

theorem encodeChar_one {n : Nat} (h : n < 0x80) : encodeChar (Char.ofNat n) = [.ofNat n] := by
  rw [encodeChar, toNat_ofNat_of_valid (by omega)]
  simp [h]

theorem encodeChar_two {n : Nat} (h : 0x80 ≤ n ∧ n < 0x800) :
    encodeChar (Char.ofNat n) = [.ofNat (0xC0 + n / 64), .ofNat (0x80 + n % 64)] := by
  rw [encodeChar, toNat_ofNat_of_valid (by omega)]
  simp [show ¬ n < 0x80 by omega, h.2]

theorem encodeChar_three {n : Nat} (h : 0x800 ≤ n ∧ n < 0x10000) (valid : n < 0xD800 ∨ 0xDFFF < n) :
    encodeChar (Char.ofNat n) = [.ofNat (0xE0 + n / 4096), .ofNat (0x80 + n / 64 % 64), .ofNat (0x80 + n % 64)] := by
  rw [encodeChar, toNat_ofNat_of_valid (by omega)]
  simp [show ¬ n < 0x80 by omega, show ¬ n < 0x800 by omega, h.2]

theorem encodeChar_four {n : Nat} (h : 0x10000 ≤ n ∧ n < 0x110000) :
    encodeChar (Char.ofNat n) = [.ofNat (0xF0 + n / 262144), .ofNat (0x80 + n / 4096 % 64),
      .ofNat (0x80 + n / 64 % 64), .ofNat (0x80 + n % 64)] := by
  rw [encodeChar, toNat_ofNat_of_valid (by omega)]
  simp [show ¬ n < 0x80 by omega, show ¬ n < 0x800 by omega, show ¬ n < 0x10000 by omega]

/-! ## Reading what has been written -/

@[simp] theorem readTail_zero (value low high : Nat) (rest : Bytes) :
    readTail 0 value low high rest = (some (Char.ofNat value),rest) := rfl

theorem readTail_octet {n low high : Nat} (h : low ≤ n ∧ n ≤ high) (octet : n < 256) (lacking value : Nat) (rest : Bytes) :
    readTail (lacking + 1) value low high (.ofNat n :: rest) = readTail lacking (value * 64 + (n - 0x80)) 0x80 0xBF rest := by
  rw [readTail, toNat_ofNat_octet octet, if_pos h]

/-- Reading gives back a character that has been written. -/
theorem readChar_encodeChar (c : Char) (rest : Bytes) :
    ∃ b tail, encodeChar c = b :: tail ∧ readChar b (tail ++ rest) = (some c,rest) := by
  have valid := toNat_bounds c
  have back : Char.ofNat c.toNat = c := Char.ofNat_toNat c
  generalize c.toNat = n at valid back
  subst back
  by_cases one : n < 0x80
  · exact ⟨_,_,encodeChar_one one,by simp [readChar, toNat_ofNat_octet (show n < 256 by omega), one]⟩
  by_cases two : n < 0x800
  · refine ⟨_,_,encodeChar_two (by omega),?_⟩
    rw [readChar, toNat_ofNat_octet (by omega)]
    simp only [show ¬ 0xC0 + n / 64 < 0x80 by omega, show ¬ 0xC0 + n / 64 < 0xC2 by omega,
      show 0xC0 + n / 64 < 0xE0 by omega, if_false, if_true, List.cons_append, List.nil_append]
    rw [readTail_octet (by omega) (by omega), readTail_zero]
    exact congrArg (fun m => (some (Char.ofNat m),rest)) (by omega)
  by_cases three : n < 0x10000
  · refine ⟨_,_,encodeChar_three (by omega) (by omega),?_⟩
    rw [readChar, toNat_ofNat_octet (by omega)]
    simp only [show ¬ 0xE0 + n / 4096 < 0x80 by omega, show ¬ 0xE0 + n / 4096 < 0xC2 by omega,
      show ¬ 0xE0 + n / 4096 < 0xE0 by omega, show 0xE0 + n / 4096 < 0xF0 by omega, if_false, if_true,
      List.cons_append, List.nil_append]
    rw [readTail_octet (by split <;> split <;> omega) (by omega), readTail_octet (by omega) (by omega), readTail_zero]
    exact congrArg (fun m => (some (Char.ofNat m),rest)) (by omega)
  · refine ⟨_,_,encodeChar_four (by omega),?_⟩
    rw [readChar, toNat_ofNat_octet (by omega)]
    simp only [show ¬ 0xF0 + n / 262144 < 0x80 by omega, show ¬ 0xF0 + n / 262144 < 0xC2 by omega,
      show ¬ 0xF0 + n / 262144 < 0xE0 by omega, show ¬ 0xF0 + n / 262144 < 0xF0 by omega,
      show 0xF0 + n / 262144 < 0xF5 by omega, if_false, if_true, List.cons_append, List.nil_append]
    rw [readTail_octet (by split <;> split <;> omega) (by omega), readTail_octet (by omega) (by omega),
      readTail_octet (by omega) (by omega), readTail_zero]
    exact congrArg (fun m => (some (Char.ofNat m),rest)) (by omega)

theorem scan_encodeChar_append (c : Char) (rest : Bytes) : scan (encodeChar c ++ rest) = some c :: scan rest := by
  obtain ⟨b,tail,written,read⟩ := readChar_encodeChar c rest
  rw [written, List.cons_append, scan_cons, read]

/-- Every character of a written text is found again. -/
theorem scan_encode (t : Text) : scan (encode t) = t.map some := by
  induction t with
  | nil => simp
  | cons c t ih => rw [encode_cons, scan_encodeChar_append, ih, List.map_cons]

@[simp] theorem wellFormed_encode (t : Text) : wellFormed (encode t) = true := by
  simp [wellFormed, scan_encode, List.all_map]

@[simp] theorem lossy_encode (t : Text) : lossy (encode t) = t := by
  simp [lossy, scan_encode, Function.comp_def]

/-- A text is read as it was written. -/
@[simp] theorem decode?_encode (t : Text) : decode? (encode t) = some t := by
  simp [decode?]

/-! ## Writing what has been read -/

theorem readTail_succ_eq_some {lacking value low high : Nat} {bytes rest : Bytes} {c : Char}
    (h : readTail (lacking + 1) value low high bytes = (some c,rest)) :
    ∃ n tail, (low ≤ n ∧ n ≤ high) ∧ bytes = .ofNat n :: tail
      ∧ readTail lacking (value * 64 + (n - 0x80)) 0x80 0xBF tail = (some c,rest) := by
  cases bytes with
  | nil => simp [readTail] at h
  | cons b tail =>
    rw [readTail] at h
    split at h
    · next bounds => exact ⟨b.toNat,tail,bounds,by rw [UInt8.ofNat_toNat],h⟩
    · simp at h

theorem readTail_zero_eq_some {value low high : Nat} {bytes rest : Bytes} {c : Char}
    (h : readTail 0 value low high bytes = (some c,rest)) : c = Char.ofNat value ∧ rest = bytes := by
  simp only [readTail_zero, Prod.mk.injEq, Option.some.injEq] at h
  exact ⟨h.1.symm,h.2.symm⟩

/-- What has been read as a character is how that character is written. -/
theorem eq_encodeChar_of_readChar {b : UInt8} {bytes rest : Bytes} {c : Char} (h : readChar b bytes = (some c,rest)) :
    b :: bytes = encodeChar c ++ rest := by
  have lt := b.toNat_lt
  have back : UInt8.ofNat b.toNat = b := UInt8.ofNat_toNat
  unfold readChar at h
  generalize b.toNat = n at h lt back
  subst back
  simp only at h
  split at h
  · next one =>
    simp only [Prod.mk.injEq, Option.some.injEq] at h
    obtain ⟨rfl,rfl⟩ := h
    rw [encodeChar_one one]
    rfl
  split at h
  · simp at h
  split at h
  · obtain ⟨m,t,bm,rfl,h1⟩ := readTail_succ_eq_some h
    obtain ⟨hc,hr⟩ := readTail_zero_eq_some h1
    rw [hc, hr, encodeChar_two (by omega), show 0xC0 + ((n - 0xC0) * 64 + (m - 0x80)) / 64 = n by omega,
      show 0x80 + ((n - 0xC0) * 64 + (m - 0x80)) % 64 = m by omega]
    rfl
  split at h
  · obtain ⟨m,t,bm,rfl,h1⟩ := readTail_succ_eq_some h
    obtain ⟨k,u,bk,rfl,h2⟩ := readTail_succ_eq_some h1
    obtain ⟨hc,hr⟩ := readTail_zero_eq_some h2
    have e0 : n = 0xE0 → 0xA0 ≤ m := fun e => by simpa [e] using bm.1
    have ed : n = 0xED → m ≤ 0x9F := fun e => by simpa [e] using bm.2
    have low : 0x80 ≤ m := by have := bm.1; split at this <;> omega
    have high : m ≤ 0xBF := by have := bm.2; split at this <;> omega
    clear bm h h1 h2
    rw [hc, hr, encodeChar_three (by omega) (by omega),
      show 0xE0 + (((n - 0xE0) * 64 + (m - 0x80)) * 64 + (k - 0x80)) / 4096 = n by omega,
      show 0x80 + (((n - 0xE0) * 64 + (m - 0x80)) * 64 + (k - 0x80)) / 64 % 64 = m by omega,
      show 0x80 + (((n - 0xE0) * 64 + (m - 0x80)) * 64 + (k - 0x80)) % 64 = k by omega]
    rfl
  split at h
  · obtain ⟨m,t,bm,rfl,h1⟩ := readTail_succ_eq_some h
    obtain ⟨k,u,bk,rfl,h2⟩ := readTail_succ_eq_some h1
    obtain ⟨j,v,bj,rfl,h3⟩ := readTail_succ_eq_some h2
    obtain ⟨hc,hr⟩ := readTail_zero_eq_some h3
    have f0 : n = 0xF0 → 0x90 ≤ m := fun e => by simpa [e] using bm.1
    have f4 : n = 0xF4 → m ≤ 0x8F := fun e => by simpa [e] using bm.2
    have low : 0x80 ≤ m := by have := bm.1; split at this <;> omega
    have high : m ≤ 0xBF := by have := bm.2; split at this <;> omega
    clear bm h h1 h2 h3
    rw [hc, hr, encodeChar_four (by omega),
      show 0xF0 + ((((n - 0xF0) * 64 + (m - 0x80)) * 64 + (k - 0x80)) * 64 + (j - 0x80)) / 262144 = n by omega,
      show 0x80 + ((((n - 0xF0) * 64 + (m - 0x80)) * 64 + (k - 0x80)) * 64 + (j - 0x80)) / 4096 % 64 = m by omega,
      show 0x80 + ((((n - 0xF0) * 64 + (m - 0x80)) * 64 + (k - 0x80)) * 64 + (j - 0x80)) / 64 % 64 = k by omega,
      show 0x80 + ((((n - 0xF0) * 64 + (m - 0x80)) * 64 + (k - 0x80)) * 64 + (j - 0x80)) % 64 = j by omega]
    rfl
  · simp at h

/-- Nothing is lost in reading: what is well formed is written again as it was. -/
theorem encode_lossy {bytes : Bytes} (h : wellFormed bytes) : encode (lossy bytes) = bytes := by
  induction n : bytes.length using Nat.strongRecOn generalizing bytes with
  | ind n ih =>
    subst n
    cases bytes with
    | nil => simp [lossy]
    | cons b bytes =>
      simp only [wellFormed, scan_cons, List.all_cons, Bool.and_eq_true] at h
      obtain ⟨c,hc⟩ := Option.isSome_iff_exists.1 h.1
      have rest := ih _ (Nat.lt_succ_of_le (readChar_length b bytes)) h.2 rfl
      have here : b :: bytes = encodeChar c ++ (readChar b bytes).2 := eq_encodeChar_of_readChar (Prod.ext hc rfl)
      simp only [lossy, scan_cons, hc, List.map_cons, Option.getD_some, encode_cons]
      rw [here]
      exact congrArg (encodeChar c ++ ·) rest

/-- The bytes that are read as a text are those it is written in, and no others. -/
theorem decode?_eq_some_iff {bytes : Bytes} {t : Text} : decode? bytes = some t ↔ bytes = encode t := by
  constructor
  · intro h
    have ok : wellFormed bytes := by rw [← decode?_isSome, h]; rfl
    rw [← lossy_of_decode? h, encode_lossy ok]
  · rintro rfl
    exact decode?_encode t

end ParamTidy.Utf8
