import ParamTidy.Text.Blank

/-!
# UTF-8

One scan reads bytes as characters and as the places where no character begins. A byte string is text when there is no such
place; shown to a reader, each such place is U+FFFD.
-/

namespace ParamTidy

abbrev Bytes := List UInt8

namespace Utf8

/-- The one to four bytes of a character. -/
def encodeChar (c : Char) : Bytes :=
  let n := c.toNat
  if n < 0x80 then [.ofNat n]
  else if n < 0x800 then [.ofNat (0xC0 + n / 64), .ofNat (0x80 + n % 64)]
  else if n < 0x10000 then [.ofNat (0xE0 + n / 4096), .ofNat (0x80 + n / 64 % 64), .ofNat (0x80 + n % 64)]
  else
    [.ofNat (0xF0 + n / 262144), .ofNat (0x80 + n / 4096 % 64), .ofNat (0x80 + n / 64 % 64), .ofNat (0x80 + n % 64)]

def encode (t : Text) : Bytes := t.flatMap encodeChar

@[simp] theorem encode_nil : encode [] = [] := rfl

@[simp] theorem encode_cons (c : Char) (t : Text) : encode (c :: t) = encodeChar c ++ encode t := by
  simp [encode]

@[simp] theorem encode_append (t u : Text) : encode (t ++ u) = encode t ++ encode u := by
  simp [encode]

theorem length_encodeChar_pos (c : Char) : 0 < (encodeChar c).length := by
  simp only [encodeChar]
  split
  · simp
  split
  · simp
  split <;> simp

theorem length_le_length_encode (t : Text) : t.length ≤ (encode t).length := by
  induction t with
  | nil => simp
  | cons c t ih =>
    have := length_encodeChar_pos c
    simp only [encode_cons, List.length_cons, List.length_append]
    omega

/-- The rest of a character that still lacks some bytes: the next one lies between `low` and `high`, those after it between 0x80
and 0xBF. A byte outside its bounds stays unread. -/
def readTail : (lacking value low high : Nat) → Bytes → Option Char × Bytes
  | 0, value, _, _, rest => (some (Char.ofNat value),rest)
  | lacking + 1, value, low, high, b :: rest =>
    if low ≤ b.toNat ∧ b.toNat ≤ high then readTail lacking (value * 64 + (b.toNat - 0x80)) 0x80 0xBF rest
    else (none,b :: rest)
  | _ + 1, _, _, _, [] => (none,[])

/-- The character that begins with the byte `b`, or none, and what is left to read. The bounds of the second byte keep out
longer spellings than needed, surrogates and values above U+10FFFF. -/
def readChar (b : UInt8) (rest : Bytes) : Option Char × Bytes :=
  let n := b.toNat
  if n < 0x80 then (some (Char.ofNat n),rest)
  else if n < 0xC2 then (none,rest)
  else if n < 0xE0 then readTail 1 (n - 0xC0) 0x80 0xBF rest
  else if n < 0xF0 then readTail 2 (n - 0xE0) (if n = 0xE0 then 0xA0 else 0x80) (if n = 0xED then 0x9F else 0xBF) rest
  else if n < 0xF5 then readTail 3 (n - 0xF0) (if n = 0xF0 then 0x90 else 0x80) (if n = 0xF4 then 0x8F else 0xBF) rest
  else (none,rest)

theorem readTail_length (lacking value low high : Nat) (rest : Bytes) :
    (readTail lacking value low high rest).2.length ≤ rest.length := by
  fun_induction readTail lacking value low high rest with
  | case1 => simp
  | case2 lacking value low high b rest h ih => simp only [List.length_cons]; omega
  | case3 => simp
  | case4 => simp

theorem readChar_length (b : UInt8) (rest : Bytes) : (readChar b rest).2.length ≤ rest.length := by
  simp only [readChar]
  split <;> (try split) <;> (try split) <;> (try split) <;> (try split) <;> simp [readTail_length]

/-- The scan; `done` is what has been read so far, last first. -/
def scanOnto (done : List (Option Char)) : Bytes → List (Option Char)
  | [] => done.reverse
  | b :: rest => scanOnto ((readChar b rest).1 :: done) (readChar b rest).2
termination_by bytes => bytes.length
decreasing_by
  simp only [List.length_cons]
  exact Nat.lt_succ_of_le (readChar_length b rest)

/-- The characters of a byte string, and `none` at each longest stretch that begins none. -/
def scan (bytes : Bytes) : List (Option Char) := scanOnto [] bytes

theorem scanOnto_eq (done : List (Option Char)) (bytes : Bytes) : scanOnto done bytes = done.reverse ++ scan bytes := by
  unfold scan
  induction n : bytes.length using Nat.strongRecOn generalizing bytes done with
  | ind n ih =>
    subst n
    cases bytes with
    | nil => simp [scanOnto]
    | cons b rest =>
      have shorter : (readChar b rest).2.length < (b :: rest).length := Nat.lt_succ_of_le (readChar_length b rest)
      rw [scanOnto, scanOnto, ih _ shorter _ _ rfl, ih _ shorter [_] _ rfl]
      simp

@[simp] theorem scan_nil : scan [] = [] := by simp [scan, scanOnto]

theorem scan_cons (b : UInt8) (rest : Bytes) : scan (b :: rest) = (readChar b rest).1 :: scan (readChar b rest).2 := by
  rw [scan, scanOnto, scanOnto_eq]
  rfl

/-- Whether characters begin everywhere they should. -/
def wellFormed (bytes : Bytes) : Bool := (scan bytes).all Option.isSome

/-- The text as far as it can be read, with U+FFFD where it cannot. -/
def lossy (bytes : Bytes) : Text := (scan bytes).map (·.getD '\uFFFD')

/-- The text, when all of it can be read; a leading byte order mark is a character like any other. -/
def decode? (bytes : Bytes) : Option Text := if wellFormed bytes then some (lossy bytes) else none

theorem decode?_isSome (bytes : Bytes) : (decode? bytes).isSome = wellFormed bytes := by
  unfold decode?
  split <;> simp_all

theorem lossy_of_decode? {bytes : Bytes} {t : Text} (h : decode? bytes = some t) : lossy bytes = t := by
  unfold decode? at h
  split at h <;> simp_all

end Utf8

end ParamTidy
