import ParamTidy.Json

/-!
# The written form of a document

A written value tells where it ends, whatever follows it, save that a number wants something that is no digit behind it
(`Json.write_append_inj`). So no two documents are written alike (`Json.pretty_injective`).
-/

namespace ParamTidy

namespace Json

/-! ## Strings -/

def hexValue (c : Char) : Nat := if c.isDigit then c.toNat - '0'.toNat else 10 + (c.toNat - 'a'.toNat)

/-- The character that stands at the head of a text inside quotes, and what follows it. -/
def unescape? : Text → Option (Char × Text)
  | '\\' :: 'u' :: '0' :: '0' :: a :: b :: rest => some (Char.ofNat (16 * hexValue a + hexValue b),rest)
  | '\\' :: 'n' :: rest => some ('\n',rest)
  | '\\' :: 'r' :: rest => some ('\r',rest)
  | '\\' :: 't' :: rest => some ('\t',rest)
  | '\\' :: 'b' :: rest => some ('\x08',rest)
  | '\\' :: 'f' :: rest => some ('\x0c',rest)
  | '\\' :: c :: rest => some (c,rest)
  | '"' :: _ => none
  | c :: rest => some (c,rest)
  | [] => none

theorem hexValue_digitChar {n : Nat} (small : n < 16) : hexValue (Nat.digitChar n) = n := by
  have all : ∀ n < 16, hexValue (Nat.digitChar n) = n := by decide
  exact all n small

theorem unescape?_quote (rest : Text) : unescape? ('"' :: rest) = none := by
  simp [unescape?]

theorem unescape?_other {c : Char} (slash : c ≠ '\\') (quote : c ≠ '"') (rest : Text) :
    unescape? (c :: rest) = some (c,rest) := by
  unfold unescape?
  split <;> simp_all

theorem unescape?_control {c : Char} (control : c.toNat < 0x20) (rest : Text) :
    unescape? ('\\' :: 'u' :: '0' :: '0' :: Nat.digitChar (c.toNat / 16) :: Nat.digitChar (c.toNat % 16) :: rest) =
      some (c,rest) := by
  rw [unescape?, hexValue_digitChar (by omega), hexValue_digitChar (by omega), Nat.div_add_mod, Char.ofNat_toNat]

/-- A character is found again inside quotes. -/
theorem unescape?_escape (c : Char) (rest : Text) : unescape? (escape c ++ rest) = some (c,rest) := by
  unfold escape
  iterate 7
    split
    · next same => simp [same, unescape?]
  split
  · next control => exact unescape?_control control rest
  · next quote slash _ _ _ _ _ _ => exact unescape?_other slash quote rest

private theorem flatMap_escape_inj {s s' r r' : Text} (same : s.flatMap escape ++ '"' :: r = s'.flatMap escape ++ '"' :: r') :
    s = s' ∧ r = r' := by
  induction s generalizing s' with
  | nil =>
    cases s' with
    | nil => simpa using same
    | cons c' s' =>
      have read := congrArg unescape? same
      simp [unescape?_escape, unescape?_quote] at read
  | cons c s ih =>
    have read := congrArg unescape? same
    cases s' with
    | nil => simp [unescape?_escape, unescape?_quote] at read
    | cons c' s' =>
      simp only [List.flatMap_cons, List.append_assoc, unescape?_escape, Option.some.injEq, Prod.mk.injEq] at read
      obtain ⟨same,same'⟩ := ih read.2
      exact ⟨by rw [read.1, same],same'⟩

/-- A text in quotes tells where it ends. -/
theorem quote_append_inj {s s' r r' : Text} (same : quote s ++ r = quote s' ++ r') : s = s' ∧ r = r' := by
  simp only [quote, List.cons_append, List.append_assoc, List.nil_append, List.cons.injEq, true_and] at same
  exact flatMap_escape_inj same

/-! ## Numbers -/

/-- No digit comes next, so a number before ends here. -/
def EndsNumber (r : Text) : Prop := ∀ c ∈ r.head?, c.isDigit = false

theorem isDigit_of_mem_toDigits {n : Nat} : ∀ c ∈ Nat.toDigits 10 n, c.isDigit := fun _ member =>
  Nat.isDigit_of_mem_toDigits (by decide) (by decide) member

theorem takeWhile_toDigits {r : Text} (ends : EndsNumber r) (n : Nat) :
    (Nat.toDigits 10 n ++ r).takeWhile Char.isDigit = Nat.toDigits 10 n := by
  rw [List.takeWhile_append_of_pos isDigit_of_mem_toDigits]
  cases r with
  | nil => simp
  | cons c r => simp [ends c rfl]

/-- A number tells where it ends by what comes next. -/
theorem toDigits_append_inj {n n' : Nat} {r r' : Text} (ends : EndsNumber r) (ends' : EndsNumber r')
    (same : Nat.toDigits 10 n ++ r = Nat.toDigits 10 n' ++ r') : n = n' ∧ r = r' := by
  have digits : Nat.toDigits 10 n = Nat.toDigits 10 n' := by
    rw [← takeWhile_toDigits ends n, same, takeWhile_toDigits ends' n']
  constructor
  · calc n = Nat.ofDigitChars 10 (Nat.toDigits 10 n) 0 := Nat.ofDigitChars_ten_toDigits.symm
      _ = Nat.ofDigitChars 10 (Nat.toDigits 10 n') 0 := by rw [digits]
      _ = n' := Nat.ofDigitChars_ten_toDigits
  · rw [digits] at same
    exact List.append_cancel_left same

/-! ## Values -/

/-- The character that a value begins with, if it is no number. -/
def opening? : Json → Option Char
  | number _ => none
  | string _ => some '"'
  | array _ => some '['
  | object _ => some '\x7b'

/-- Numbers begin with a digit, and no other values do. -/
theorem head?_write (j : Json) (depth : Nat) (r : Text) :
    (write depth j ++ r).head?.filter (!·.isDigit) = j.opening? := by
  cases j with
  | number n =>
    cases digits : Nat.toDigits 10 n with
    | nil => exact absurd digits Nat.toDigits_ne_nil
    | cons d ds =>
      have digit : d.isDigit := isDigit_of_mem_toDigits (n := n) d (by simp [digits])
      simp [write, digits, digit, opening?]
  | string s => rfl
  | array items => cases items <;> rfl
  | object members => cases members <;> rfl

/-- Values of different kinds begin in different ways. -/
theorem opening?_eq {j j' : Json} {depth : Nat} {r r' : Text} (same : write depth j ++ r = write depth j' ++ r') :
    j.opening? = j'.opening? := by
  rw [← head?_write j depth r, same, head?_write]

theorem endsNumber_newline (depth : Nat) (r : Text) : EndsNumber (newline depth ++ r) := by
  intro c member
  cases member
  rfl

theorem endsNumber_writeItems (depth depth' : Nat) (items : List Json) (r : Text) :
    EndsNumber (writeItems depth items ++ (newline depth' ++ r)) := by
  cases items with
  | nil => exact endsNumber_newline depth' r
  | cons item items =>
    intro c member
    cases member
    rfl

theorem endsNumber_writeMembers (depth depth' : Nat) (members : List (Text × Json)) (r : Text) :
    EndsNumber (writeMembers depth members ++ (newline depth' ++ r)) := by
  cases members with
  | nil => exact endsNumber_newline depth' r
  | cons member members =>
    intro c first
    cases first
    rfl

mutual

/-- A value tells where it ends. -/
theorem write_append_inj : ∀ (j j' : Json) (depth : Nat) {r r' : Text}, EndsNumber r → EndsNumber r' →
    write depth j ++ r = write depth j' ++ r' → j = j' ∧ r = r'
  | number n, j', depth, r, r', ends, ends', same => by
    have kinds := opening?_eq same
    cases j' with
    | number n' =>
      obtain ⟨numbers,rests⟩ := toDigits_append_inj ends ends' same
      exact ⟨congrArg number numbers,rests⟩
    | _ => simp [opening?] at kinds
  | string s, j', depth, r, r', ends, ends', same => by
    have kinds := opening?_eq same
    cases j' with
    | string s' =>
      obtain ⟨texts,rests⟩ := quote_append_inj same
      exact ⟨congrArg string texts,rests⟩
    | _ => simp [opening?] at kinds
  | array items, j', depth, r, r', ends, ends', same => by
    have kinds := opening?_eq same
    cases j' with
    | array items' =>
      cases items with
      | nil =>
        cases items' with
        | nil => exact ⟨rfl,List.append_cancel_left same⟩
        | cons item' items' => simp [write, newline] at same
      | cons item items =>
        cases items' with
        | nil => simp [write, newline] at same
        | cons item' items' =>
          have later : writeItems (depth + 1) (item :: items) ++ (newline depth ++ ']' :: r) =
              writeItems (depth + 1) (item' :: items') ++ (newline depth ++ ']' :: r') := by
            simpa [write, writeItems] using same
          obtain ⟨lists,rests⟩ := writeItems_append_inj (item :: items) (item' :: items') (depth + 1) depth later
          exact ⟨congrArg array lists,(List.cons.inj rests).2⟩
    | _ => simp [opening?] at kinds
  | object members, j', depth, r, r', ends, ends', same => by
    have kinds := opening?_eq same
    cases j' with
    | object members' =>
      cases members with
      | nil =>
        cases members' with
        | nil => exact ⟨rfl,List.append_cancel_left same⟩
        | cons member' members' => simp [write, newline] at same
      | cons member members =>
        cases members' with
        | nil => simp [write, newline] at same
        | cons member' members' =>
          have later : writeMembers (depth + 1) (member :: members) ++ (newline depth ++ '\x7d' :: r) =
              writeMembers (depth + 1) (member' :: members') ++ (newline depth ++ '\x7d' :: r') := by
            simpa [write, writeMembers] using same
          obtain ⟨lists,rests⟩ := writeMembers_append_inj (member :: members) (member' :: members') (depth + 1) depth later
          exact ⟨congrArg object lists,(List.cons.inj rests).2⟩
    | _ => simp [opening?] at kinds

/-- Items tell where they end, if a new line and no comma comes next. -/
theorem writeItems_append_inj : ∀ (items items' : List Json) (depth depth' : Nat) {r r' : Text},
    writeItems depth items ++ (newline depth' ++ r) = writeItems depth items' ++ (newline depth' ++ r') →
      items = items' ∧ r = r'
  | [], items', depth, depth', r, r', same => by
    cases items' with
    | nil => exact ⟨rfl,List.append_cancel_left same⟩
    | cons item' items' => simp [writeItems, newline] at same
  | item :: items, items', depth, depth', r, r', same => by
    cases items' with
    | nil => simp [writeItems, newline] at same
    | cons item' items' =>
      simp only [writeItems, List.cons_append, List.append_assoc, List.cons.injEq, true_and,
        List.append_cancel_left_eq] at same
      obtain ⟨rfl,later⟩ := write_append_inj item item' depth (endsNumber_writeItems _ _ _ _)
        (endsNumber_writeItems _ _ _ _) same
      obtain ⟨rfl,rests⟩ := writeItems_append_inj items items' depth depth' later
      exact ⟨rfl,rests⟩

theorem writeMembers_append_inj : ∀ (members members' : List (Text × Json)) (depth depth' : Nat) {r r' : Text},
    writeMembers depth members ++ (newline depth' ++ r) = writeMembers depth members' ++ (newline depth' ++ r') →
      members = members' ∧ r = r'
  | [], members', depth, depth', r, r', same => by
    cases members' with
    | nil => exact ⟨rfl,List.append_cancel_left same⟩
    | cons member' members' => simp [writeMembers, newline] at same
  | (key,value) :: members, members', depth, depth', r, r', same => by
    cases members' with
    | nil => simp [writeMembers, newline] at same
    | cons member' members' =>
      obtain ⟨key',value'⟩ := member'
      simp only [writeMembers, List.cons_append, List.append_assoc, List.cons.injEq, true_and,
        List.append_cancel_left_eq] at same
      obtain ⟨rfl,later⟩ := quote_append_inj same
      simp only [List.cons.injEq, true_and, List.nil_append] at later
      obtain ⟨rfl,further⟩ := write_append_inj value value' depth (endsNumber_writeMembers _ _ _ _)
        (endsNumber_writeMembers _ _ _ _) later
      obtain ⟨rfl,rests⟩ := writeMembers_append_inj members members' depth depth' further
      exact ⟨rfl,rests⟩

end

/-- No two documents are written alike. -/
theorem pretty_injective : Function.Injective pretty := by
  intro j j' same
  have ends : EndsNumber [] := by
    intro c member
    cases member
  have written : write 0 j ++ [] = write 0 j' ++ [] := congrArg (· ++ []) same
  exact (write_append_inj j j' 0 ends ends written).1

end Json

end ParamTidy
