import ParamTidy.Text.Utf8

/-!
# Encodings

How the bytes of a source file may be read. UTF-8 refuses what is malformed; the two one-byte encodings read anything, one
character a byte.
-/

namespace ParamTidy

inductive Encoding where
  | utf8
  | latin1
  | windows1252
  deriving DecidableEq, Repr

namespace Encoding

/-- The encodings tried in turn unless others are asked for. -/
def standard : List Encoding := [.utf8, .latin1, .windows1252]

def label : Encoding → String
  | utf8 => "utf-8"
  | latin1 => "latin1"
  | windows1252 => "windows-1252"

/-- An ASCII capital as a small letter; other characters stay. -/
def foldAscii (label : String) : String := .ofList (label.toList.map Char.toLower)

/-- The encoding a label names, in capital or small letters. -/
def ofLabel? (label : String) : Option Encoding :=
  match foldAscii label with
  | "utf-8" | "utf8" => some utf8
  | "latin1" | "latin-1" | "iso-8859-1" => some latin1
  | "windows-1252" | "cp1252" => some windows1252
  | _ => none

def unknownLabel (label : String) : String :=
  "unknown encoding '" ++ foldAscii label ++ "' (expected utf-8, latin1 or windows-1252)"

/-- The characters of Windows-1252 from 0x80 to 0x9F; the five bytes without a glyph keep their number. -/
def windows1252High : List Nat :=
  [0x20AC, 0x81, 0x201A, 0x192, 0x201E, 0x2026, 0x2020, 0x2021, 0x2C6, 0x2030, 0x160, 0x2039, 0x152, 0x8D, 0x17D, 0x8F,
   0x90, 0x2018, 0x2019, 0x201C, 0x201D, 0x2022, 0x2013, 0x2014, 0x2DC, 0x2122, 0x161, 0x203A, 0x153, 0x9D, 0x17E, 0x178]

def latin1Char (b : UInt8) : Char := Char.ofNat b.toNat

/-- A byte of Windows-1252, which differs from Latin-1 between 0x80 and 0x9F only. -/
def windows1252Char (b : UInt8) : Char :=
  if 0x80 ≤ b.toNat ∧ b.toNat < 0xA0 then Char.ofNat (windows1252High.getD (b.toNat - 0x80) b.toNat) else latin1Char b

def decode? (e : Encoding) (bytes : Bytes) : Option Text :=
  match e with
  | utf8 => Utf8.decode? bytes
  | latin1 => some (bytes.map latin1Char)
  | windows1252 => some (bytes.map windows1252Char)

/-- What the first encoding of a chain that accepts some bytes makes of them. -/
structure Reading where
  text : Text
  encoding : Encoding
  deriving DecidableEq, Repr

/-- The reading by the first encoding that accepts the bytes. -/
def read? (chain : List Encoding) (bytes : Bytes) : Option Reading :=
  chain.findSome? fun e => (e.decode? bytes).map (⟨·,e⟩)

/-- The encodings that refuse the bytes before one accepts them. -/
def refusals (chain : List Encoding) (bytes : Bytes) : List Encoding :=
  chain.takeWhile fun e => (e.decode? bytes).isNone

theorem read?_cons_of_some {e : Encoding} {bytes : Bytes} {t : Text} (h : e.decode? bytes = some t)
    (chain : List Encoding) : read? (e :: chain) bytes = some ⟨t,e⟩ := by
  simp [read?, h]

/-- Only UTF-8 refuses anything. -/
theorem decode?_isNone {e : Encoding} {bytes : Bytes} :
    (e.decode? bytes).isNone ↔ e = .utf8 ∧ Utf8.wellFormed bytes = false := by
  cases e <;> simp [decode?, Utf8.decode?]

end Encoding

end ParamTidy
