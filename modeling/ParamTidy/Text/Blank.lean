/-!
# Blank characters

The characters that may stand for nothing between two parentheses: Unicode's `White_Space` and the four information separators
U+001C to U+001F.
-/

namespace ParamTidy

/-- Decoded text, one character at a time. -/
abbrev Text := List Char

/-- The first and last code points of each run of blank characters. -/
def blankRanges : List (Nat × Nat) :=
  [(0x09,0x0D), (0x1C,0x20), (0x85,0x85), (0xA0,0xA0), (0x1680,0x1680), (0x2000,0x200A),
   (0x2028,0x2029), (0x202F,0x202F), (0x205F,0x205F), (0x3000,0x3000)]

/-- Blank characters, inside and outside ASCII. -/
def isBlank (c : Char) : Bool := blankRanges.any fun r => r.1 ≤ c.toNat && c.toNat ≤ r.2

end ParamTidy
