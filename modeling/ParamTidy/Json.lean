import ParamTidy.Text.Blank

/-!
# JSON documents

The values a report is printed as, and their written form over several lines: two spaces for each level, one member a line,
brackets of nothing closed at once, and only what JSON demands escaped.
-/

namespace ParamTidy

/-- A JSON value; numbers are counts, and objects keep the order of their members. -/
inductive Json where
  | number (n : Nat)
  | string (s : Text)
  | array (items : List Json)
  | object (members : List (Text × Json))

namespace Json

def escape (c : Char) : Text :=
  if c = '"' then ['\\', '"']
  else if c = '\\' then ['\\', '\\']
  else if c = '\n' then ['\\', 'n']
  else if c = '\r' then ['\\', 'r']
  else if c = '\t' then ['\\', 't']
  else if c = '\x08' then ['\\', 'b']
  else if c = '\x0c' then ['\\', 'f']
  else if c.toNat < 0x20 then ['\\', 'u', '0', '0', Nat.digitChar (c.toNat / 16), Nat.digitChar (c.toNat % 16)]
  else [c]

def quote (s : Text) : Text := '"' :: s.flatMap escape ++ ['"']

/-- The start of a line `depth` levels down. -/
def newline (depth : Nat) : Text := '\n' :: List.replicate (2 * depth) ' '

mutual

/-- The written form of a value `depth` levels down. -/
def write (depth : Nat) : Json → Text
  | number n => Nat.toDigits 10 n
  | string s => quote s
  | array [] => ['[', ']']
  | array (item :: items) =>
    '[' :: newline (depth + 1) ++ write (depth + 1) item ++ writeItems (depth + 1) items ++ newline depth ++ [']']
  | object [] => ['\x7b', '\x7d']
  | object ((key,value) :: members) =>
    '\x7b' :: newline (depth + 1) ++ quote key ++ [':', ' '] ++ write (depth + 1) value
      ++ writeMembers (depth + 1) members ++ newline depth ++ ['\x7d']

def writeItems (depth : Nat) : List Json → Text
  | [] => []
  | item :: items => ',' :: newline depth ++ write depth item ++ writeItems depth items

def writeMembers (depth : Nat) : List (Text × Json) → Text
  | [] => []
  | (key,value) :: members =>
    ',' :: newline depth ++ quote key ++ [':', ' '] ++ write depth value ++ writeMembers depth members

end

def pretty (j : Json) : Text := j.write 0

end Json

end ParamTidy
