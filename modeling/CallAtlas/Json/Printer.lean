import CallAtlas.Json.Basic

/-!
# Writing JSON

A value is written with every item and member on a line of its own, indented by two spaces for each
level. Empty arrays and objects are written without a line break. Only quotation marks, backslashes and
control characters are escaped.
-/

namespace CallAtlas.Json

/-- A hexadecimal digit. -/
def hexDigit (n : Nat) : Char := if n < 10 then Char.ofNat (48 + n) else Char.ofNat (87 + n)

/-- A character as it is written in a text. -/
def escapeChar (c : Char) : List Char :=
  if c = '"' then ['\\', '"']
  else if c = '\\' then ['\\', '\\']
  else if c = '\n' then ['\\', 'n']
  else if c = '\r' then ['\\', 'r']
  else if c = '\t' then ['\\', 't']
  else if c = '\x08' then ['\\', 'b']
  else if c = '\x0c' then ['\\', 'f']
  else if c.toNat < 32 then ['\\', 'u', '0', '0', hexDigit (c.toNat / 16), hexDigit (c.toNat % 16)]
  else [c]

/-- A text in quotation marks. -/
def quote (s : String) : String := String.ofList ('"' :: s.toList.flatMap escapeChar ++ ['"'])

/-- A line break and the indentation of a level. -/
def lineBreak (level : Nat) : String := "\n" ++ String.ofList (List.replicate (2 * level) ' ')

mutual

/-- Appends a value to a text. `level` is the level on which the value stands. -/
def write (level : Nat) : Json → String → String
  | .null, out => out ++ "null"
  | .bool b, out => out ++ (if b then "true" else "false")
  | .number literal, out => out ++ literal
  | .string s, out => out ++ quote s
  | .array [], out => out ++ "[]"
  | .array (j :: items), out =>
    writeItems (level + 1) items (write (level + 1) j (out ++ "[" ++ lineBreak (level + 1))) ++
      lineBreak level ++ "]"
  | .object [], out => out ++ "\x7b\x7d"
  | .object ((name, j) :: members), out =>
    writeMembers (level + 1) members
      (write (level + 1) j (out ++ "\x7b" ++ lineBreak (level + 1) ++ quote name ++ ": ")) ++
      lineBreak level ++ "\x7d"

/-- Appends the items of an array after the first. -/
def writeItems (level : Nat) : List Json → String → String
  | [], out => out
  | j :: items, out => writeItems level items (write level j (out ++ "," ++ lineBreak level))

/-- Appends the members of an object after the first. -/
def writeMembers (level : Nat) : List (String × Json) → String → String
  | [], out => out
  | (name, j) :: members, out =>
    writeMembers level members
      (write level j (out ++ "," ++ lineBreak level ++ quote name ++ ": "))

end

/-- The value in writing. -/
def pretty (j : Json) : String := write 0 j ""

mutual

/-- Appends a value to a text without any blanks. -/
def writeCompact : Json → String → String
  | .null, out => out ++ "null"
  | .bool b, out => out ++ (if b then "true" else "false")
  | .number literal, out => out ++ literal
  | .string s, out => out ++ quote s
  | .array [], out => out ++ "[]"
  | .array (j :: items), out => writeCompactItems items (writeCompact j (out ++ "[")) ++ "]"
  | .object [], out => out ++ "\x7b\x7d"
  | .object ((name, j) :: members), out =>
    writeCompactMembers members (writeCompact j (out ++ "\x7b" ++ quote name ++ ":")) ++ "\x7d"

/-- Appends the items of an array after the first without any blanks. -/
def writeCompactItems : List Json → String → String
  | [], out => out
  | j :: items, out => writeCompactItems items (writeCompact j (out ++ ","))

/-- Appends the members of an object after the first without any blanks. -/
def writeCompactMembers : List (String × Json) → String → String
  | [], out => out
  | (name, j) :: members, out =>
    writeCompactMembers members (writeCompact j (out ++ "," ++ quote name ++ ":"))

end

/-- The value in writing on one line. -/
def compact (j : Json) : String := writeCompact j ""

end CallAtlas.Json
