import CallAtlas.Json.Basic

/-!
# Reading JSON
-/

namespace CallAtlas.Json

/-- The text without the blanks at its beginning. -/
def skipBlanks : List Char → List Char
  | [] => []
  | c :: rest =>
    if c = ' ' || c = '\n' || c = '\r' || c = '\t' then skipBlanks rest else c :: rest

/-- The value of a hexadecimal digit. -/
def hexValue (c : Char) : Option Nat :=
  if c.isDigit then some (c.toNat - 48)
  else if 'a' ≤ c && c ≤ 'f' then some (c.toNat - 87)
  else if 'A' ≤ c && c ≤ 'F' then some (c.toNat - 55)
  else none

/-- Four hexadecimal digits, as a number. -/
def readHex4 : List Char → Option (Nat × List Char)
  | a :: b :: c :: d :: rest => do
    let n := (((← hexValue a) * 16 + (← hexValue b)) * 16 + (← hexValue c)) * 16 + (← hexValue d)
    return (n, rest)
  | _ => none

/-- The character of a code point; U+FFFD for one that is no character. -/
def charOf (n : Nat) : Char := if h : n.isValidChar then Char.ofNatAux n h else '\uFFFD'

/-- A character written by its code in hexadecimal digits, or by the two codes of a surrogate pair. -/
def readCode (cs : List Char) : Option (Char × List Char) := do
  let (high, rest) ← readHex4 cs
  if 0xD800 ≤ high && high < 0xDC00 then
    match rest with
    | '\\' :: 'u' :: more =>
      match readHex4 more with
      | some (low, after) =>
        if 0xDC00 ≤ low && low < 0xE000 then
          return (charOf (0x10000 + (high - 0xD800) * 1024 + (low - 0xDC00)), after)
        else return (charOf high, rest)
      | none => return (charOf high, rest)
    | _ => return (charOf high, rest)
  else return (charOf high, rest)

/-- The rest of a text in quotation marks. `done` holds the characters read, the last one first. -/
def readText : Nat → List Char → List Char → Option (String × List Char)
  | 0, _, _ => none
  | _, _, [] => none
  | fuel + 1, done, c :: rest =>
    if c = '"' then some (String.ofList done.reverse, rest)
    else if c = '\\' then
      match rest with
      | '"' :: rest => readText fuel ('"' :: done) rest
      | '\\' :: rest => readText fuel ('\\' :: done) rest
      | '/' :: rest => readText fuel ('/' :: done) rest
      | 'b' :: rest => readText fuel ('\x08' :: done) rest
      | 'f' :: rest => readText fuel ('\x0c' :: done) rest
      | 'n' :: rest => readText fuel ('\n' :: done) rest
      | 'r' :: rest => readText fuel ('\r' :: done) rest
      | 't' :: rest => readText fuel ('\t' :: done) rest
      | 'u' :: rest =>
        match readCode rest with
        | some (c, rest) => readText fuel (c :: done) rest
        | none => none
      | _ => none
    else if c.toNat < 32 then none
    else readText fuel (c :: done) rest

/-- Digits at the beginning of a text. -/
def readDigits (cs : List Char) : List Char × List Char := cs.span Char.isDigit

/-- A number, as it is written. -/
def readNumber (cs : List Char) : Option (String × List Char) := do
  let (sign, cs) := match cs with
    | '-' :: rest => (['-'], rest)
    | _ => ([], cs)
  let (whole, cs) := readDigits cs
  if whole.isEmpty || (whole.length > 1 && whole.head? == some '0') then failure
  let (fraction, cs) ← match cs with
    | '.' :: rest =>
      let (digits, rest) := readDigits rest
      if digits.isEmpty then failure else pure ('.' :: digits, rest)
    | _ => pure ([], cs)
  let (exponent, cs) ← match cs with
    | e :: rest =>
      if e = 'e' || e = 'E' then
        let (sign, rest) := match rest with
          | '+' :: rest => (['+'], rest)
          | '-' :: rest => (['-'], rest)
          | _ => ([], rest)
        let (digits, rest) := readDigits rest
        if digits.isEmpty then failure else pure (e :: sign ++ digits, rest)
      else pure ([], cs)
    | [] => pure ([], cs)
  return (String.ofList (sign ++ whole ++ fraction ++ exponent), cs)

mutual

/-- A value at the beginning of a text. `fuel` bounds the number of characters. -/
def readValue : Nat → List Char → Option (Json × List Char)
  | 0, _ => none
  | fuel + 1, cs =>
    match skipBlanks cs with
    | 'n' :: 'u' :: 'l' :: 'l' :: rest => some (.null, rest)
    | 't' :: 'r' :: 'u' :: 'e' :: rest => some (.bool true, rest)
    | 'f' :: 'a' :: 'l' :: 's' :: 'e' :: rest => some (.bool false, rest)
    | '"' :: rest => (readText (rest.length + 1) [] rest).map fun (s, rest) => (.string s, rest)
    | '[' :: rest =>
      match skipBlanks rest with
      | ']' :: rest => some (.array [], rest)
      | rest => readItems fuel [] rest
    | '{' :: rest =>
      match skipBlanks rest with
      | '}' :: rest => some (.object [], rest)
      | rest => readMembers fuel [] rest
    | cs => (readNumber cs).map fun (n, rest) => (.number n, rest)

/-- The items of an array up to its end. -/
def readItems : Nat → List Json → List Char → Option (Json × List Char)
  | 0, _, _ => none
  | fuel + 1, done, cs =>
    match readValue fuel cs with
    | none => none
    | some (j, rest) =>
      match skipBlanks rest with
      | ',' :: rest => readItems fuel (j :: done) rest
      | ']' :: rest => some (.array (j :: done).reverse, rest)
      | _ => none

/-- The members of an object up to its end. -/
def readMembers : Nat → List (String × Json) → List Char → Option (Json × List Char)
  | 0, _, _ => none
  | fuel + 1, done, cs =>
    match skipBlanks cs with
    | '"' :: rest =>
      match readText (rest.length + 1) [] rest with
      | none => none
      | some (name, rest) =>
        match skipBlanks rest with
        | ':' :: rest =>
          match readValue fuel rest with
          | none => none
          | some (j, rest) =>
            match skipBlanks rest with
            | ',' :: rest => readMembers fuel ((name, j) :: done) rest
            | '}' :: rest => some (.object ((name, j) :: done).reverse, rest)
            | _ => none
        | _ => none
    | _ => none

end

/-- The value that a text describes. -/
def parse (s : String) : Option Json :=
  let cs := s.toList
  match readValue (2 * cs.length + 2) cs with
  | some (j, rest) => if (skipBlanks rest).isEmpty then some j else none
  | none => none

end CallAtlas.Json
