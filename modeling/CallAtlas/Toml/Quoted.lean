/-!
# Texts of TOML

A text is written in single or double quotation marks, one of them on one line or three of them on
several. Writing takes the first form in which the text stands as it is, or nearly so.
-/

namespace CallAtlas.Toml

/-- Whether a character may not stand in a document by itself: a control character other than a tab. -/
def isControl (c : Char) : Bool := (c.toNat < 32 && c ≠ '\t') || c.toNat = 127

/-- The character with a code in hexadecimal digits. -/
def readCode (count : Nat) (cs : List Char) : Option (Char × List Char) :=
  let value (c : Char) : Option Nat :=
    if c.isDigit then some (c.toNat - 48)
    else if 'a' ≤ c && c ≤ 'f' then some (c.toNat - 87)
    else if 'A' ≤ c && c ≤ 'F' then some (c.toNat - 55)
    else none
  let digits := cs.take count
  match digits.mapM value with
  | none => none
  | some values =>
    let n := values.foldl (fun n v => 16 * n + v) 0
    if h : digits.length = count ∧ n.isValidChar then
      some (Char.ofNatAux n h.2, cs.drop count)
    else none

/-- What a backslash and the characters after it stand for. -/
def readEscape : List Char → Option (Char × List Char)
  | 'b' :: rest => some ('\x08', rest)
  | 'f' :: rest => some ('\x0c', rest)
  | 'n' :: rest => some ('\n', rest)
  | 'r' :: rest => some ('\r', rest)
  | 't' :: rest => some ('\t', rest)
  | '"' :: rest => some ('"', rest)
  | '\\' :: rest => some ('\\', rest)
  | 'u' :: rest => readCode 4 rest
  | 'U' :: rest => readCode 8 rest
  | _ => none

/-- The rest of a text in quotation marks on one line. `escapes` says whether a backslash has a meaning;
`done` holds the characters read, the last one first. -/
def readLine (quote : Char) (escapes : Bool) : Nat → List Char → List Char →
    Option (String × List Char)
  | 0, _, _ => none
  | _, _, [] => none
  | fuel + 1, done, c :: rest =>
    if c = quote then some (String.ofList done.reverse, rest)
    else if c = '\\' && escapes then
      match readEscape rest with
      | some (d, rest) => readLine quote escapes fuel (d :: done) rest
      | none => none
    else if isControl c then none
    else readLine quote escapes fuel (c :: done) rest

/-- The text without the blanks at its beginning. -/
def skipBlanks : List Char → List Char := List.dropWhile fun c => c == ' ' || c == '\t'

/-- The rest after a line break. -/
def readBreak : List Char → Option (List Char)
  | '\n' :: rest => some rest
  | '\r' :: '\n' :: rest => some rest
  | _ => none

/-- The text without the blanks and line breaks at its beginning. -/
def skipGaps : Nat → List Char → List Char
  | 0, cs => cs
  | fuel + 1, cs =>
    match readBreak (skipBlanks cs) with
    | some rest => skipGaps fuel rest
    | none => skipBlanks cs

/-- The rest of a text in three quotation marks. A backslash at the end of a line takes away the line
break and all blanks after it. Up to two quotation marks may stand before the last three. -/
def readLines (quote : Char) (escapes : Bool) : Nat → List Char → List Char →
    Option (String × List Char)
  | 0, _, _ => none
  | _, _, [] => none
  | fuel + 1, done, c :: rest =>
    if c = quote then
      let run := (c :: rest).takeWhile (· == quote)
      let rest := (c :: rest).drop run.length
      if run.length < 3 then readLines quote escapes fuel (run ++ done) rest
      else if run.length ≤ 5 then
        some (String.ofList (List.replicate (run.length - 3) quote ++ done).reverse, rest)
      else none
    else if c = '\\' && escapes then
      match readEscape rest with
      | some (d, rest) => readLines quote escapes fuel (d :: done) rest
      | none =>
        match readBreak (skipBlanks rest) with
        | some rest => readLines quote escapes fuel done (skipGaps rest.length rest)
        | none => none
    else
      match readBreak (c :: rest) with
      | some rest => readLines quote escapes fuel ('\n' :: done) rest
      | none => if isControl c then none else readLines quote escapes fuel (c :: done) rest

/-- A text on one line. -/
def readShort : List Char → Option (String × List Char)
  | '"' :: rest => readLine '"' true (rest.length + 1) [] rest
  | '\'' :: rest => readLine '\'' false (rest.length + 1) [] rest
  | _ => none

/-- A text in any form. A line break right after three quotation marks does not count. -/
def readText : List Char → Option (String × List Char)
  | '"' :: '"' :: '"' :: rest =>
    let rest := (readBreak rest).getD rest
    readLines '"' true (rest.length + 1) [] rest
  | '\'' :: '\'' :: '\'' :: rest =>
    let rest := (readBreak rest).getD rest
    readLines '\'' false (rest.length + 1) [] rest
  | cs => readShort cs

/-- The length of the longest run of a character. -/
def longestRun (c : Char) (cs : List Char) : Nat :=
  (cs.foldl (fun (longest, run) d =>
    if d = c then (max longest (run + 1), run + 1) else (longest, 0)) (0, 0)).1

/-- A hexadecimal digit, in upper case. -/
def upperHex (n : Nat) : Char := if n < 10 then Char.ofNat (48 + n) else Char.ofNat (55 + n)

/-- A character other than a quotation mark as it is written between double quotation marks. -/
def escapeChar (c : Char) : List Char :=
  if c = '\x08' then ['\\', 'b']
  else if c = '\t' then ['\\', 't']
  else if c = '\n' then ['\\', 'n']
  else if c = '\x0c' then ['\\', 'f']
  else if c = '\r' then ['\\', 'r']
  else if c = '\\' then ['\\', '\\']
  else if isControl c then
    ['\\', 'u', '0', '0', upperHex (c.toNat / 16), upperHex (c.toNat % 16)]
  else [c]

/-- The characters of a text between double quotation marks on one line. -/
def escapeLine (cs : List Char) : List Char :=
  cs.flatMap fun c => if c = '"' then ['\\', '"'] else escapeChar c

/-- The characters of a text between three double quotation marks. Of adjacent quotation marks every third
one is escaped; `run` counts those before. -/
def escapeLines : Nat → List Char → List Char
  | _, [] => []
  | run, c :: rest =>
    if c = '"' then
      if run = 2 then '\\' :: '"' :: escapeLines 0 rest else '"' :: escapeLines (run + 1) rest
    else if c = '\n' then '\n' :: escapeLines 0 rest
    else escapeChar c ++ escapeLines 0 rest

/-- A text in quotation marks. -/
def quote (s : String) : String :=
  let cs := s.toList
  let controls := cs.any fun c => isControl c && c ≠ '\n'
  let breaks := cs.contains '\n'
  let tripled (mark : String) (body : List Char) : String :=
    mark ++ (if breaks then "\n" else "") ++ String.ofList body ++ mark
  if !controls && !breaks && !cs.contains '\\' && !cs.contains '"' then
    "\"" ++ String.ofList (escapeLine cs) ++ "\""
  else if !controls && !breaks && !cs.contains '\'' then "'" ++ s ++ "'"
  else if !controls && !cs.contains '\\' && longestRun '"' cs ≤ 2 then
    tripled "\"\"\"" (escapeLines 0 cs)
  else if !controls && longestRun '\'' cs ≤ 2 then tripled "'''" cs
  else if breaks then tripled "\"\"\"" (escapeLines 0 cs)
  else "\"" ++ String.ofList (escapeLine cs) ++ "\""

end CallAtlas.Toml
