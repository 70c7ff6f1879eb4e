/-!
# Numbers, dates and times of TOML

Every function takes a text and returns what it has read at the beginning with the rest, or nothing.
-/

namespace CallAtlas.Toml

/-- The value of a digit in any base up to 16. -/
def digitValue (c : Char) : Nat :=
  if c.isDigit then c.toNat - 48 else if c.isLower then c.toNat - 87 else c.toNat - 55

/-- Whether a character is a hexadecimal digit. -/
def isHexDigit (c : Char) : Bool :=
  c.isDigit || ('a' ≤ c && c ≤ 'f') || ('A' ≤ c && c ≤ 'F')

/-- The value of some digits. -/
def digitsValue (base : Nat) (digits : List Char) : Nat :=
  digits.foldl (fun n c => base * n + digitValue c) 0

/-- Digits with single underscores between them. Returns the digits alone. -/
def readDigits (isDigit : Char → Bool) : List Char → Option (List Char × List Char)
  | c :: '_' :: rest =>
    if isDigit c then (readDigits isDigit rest).map fun (ds, rest) => (c :: ds, rest) else none
  | c :: rest =>
    if !isDigit c then none
    else if rest.head?.any isDigit then
      (readDigits isDigit rest).map fun (ds, rest) => (c :: ds, rest)
    else some ([c], rest)
  | [] => none

/-- A sign; returns whether it is a minus. -/
def readSign : List Char → Bool × List Char
  | '-' :: rest => (true, rest)
  | '+' :: rest => (false, rest)
  | cs => (false, cs)

/-- A decimal integer with its sign. A leading zero stands alone. -/
def readDecimal (cs : List Char) : Option (Bool × List Char × List Char) :=
  let (negative, cs) := readSign cs
  match cs with
  | '0' :: rest => some (negative, ['0'], rest)
  | _ => (readDigits Char.isDigit cs).map fun (ds, rest) => (negative, ds, rest)

/-- An integer of 64 bits. -/
def readInteger (cs : List Char) : Option (Int × List Char) := do
  let radix (base : Nat) (isDigit : Char → Bool) (cs : List Char) :
      Option (Bool × Nat × List Char) := do
    let (ds, rest) ← readDigits isDigit cs
    return (false, digitsValue base ds, rest)
  let (negative, n, rest) ← match cs with
    | '0' :: 'x' :: cs => radix 16 isHexDigit cs
    | '0' :: 'o' :: cs => radix 8 (fun c => '0' ≤ c && c ≤ '7') cs
    | '0' :: 'b' :: cs => radix 2 (fun c => c == '0' || c == '1') cs
    | _ => do
      let (negative, ds, rest) ← readDecimal cs
      pure (negative, digitsValue 10 ds, rest)
  if negative then
    if n ≤ Nat.pow 2 63 then return (-(n : Int), rest) else failure
  else if n < Nat.pow 2 63 then return ((n : Int), rest) else failure

/-- Whether a decimal number is too large for a double: at least halfway from the largest one to the
next power of two. -/
def overflows (digits : List Char) (exponent : Int) : Bool :=
  let n := digitsValue 10 digits
  let bound : Nat := Nat.pow 2 1024 - Nat.pow 2 970
  let magnitude : Int := (toString n).length + exponent
  if n = 0 || magnitude < 300 then false
  else if magnitude > 320 then true
  else if exponent < 0 then n ≥ bound * Nat.pow 10 (-exponent).toNat
  else n * Nat.pow 10 exponent.toNat ≥ bound

/-- A floating point number. One that would be positive infinity must be written so. -/
def readFloat (cs : List Char) : Option (List Char) := do
  match (readSign cs).2 with
  | 'i' :: 'n' :: 'f' :: rest => return rest
  | 'n' :: 'a' :: 'n' :: rest => return rest
  | _ =>
    let (negative, whole, rest) ← readDecimal cs
    let (fraction, rest) ← match rest with
      | '.' :: rest => readDigits Char.isDigit rest
      | _ => some ([], rest)
    let (exponent, exponentGiven, rest) ← match rest with
      | e :: more =>
        if e == 'e' || e == 'E' then do
          let (negative, more) := readSign more
          let (ds, rest) ← readDigits Char.isDigit more
          let n : Int := digitsValue 10 ds
          pure (if negative then -n else n, true, rest)
        else pure (0, false, rest)
      | [] => pure (0, false, rest)
    if fraction.isEmpty && !exponentGiven then failure
    if !negative && overflows (whole ++ fraction) (exponent - fraction.length) then failure
    return rest

/-- A number of exactly two digits within bounds. -/
def readTwo (low high : Nat) : List Char → Option (Nat × List Char)
  | a :: b :: rest =>
    let n := digitsValue 10 [a, b]
    if a.isDigit && b.isDigit && low ≤ n && n ≤ high then some (n, rest) else none
  | _ => none

/-- How many days a month has. -/
def daysIn (year month : Nat) : Nat :=
  if month = 2 then
    if year % 4 = 0 && (year % 100 ≠ 0 || year % 400 = 0) then 29 else 28
  else if [4, 6, 9, 11].contains month then 30 else 31

/-- A date. -/
def readDate : List Char → Option (List Char)
  | a :: b :: c :: d :: '-' :: rest => do
    if !([a, b, c, d].all Char.isDigit) then failure
    let (month, rest) ← readTwo 1 12 rest
    match rest with
    | '-' :: rest =>
      let (_, rest) ← readTwo 1 (daysIn (digitsValue 10 [a, b, c, d]) month) rest
      return rest
    | _ => failure
  | _ => none

/-- A time of day, perhaps with a fraction of a second. -/
def readTime (cs : List Char) : Option (List Char) := do
  let (_, rest) ← readTwo 0 23 cs
  match rest with
  | ':' :: rest =>
    let (_, rest) ← readTwo 0 59 rest
    match rest with
    | ':' :: rest =>
      let (_, rest) ← readTwo 0 60 rest
      match rest with
      | '.' :: d :: more =>
        if d.isDigit then return more.dropWhile Char.isDigit else return rest
      | _ => return rest
    | _ => failure
  | _ => failure

/-- The distance of a time from universal time. -/
def readOffset : List Char → Option (List Char)
  | 'Z' :: rest => some rest
  | 'z' :: rest => some rest
  | c :: rest => do
    if c ≠ '+' && c ≠ '-' then failure
    let (_, rest) ← readTwo 0 23 rest
    match rest with
    | ':' :: rest => return (← readTwo 0 59 rest).2
    | _ => failure
  | [] => none

/-- A date, a time, or both. -/
def readDateTime (cs : List Char) : Option (List Char) :=
  match readDate cs with
  | none => readTime cs
  | some rest =>
    match rest with
    | c :: more =>
      if c = 'T' || c = 't' || c = ' ' then
        match readTime more with
        | some rest => some ((readOffset rest).getD rest)
        | none => some rest
      else some rest
    | [] => some rest

end CallAtlas.Toml
