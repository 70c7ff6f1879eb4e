/-!
# Positions in a text

A position counts the bytes before it, the line breaks before it, and the bytes since the last of
these. Only a line feed breaks a line.
-/

namespace CallAtlas.Text

/-- A place between two characters of a text, or at one of its ends. -/
structure Position where
  /-- The number of bytes before it. -/
  byte : Nat
  /-- The number of line feeds before it. -/
  row : Nat
  /-- The number of bytes since the last line feed. -/
  column : Nat
deriving DecidableEq, Inhabited, Repr

namespace Position

/-- The beginning of a text. -/
def origin : Position := ⟨0, 0, 0⟩

/-- The number of the line, counted from one. -/
def line (p : Position) : Nat := p.row + 1

/-- The position after a character of `width` bytes. -/
def after (p : Position) (codePoint width : Nat) : Position :=
  if codePoint = 10 then ⟨p.byte + width, p.row + 1, 0⟩
  else ⟨p.byte + width, p.row, p.column + width⟩

end Position

end CallAtlas.Text
