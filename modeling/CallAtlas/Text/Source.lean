import CallAtlas.Text.Blank
import CallAtlas.Text.Position

/-!
# Source texts

A source is a text with its bytes in UTF-8. Places in it are counted in bytes, and a line ends at a
line feed or at the end of the text.
-/

namespace CallAtlas.Text

/-- A text with its bytes in UTF-8. -/
structure Source where
  text : String
  bytes : ByteArray
  bytes_eq : bytes = text.toUTF8

namespace Source

/-- The source with a text. -/
def ofText (text : String) : Source := { text, bytes := text.toUTF8, bytes_eq := rfl }

instance : Inhabited Source := ⟨ofText ""⟩

/-- How many bytes the source has. -/
def size (s : Source) : Nat := s.bytes.size

/-- The byte at a place, if the source has one there. -/
def byte? (s : Source) (i : Nat) : Option UInt8 := s.bytes[i]?

/-- The text between two places. Places that divide a character leave nothing. -/
def slice (s : Source) (start stop : Nat) : String :=
  (String.fromUTF8? (s.bytes.extract start stop)).getD ""

/-- Whether the byte at a place is a line feed. -/
def isLineFeed (s : Source) (i : Nat) : Bool := s.byte? i == some 10

/-- The end of the line on which a place lies. `left` is the number of bytes from there on. -/
def lineEndWithin (s : Source) : Nat → Nat → Nat
  | 0, i => i
  | left + 1, i => if s.isLineFeed i then i else lineEndWithin s left (i + 1)

/-- The end of the line on which a place lies: the first line feed at or after it, or the end of the
source. -/
def lineEnd (s : Source) (i : Nat) : Nat := s.lineEndWithin (s.size - i) i

/-- The beginning of the line on which a place lies: the place after the last line feed before it, or
the beginning of the source. -/
def lineStart (s : Source) : Nat → Nat
  | 0 => 0
  | i + 1 => if s.isLineFeed i then i + 1 else s.lineStart i

/-- The number of line feeds before a place. -/
def rowOf (s : Source) : Nat → Nat
  | 0 => 0
  | i + 1 => s.rowOf i + (if s.isLineFeed i then 1 else 0)

/-- How many bytes the blank characters take with which a text begins. -/
def blankBytes : List Char → Nat
  | [] => 0
  | c :: rest => if isBlank c then c.utf8Size + blankBytes rest else 0

/-- The first place at or after the given one where a character is not blank, or the end of the
source. -/
def skipBlanks (s : Source) (i : Nat) : Nat :=
  i + blankBytes (s.slice i s.size).toList

end Source

end CallAtlas.Text
