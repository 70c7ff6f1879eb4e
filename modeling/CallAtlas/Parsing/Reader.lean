import CallAtlas.Grammar.ParseTable
import CallAtlas.Text.Position

/-!
# Reading tokens

A `Reader` looks at one character of a text and remembers where the token that is being read begins
and ends. A recognizer, run on it, finds the longest token that the recognizer's choices leave.
-/

namespace CallAtlas.Parsing

open Grammar Text

/-- A place in a text with the character there and the bounds of the token being read. -/
structure Reader where
  /-- The text in UTF-8. -/
  text : ByteArray
  position : Position
  /-- The code point at the position; zero at the end of the text. -/
  ahead : Nat
  /-- How many bytes the character takes. -/
  width : Nat
  /-- Whether the position is the end of the text. -/
  atEnd : Bool
  /-- Where the token begins. -/
  start : Position
  /-- Where the token ends, if that is known. -/
  stop : Option Position

namespace Reader

/-- A byte of a text; zero after its end. -/
def byteAt (text : ByteArray) (i : Nat) : Nat :=
  if h : i < text.size then text[i].toNat else 0

/-- The code point at a byte of a text in UTF-8 and the number of its bytes. -/
def decode (text : ByteArray) (byte : Nat) : Nat × Nat :=
  let first := byteAt text byte
  let rest (i : Nat) : Nat := byteAt text (byte + i) % 64
  if first < 0x80 then (first, 1)
  else if first < 0xE0 then (first % 32 * 64 + rest 1, 2)
  else if first < 0xF0 then ((first % 16 * 64 + rest 1) * 64 + rest 2, 3)
  else (((first % 8 * 64 + rest 1) * 64 + rest 2) * 64 + rest 3, 4)

/-- The reader moved to a position. The bounds of the token stay. -/
def goTo (r : Reader) (p : Position) : Reader :=
  if p.byte ≥ r.text.size then { r with position := p, ahead := 0, width := 1, atEnd := true }
  else
    let (ahead, width) := decode r.text p.byte
    { r with position := p, ahead, width, atEnd := false }

/-- A reader at a position of a text. -/
def ofText (text : ByteArray) (p : Position) : Reader :=
  goTo { text, position := p, ahead := 0, width := 1, atEnd := false, start := p, stop := none } p

/-- Reads the character as a part of the token. At the end of the text nothing happens. -/
def advance (r : Reader) : Reader :=
  if r.atEnd then r else r.goTo (r.position.after r.ahead r.width)

/-- Passes the character, so that the token begins after it. -/
def skip (r : Reader) : Reader :=
  if r.atEnd then r else
    let next := r.advance
    { next with start := next.position }

/-- The token ends here unless a later end is marked. -/
def mark (r : Reader) : Reader := { r with stop := some r.position }

/-- Begins a token. A byte order mark at the beginning of the text is passed. -/
def begin (r : Reader) : Reader :=
  let r := { r with start := r.position, stop := none }
  if r.position.byte = 0 && r.ahead = 0xFEFF then r.skip else r

/-- Where the token ends. -/
def stopped (r : Reader) : Position := r.stop.getD r.position

/-- Ends a token. One that ends before it begins is moved to its end. -/
def finish (r : Reader) : Reader :=
  let stop := r.stopped
  { r with stop := some stop, start := if stop.byte < r.start.byte then stop else r.start }

/-- How many bytes are left, the end counted as one. -/
def left (r : Reader) : Nat := r.text.size + 1 - r.position.byte

/-- Runs a recognizer from a state until it cannot go on; returns the last token that was complete.
`fuel` bounds the number of characters. -/
def recognize (alphabet : Alphabet) (x : Recognizer) : Nat → Nat → Option Nat → Reader →
    Option Nat × Reader
  | 0, _, found, r => (found, r)
  | fuel + 1, s, found, r =>
    let state := x.states.getD s default
    let (found, r) := match state.accepts with
      | some token => (some token, r.mark)
      | none => (found, r)
    if r.atEnd then
      match state.atEnd.bind fun e => (x.states.getD e default).accepts with
      | some token => (some token, r.mark)
      | none => (found, r)
    else
      match state.moves.getD (alphabet.classOf r.ahead) none with
      | none => (found, r)
      | some (next, inToken) =>
        recognize alphabet x fuel next found (if inToken then r.advance else r.skip)

/-- The token that a recognizer finds here, starting in a state. -/
def read (alphabet : Alphabet) (x : Recognizer) (state : Nat) (r : Reader) :
    Option Nat × Reader :=
  let r := r.begin
  let (found, r) := recognize alphabet x (r.left + 1) state none r
  (found, r.finish)

end Reader

end CallAtlas.Parsing
