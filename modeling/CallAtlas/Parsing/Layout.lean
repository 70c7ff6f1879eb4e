import CallAtlas.Parsing.Reader

/-!
# Layout

Indentation, ends of lines and strings are not described by patterns: what they mean depends on the
indentations of the open blocks and on the strings that are open. `Layout.scan` finds their tokens.
-/

namespace CallAtlas.Parsing

open Grammar Text

/-- How an open string was begun. -/
structure Delimiter where
  /-- The code point of the quotation mark. -/
  quote : Nat
  raw : Bool := false
  format : Bool := false
  bytes : Bool := false
  /-- Whether the mark is written three times. -/
  triple : Bool := false
deriving DecidableEq, Inhabited

/-- What the layout remembers between tokens. -/
structure Layout where
  /-- Whether the last string begun or ended was begun as a format string. -/
  insideFormat : Bool := false
  /-- The open strings, innermost first. -/
  delimiters : List Delimiter := []
  /-- The indentations of the open blocks, innermost first. -/
  indents : List Nat := []
deriving DecidableEq, Inhabited

namespace Layout

/-- The numbers of the signals by which the parser tells what it expects. -/
inductive Signal where
  | newline
  | indent
  | dedent
  | stringStart
  | stringText
  | escapedBrace
  | stringEnd
  | comment
  | closeSquare
  | closeRound
  | closeCurly
  | exceptWord

namespace Signal

/-- The number of a signal. The first seven are also the numbers of the layout's tokens. -/
def number : Signal → Nat
  | newline => 0
  | indent => 1
  | dedent => 2
  | stringStart => 3
  | stringText => 4
  | escapedBrace => 5
  | stringEnd => 6
  | comment => 7
  | closeSquare => 8
  | closeRound => 9
  | closeCurly => 10
  | exceptWord => 11

end Signal

/-- The indentation of the innermost block. -/
def indentation (l : Layout) : Nat := l.indents.headD 0

/-- The innermost string is closed. -/
def closeString (l : Layout) : Layout :=
  { l with delimiters := l.delimiters.tail, insideFormat := false }

/-- The last `n` elements of a list. -/
def lastOnes {α : Type} (n : Nat) (xs : List α) : List α := xs.drop (xs.length - n)

/-- What is remembered: at most 255 strings, and no more indentations than fit with them and two
more into 1024 places; the innermost ones are forgotten. -/
def remembered (l : Layout) : Layout :=
  let strings := lastOnes 255 l.delimiters
  { l with delimiters := strings, indents := lastOnes (1022 - strings.length) l.indents }

/-- What a scan finds: a token with the layout after it, or nothing. -/
abbrev Finding := Option (Signal × Layout) × Reader

/-- A doubled brace in a format string. -/
def scanEscapedBrace (l : Layout) (r : Reader) : Finding :=
  let brace := r.ahead
  let next := r.mark.advance
  if next.ahead = brace then (some (.escapedBrace, l), next.advance.mark) else (none, next)

/-- What follows the backslash of a raw string belongs to it: a quotation mark or backslash, and
a line break. -/
def passRawEscape (d : Delimiter) (r : Reader) : Reader :=
  let r := r.advance
  let r := if r.ahead = d.quote || r.ahead = 92 then r.advance else r
  if r.ahead = 13 then
    let r := r.advance
    if r.ahead = 10 then r.advance else r
  else if r.ahead = 10 then r.advance else r

/-- A mark that may end a string written with three of them. -/
def scanTripleQuote (l : Layout) (d : Delimiter) (hasText : Bool) (r : Reader) : Finding :=
  let first := r.mark.advance
  if first.ahead = d.quote then
    let second := first.advance
    if second.ahead = d.quote then
      if hasText then (some (.stringText, l), second)
      else (some (.stringEnd, l.closeString), second.advance.mark)
    else (some (.stringText, l), second.mark)
  else (some (.stringText, l), first.mark)

/-- The text of a string up to its end, an escape or a brace that matters; nothing if there is none.
`none` as the first component says that the string goes on to the end of the text. `fuel` bounds the
number of characters. -/
def scanString (l : Layout) (d : Delimiter) : Nat → Bool → Reader → Option Finding × Reader
  | 0, _, r => (none, r)
  | fuel + 1, hasText, r =>
    let textSoFar (r : Reader) : Option Finding × Reader :=
      (some (if hasText then some (.stringText, l) else none, r), r)
    if r.ahead = 0 then (none, r)
    else if (r.ahead = 123 || r.ahead = 125) && d.format then textSoFar r.mark
    else if r.ahead = 92 then
      if d.raw then scanString l d fuel hasText (passRawEscape d r)
      else if d.bytes then
        let next := r.mark.advance
        if next.ahead = 78 || next.ahead = 117 || next.ahead = 85 then
          scanString l d fuel true next.advance.advance
        else textSoFar next
      else textSoFar r.mark
    else if r.ahead = d.quote then
      if d.triple then
        let found := scanTripleQuote l d hasText r
        (some found, found.2)
      else if hasText then (some (some (.stringText, l), r.mark), r)
      else
        let closed := r.advance.mark
        (some (some (.stringEnd, l.closeString), closed), closed)
    else if r.ahead = 10 && hasText && !d.triple then (some (none, r), r)
    else scanString l d fuel true r.advance

/-- The blank part of a text before a token. -/
structure Gap where
  /-- Whether it contains the end of a line. -/
  lineEnds : Bool := false
  /-- The indentation after it. -/
  indent : Nat := 0
  /-- The indentation of the first comment in it. -/
  commentIndent : Option Nat := none

/-- Passes a comment up to the end of its line. -/
def skipComment : Nat → Reader → Reader
  | 0, r => r
  | fuel + 1, r => if r.ahead = 0 || r.ahead = 10 then r else skipComment fuel r.skip

/-- Passes blanks, line ends, continued lines and, if `comments` says so, comments on lines of their
own. The first component is `none` where a comment follows other text, or a backslash stands alone.
A tab counts as eight blanks; a return or form feed starts the count anew. -/
def scanGap (comments : Bool) : Nat → Gap → Reader → Option Gap × Reader
  | 0, g, r => (some g, r)
  | fuel + 1, g, r =>
    if r.ahead = 10 then scanGap comments fuel { g with lineEnds := true, indent := 0 } r.skip
    else if r.ahead = 32 then scanGap comments fuel { g with indent := g.indent + 1 } r.skip
    else if r.ahead = 13 || r.ahead = 12 then scanGap comments fuel { g with indent := 0 } r.skip
    else if r.ahead = 9 then scanGap comments fuel { g with indent := g.indent + 8 } r.skip
    else if r.ahead = 35 && comments then
      if !g.lineEnds then (none, r)
      else
        scanGap comments fuel
          { g with commentIndent := g.commentIndent.or (some g.indent), indent := 0 }
          (skipComment r.left r).skip
    else if r.ahead = 92 then
      let next := r.skip
      let next := if next.ahead = 13 then next.skip else next
      if next.ahead = 10 || next.atEnd then scanGap comments fuel g next.skip else (none, next)
    else if r.atEnd then (some { g with indent := 0, lineEnds := true }, r)
    else (some g, r)

/-- The letters before a quotation mark, which say what kind of string begins. -/
def scanStringKind : Nat → Delimiter → Reader → Delimiter × Reader
  | 0, d, r => (d, r)
  | fuel + 1, d, r =>
    if r.ahead = 102 || r.ahead = 70 then scanStringKind fuel { d with format := true } r.advance
    else if r.ahead = 114 || r.ahead = 82 then scanStringKind fuel { d with raw := true } r.advance
    else if r.ahead = 98 || r.ahead = 66 then scanStringKind fuel { d with bytes := true } r.advance
    else if r.ahead = 117 || r.ahead = 85 then scanStringKind fuel d r.advance
    else (d, r)

/-- The beginning of a string. -/
def scanStringStart (l : Layout) (r : Reader) : Finding :=
  let (d, r) := scanStringKind r.left { quote := 0 } r
  if r.ahead = 96 || r.ahead = 39 || r.ahead = 34 then
    let d := { d with quote := r.ahead }
    let once := r.advance.mark
    let (d, r) :=
      if d.quote ≠ 96 && once.ahead = d.quote then
        let twice := once.advance
        if twice.ahead = d.quote then ({ d with triple := true }, twice.advance.mark) else (d, twice)
      else (d, once)
    (some (.stringStart, { l with delimiters := d :: l.delimiters, insideFormat := d.format }), r)
  else (none, r)

/-- An indentation, dedentation, line end or beginning of a string after blanks. -/
def scanBetween (l : Layout) (expects : Signal → Bool) (recovering : Bool) (r : Reader) : Finding :=
  let comments := expects .indent || expects .dedent || expects .newline || expects .exceptWord
  match scanGap comments (2 * r.left) {} r.mark with
  | (none, r) => (none, r)
  | (some gap, r) =>
    let inBrackets := expects .closeCurly || expects .closeSquare || expects .closeRound
    let beginsString := expects .stringStart && (r.ahead = 34 || r.ahead = 39 || r.ahead = 96)
    let mayDedent := expects .dedent ||
      (!expects .newline && !beginsString && !inBrackets)
    if gap.lineEnds && expects .indent && gap.indent > l.indentation then
      (some (.indent, { l with indents := gap.indent % 256 :: l.indents }), r)
    else if gap.lineEnds && mayDedent && gap.indent < l.indentation && !l.insideFormat &&
        gap.commentIndent.all (· < l.indentation) then
      (some (.dedent, { l with indents := l.indents.tail }), r)
    else if gap.lineEnds && expects .newline && !recovering then (some (.newline, l), r)
    else if gap.commentIndent.isNone && expects .stringStart then scanStringStart l r
    else (none, r)

/-- The token of the layout that comes next, where the parser sends the given signals. A parser
that would take both a string's text and an indentation is recovering from an error. -/
def scan (l : Layout) (signals : Bits) (r : Reader) : Finding :=
  let expects (s : Signal) : Bool := signals.has s.number
  let recovering := expects .stringText && expects .indent
  match l.delimiters with
  | d :: _ =>
    if expects .escapedBrace && (r.ahead = 123 || r.ahead = 125) && !recovering && d.format then
      scanEscapedBrace l r
    else if expects .stringText && !recovering then
      match scanString l d (r.left + 1) false r with
      | (some found, _) => found
      | (none, r) => scanBetween l expects recovering r
    else scanBetween l expects recovering r
  | [] => scanBetween l expects recovering r

end Layout

end CallAtlas.Parsing
