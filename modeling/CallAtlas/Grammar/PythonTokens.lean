import CallAtlas.Grammar.Rule

/-!
# The tokens of Python

The order matters: where two tokens of one rank match the same text, the earlier one wins. A token
that is a word, such as `if`, is a keyword only where the grammar has room for it and an identifier
everywhere else.
-/

namespace CallAtlas.Grammar.Python

open Pattern

/-- A decimal digit. -/
def digit : Pattern := .chars (CharSet.range '0' '9')

/-- A hexadecimal digit. -/
def hexDigit : Pattern :=
  .chars (CharSet.range 'a' 'f' ++ CharSet.range 'A' 'F' ++ CharSet.range '0' '9')

/-- Decimal digits, single underscores allowed after each group. -/
def digits : Pattern := .many1 (all [.many1 digit, optional (text "_")])

/-- Digits of one kind, single underscores allowed before each group. -/
def radixDigits (kind : Pattern) : Pattern := .many1 (all [optional (text "_"), .many1 kind])

/-- The mark of a long integer. -/
def longMark : Pattern := optional (anyOf "Ll")

/-- The mark of an imaginary number. -/
def imaginaryMark : Pattern := optional (anyOf "jJ")

/-- An integer in any radix. -/
def integer : Pattern :=
  oneOf [
    all [oneOf [text "0x", text "0X"], radixDigits hexDigit, longMark],
    all [oneOf [text "0o", text "0O"], radixDigits (.chars (CharSet.range '0' '7')), longMark],
    all [oneOf [text "0b", text "0B"], radixDigits (.chars (CharSet.range '0' '1')), longMark],
    all [digits, oneOf [longMark, imaginaryMark]]]

/-- A decimal exponent. -/
def exponent : Pattern := all [anyOf "eE", optional (anyOf "+-"), digits]

/-- A number with a point or an exponent. -/
def float : Pattern :=
  all [
    oneOf [
      all [digits, text ".", optional digits, optional exponent],
      all [optional digits, text ".", digits, optional exponent],
      all [digits, exponent]],
    imaginaryMark]

/-- A name. -/
def name : Pattern :=
  all [
    .chars ((95, 95) :: Text.nameStart),
    many (.chars ((95, 95) :: (Text.nameStart ++ Text.nameExtra)))]

/-- A line break. -/
def lineBreak : Pattern := all [optional (text "\r"), text "\n"]

/-- What may stand between tokens. -/
def blanks : Pattern :=
  oneOf [
    .chars [(9, 13), (32, 32), (0xFEFF, 0xFEFF), (0x2060, 0x2060), (0x200B, 0x200B)],
    lineBreak]

/-- A backslash in a string together with what it escapes. -/
def escape : Pattern :=
  all [
    text "\\",
    oneOf [
      all [text "u", times 4 hexDigit],
      all [text "U", times 8 hexDigit],
      all [text "x", times 2 hexDigit],
      times 3 digit,
      lineBreak,
      anyOf "'\"abfrntv\\",
      all [text "N\x7b", .many1 (.chars (CharSet.others (CharSet.anyOf "\x7d"))), text "\x7d"]]]

/-- A comment up to the end of its line. -/
def comment : Pattern := all [text "#", many (.chars (CharSet.others (CharSet.anyOf "\n")))]

/-- A backslash at the end of a line. -/
def continuation : Pattern := all [text "\\", oneOf [lineBreak, .chars [(0, 0)]]]

/-- A token with a pattern. -/
def patterned (name : String) (p : Pattern) : Token :=
  { name, pattern := p, visibility := .named, fixed := false }

/-- A token with one text and a name of its own. -/
def spelled (name : String) (literal : String) : Token :=
  { name, pattern := text literal, visibility := .named }

/-- The tokens in order of preference. -/
def tokens : Array Token :=
  (([";", "import", ".", "from", "__future__", "(", ")", ",", "as", "*", "print", ">>", "assert",
    ":=", "return", "del", "raise", "pass", "break", "continue", "if", ":", "elif", "else",
    "match", "case", "async", "for", "in", "while", "try", "except", "except*", "finally", "with",
    "def", "->", "**", "global", "nonlocal", "exec", "type", "=", "class", "[", "]", "@", "-", "_",
    "|", "\x7b", "\x7d", "+", "not", "and", "or", "/", "%", "//", "&", "^", "<<", "~", "<", "<=",
    "==", "!=", ">=", ">", "<>", "is", "lambda", "+=", "-=", "*=", "/=", "@=", "//=", "%=", "**=",
    ">>=", "<<=", "&=", "^=", "|=", "yield"].map Token.ofText) ++ [
    spelled "ellipsis" "...",
    { patterned "escape_sequence" escape with immediate := true, priority := 1 },
    { name := "lone backslash", pattern := text "\\", visibility := .hidden, immediate := true },
    { patterned "format text" (.many1 (.chars (CharSet.others (CharSet.anyOf "\x7b\x7d\n"))))
      with visibility := .hidden, priority := 1 },
    patterned "type_conversion" (all [text "!", .chars (CharSet.range 'a' 'z')]),
    patterned "integer" integer,
    patterned "float" float,
    patterned "identifier" name,
    Token.ofText "await",
    spelled "true" "True",
    spelled "false" "False",
    spelled "none" "None",
    patterned "comment" comment,
    patterned "line_continuation" continuation]).toArray

/-- The tokens that the layout finds: ends of lines, indentation and the parts of strings. -/
def layout : Array LayoutToken := #[
  ⟨"newline", .hidden⟩, ⟨"indent", .hidden⟩, ⟨"dedent", .hidden⟩, ⟨"string_start", .named⟩,
  ⟨"string text", .hidden⟩, ⟨"escape_interpolation", .named⟩, ⟨"string_end", .named⟩]

/-- The tokens whose admissibility tells the layout whether brackets are open. -/
def watched : List String := ["comment", "]", ")", "\x7d", "except"]

end CallAtlas.Grammar.Python
