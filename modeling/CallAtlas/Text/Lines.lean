/-!
# Lines of a text
-/

namespace CallAtlas.Text

/-- The text without one carriage return at its end. -/
def dropReturn (cs : List Char) : List Char :=
  match cs.reverse with
  | '\r' :: rest => rest.reverse
  | _ => cs

/-- The lines of a text. A line ends with a line feed, perhaps after a carriage return; nothing is
after the last line feed. `line` holds the characters of the line being read, the last one first, and
`done` the lines read, the last one first. -/
def splitLines (line : List Char) (done : List String) : List Char → List String
  | [] => (if line.isEmpty then done else String.ofList line.reverse :: done).reverse
  | c :: rest =>
    if c = '\n' then splitLines [] (String.ofList (dropReturn line.reverse) :: done) rest
    else splitLines (c :: line) done rest

/-- The lines of a text, without what ends them. -/
def lines (s : String) : List String := splitLines [] [] s.toList

end CallAtlas.Text
