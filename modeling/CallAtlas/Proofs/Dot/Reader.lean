import CallAtlas.Proofs.Dot.Escape

/-!
# Reading graphs in DOT

A reader of the form in which graphs are written: line by line, with the texts between quotation marks
unescaped. It refuses all else. Each line that is written is read as what was written, whatever texts
stand in it.
-/

namespace CallAtlas.Dot

/-- What a line between the header and the footer says. -/
inductive Statement where
  /-- A node, perhaps with a colour of its own. -/
  | node (name : String) (fillColor : Option String)
  | edge (source target : String)
deriving DecidableEq, Repr

/-- A graph as it is read. -/
structure Document where
  name : String
  rankdir : String
  nodeShape : String
  nodeStyle : String
  fillColor : String
  /-- The nodes and edges in the order of their lines. -/
  statements : List Statement
deriving DecidableEq, Repr

/-! ## The reader -/

/-- What comes after a text, if that is where the line goes on. -/
def expect : List Char → List Char → Option (List Char)
  | [], cs => some cs
  | _ :: _, [] => none
  | d :: ds, c :: cs => if d = c then expect ds cs else none

/-- Reads a text between quotation marks. -/
def readText (line : List Char) : Option (String × List Char) := do
  let rest ← expect ['"'] line
  let (cs, after) ← readQuoted rest
  return (String.ofList cs, after)

/-- Reads a name without quotation marks. -/
def readWord : List Char → Option (String × List Char)
  | [] => none
  | c :: cs =>
    if isNameChar c && !c.isDigit then
      some (String.ofList ((c :: cs).takeWhile isNameChar), (c :: cs).dropWhile isNameChar)
    else none

/-- Reads a text with or without quotation marks. -/
def readValue (line : List Char) : Option (String × List Char) :=
  (readText line).or (readWord line)

/-- Reads the line with the name of the graph. -/
def readName (line : List Char) : Option String := do
  let (name, rest) ← readText (← expect "digraph ".toList line)
  if rest = " \x7b".toList then some name else none

/-- Reads the line with the direction. -/
def readRankdir (line : List Char) : Option String := do
  let (rankdir, rest) ← readText (← expect "  rankdir=".toList line)
  if rest = ";".toList then some rankdir else none

/-- Reads the line with the shape, the style and the colour of the nodes. -/
def readDefaults (line : List Char) : Option (String × String × String) := do
  let (shape, rest) ← readValue (← expect "  node [shape=".toList line)
  let (style, rest) ← readText (← expect ", style=".toList rest)
  let (color, rest) ← readText (← expect ", fillcolor=".toList rest)
  if rest = "];".toList then some (shape, style, color) else none

/-- Reads the rest of the line of an edge. -/
def readTarget (source : String) (line : List Char) : Option Statement := do
  let (target, rest) ← readText (← expect " -> ".toList line)
  if rest = ";".toList then some (.edge source target) else none

/-- Reads the rest of the line of a node with a colour of its own. -/
def readColor (name : String) (line : List Char) : Option Statement := do
  let (color, rest) ← readText (← expect " [fillcolor=".toList line)
  if rest = "];".toList then some (.node name (some color)) else none

/-- Reads the line of a node or an edge. -/
def readStatement (line : List Char) : Option Statement := do
  let (name, rest) ← readText (← expect "  ".toList line)
  if rest = ";".toList then some (.node name none)
  else (readTarget name rest).or (readColor name rest)

/-- Reads the lines of a graph. -/
def readLines : List (List Char) → Option Document
  | first :: second :: third :: rest => do
    let name ← readName first
    let rankdir ← readRankdir second
    let (nodeShape, nodeStyle, fillColor) ← readDefaults third
    let statements ← rest.dropLast.mapM readStatement
    if rest.getLast? = some "\x7d".toList then
      some { name, rankdir, nodeShape, nodeStyle, fillColor, statements }
    else none
  | _ => none

/-- Reads a graph. -/
def read (text : String) : Option Document := readLines (text.toList.splitOn '\n')

/-! ## What is written is read -/

theorem expect_append (ds cs : List Char) : expect ds (ds ++ cs) = some cs := by
  induction ds with
  | nil => rfl
  | cons d ds ih => simp [expect, ih]

theorem toList_quote (s : String) : (quote s).toList = '"' :: (escape s.toList ++ ['"']) := by
  simp [quote]

theorem readText_quote (s : String) (after : List Char) :
    readText ((quote s).toList ++ after) = some (s, after) := by
  have hquoted := readQuoted_escape s.toList after
  simp [readText, toList_quote, expect, hquoted]

theorem isPlain_iff (s : String) : isPlain s = true ↔
    ∃ c cs, s.toList = c :: cs ∧ c.isDigit = false ∧ ∀ d ∈ c :: cs, isNameChar d = true := by
  rw [isPlain]
  cases s.toList with
  | nil => simp
  | cons c cs =>
    constructor
    · intro hplain
      exact ⟨c, cs, rfl, by simpa using hplain⟩
    · rintro ⟨_, _, ⟨rfl, rfl⟩, hplain⟩
      simpa using hplain

theorem readWord_plain {s : String} (hs : isPlain s = true) {d : Char}
    (hd : isNameChar d = false) (after : List Char) :
    readWord (s.toList ++ d :: after) = some (s, d :: after) := by
  obtain ⟨c, cs, hcs, hdigit, hall⟩ := (isPlain_iff s).1 hs
  have htake : (s.toList ++ d :: after).takeWhile isNameChar = s.toList := by
    rw [List.takeWhile_append_of_pos (by rwa [hcs])]
    simp [hd]
  have hdrop : (s.toList ++ d :: after).dropWhile isNameChar = d :: after := by
    rw [List.dropWhile_append_of_pos (by rwa [hcs])]
    simp [hd]
  have hc : isNameChar c = true := hall c (by simp)
  rw [hcs, List.cons_append] at htake hdrop ⊢
  rw [readWord, htake, hdrop, ← hcs]
  simp [hc, hdigit]

theorem readText_plain {s : String} (hs : isPlain s = true) (after : List Char) :
    readText (s.toList ++ after) = none := by
  obtain ⟨c, cs, hcs, -, hall⟩ := (isPlain_iff s).1 hs
  have hc : '"' ≠ c := by
    rintro rfl
    have hquote := hall '"' (by simp)
    exact absurd hquote (by decide)
  simp [readText, hcs, expect, hc]

theorem readValue_quoteUnlessPlain (s : String) {d : Char} (hd : isNameChar d = false)
    (after : List Char) :
    readValue ((quoteUnlessPlain s).toList ++ d :: after) = some (s, d :: after) := by
  rw [quoteUnlessPlain]
  split
  · rename_i hs
    rw [readValue, readText_plain hs, readWord_plain hs hd]
    rfl
  · rw [readValue, readText_quote]
    rfl

/-- The lines of the header, read. -/
theorem readName_header (s : String) :
    readName ("digraph " ++ quote s ++ " \x7b").toList = some s := by
  simp only [readName, String.toList_append, List.append_assoc, expect_append, Option.bind_eq_bind,
    Option.bind_some, readText_quote, if_true]

theorem readRankdir_header (s : String) :
    readRankdir ("  rankdir=" ++ quote s ++ ";").toList = some s := by
  simp only [readRankdir, String.toList_append, List.append_assoc, expect_append,
    Option.bind_eq_bind, Option.bind_some, readText_quote, if_true]

theorem readDefaults_header (shape style color : String) :
    readDefaults ("  node [shape=" ++ quoteUnlessPlain shape ++ ", style=" ++ quote style ++
      ", fillcolor=" ++ quote color ++ "];").toList = some (shape, style, color) := by
  -- a shape without quotation marks ends at the comma, which no name contains
  have hvalue := fun after => readValue_quoteUnlessPlain shape (d := ',') (by decide) after
  have hcomma : ", style=".toList = ',' :: " style=".toList := by decide
  simp only [readDefaults, String.toList_append, List.append_assoc, expect_append,
    Option.bind_eq_bind, Option.bind_some]
  rw [hcomma, List.cons_append, hvalue, Option.bind_some, ← List.cons_append, ← hcomma]
  simp only [expect_append, Option.bind_some, readText_quote, if_true]

theorem readStatement_nodeLine (s : String) :
    readStatement (nodeLine s).toList = some (.node s none) := by
  simp only [readStatement, nodeLine, String.toList_append, List.append_assoc, expect_append,
    Option.bind_eq_bind, Option.bind_some, readText_quote, if_true]

theorem readStatement_edgeLine (a b : String) :
    readStatement (edgeLine a b).toList = some (.edge a b) := by
  have hne : " -> ".toList ++ ((quote b).toList ++ ";".toList) ≠ ";".toList := by
    simp [toList_quote]
  simp only [readStatement, edgeLine, String.toList_append, List.append_assoc, expect_append,
    Option.bind_eq_bind, Option.bind_some, readText_quote, if_neg hne, readTarget, if_true,
    Option.some_or]

theorem readStatement_colouredNodeLine (s color : String) :
    readStatement (colouredNodeLine s color).toList = some (.node s (some color)) := by
  have hne : " [fillcolor=".toList ++ ((quote color).toList ++ "];".toList) ≠ ";".toList := by
    simp [toList_quote]
  have hedge : ∀ after, expect " -> ".toList (" [fillcolor=".toList ++ after) = none := by
    intro after
    rfl
  simp only [readStatement, colouredNodeLine, String.toList_append, List.append_assoc,
    expect_append, Option.bind_eq_bind, Option.bind_some, readText_quote, if_neg hne, readTarget,
    hedge, Option.bind_none, readColor, if_true, Option.none_or]

/-! ## Lines -/

theorem newline_not_mem_quote (s : String) : '\n' ∉ (quote s).toList := by
  simp [toList_quote, newline_not_mem_escape]

theorem newline_not_mem_quoteUnlessPlain (s : String) : '\n' ∉ (quoteUnlessPlain s).toList := by
  rw [quoteUnlessPlain]
  split
  · rename_i hs
    obtain ⟨c, cs, hcs, -, hall⟩ := (isPlain_iff s).1 hs
    rw [hcs]
    intro hmem
    exact absurd (hall _ hmem) (by decide)
  · exact newline_not_mem_quote s

theorem newline_not_mem_header (style : GraphStyle) : ∀ line ∈ header style, '\n' ∉ line.toList := by
  simp [header, newline_not_mem_quote, newline_not_mem_quoteUnlessPlain]

theorem newline_not_mem_nodeLine (s : String) : '\n' ∉ (nodeLine s).toList := by
  simp [nodeLine, newline_not_mem_quote]

theorem newline_not_mem_colouredNodeLine (s color : String) :
    '\n' ∉ (colouredNodeLine s color).toList := by
  simp [colouredNodeLine, newline_not_mem_quote]

theorem newline_not_mem_edgeLine (a b : String) : '\n' ∉ (edgeLine a b).toList := by
  simp [edgeLine, newline_not_mem_quote]

/-- Texts put together from lines are split into these lines. -/
theorem splitOn_assemble {lines : List String} (hne : lines ≠ [])
    (h : ∀ line ∈ lines, '\n' ∉ line.toList) :
    (assemble lines).toList.splitOn '\n' = lines.map String.toList := by
  rw [assemble, String.toList_intercalate]
  refine List.splitOn_intercalate '\n' ?_ (by simpa using hne)
  intro line hline
  obtain ⟨s, hs, rfl⟩ := List.mem_map.1 hline
  exact h s hs

/-! ## Whole graphs -/

namespace Statement

/-- The line that says it. -/
def line : Statement → String
  | node name none => nodeLine name
  | node name (some color) => colouredNodeLine name color
  | edge source target => edgeLine source target

theorem readStatement_line : ∀ s : Statement, readStatement s.line.toList = some s
  | node name none => readStatement_nodeLine name
  | node name (some color) => readStatement_colouredNodeLine name color
  | edge source target => readStatement_edgeLine source target

theorem newline_not_mem_line : ∀ s : Statement, '\n' ∉ s.line.toList
  | node name none => newline_not_mem_nodeLine name
  | node name (some color) => newline_not_mem_colouredNodeLine name color
  | edge source target => newline_not_mem_edgeLine source target

end Statement

/-- The node a line says, if it is the line of a node. -/
def nodeOf? : Statement → Option String
  | .node name _ => some name
  | .edge .. => none

/-- The edge a line says, if it is the line of an edge. -/
def edgeOf? : Statement → Option Graph.Edge
  | .node .. => none
  | .edge source target => some ⟨source, target⟩

/-- A graph with the settings of a style. -/
def documentOf (style : GraphStyle) (statements : List Statement) : Document where
  name := style.name
  rankdir := style.rankdir
  nodeShape := style.nodeShape
  nodeStyle := style.nodeStyle
  fillColor := style.fillColor
  statements

/-- The lines of a graph: the header, a line for each node and each edge, and the footer. -/
def linesOf (style : GraphStyle) (statements : List Statement) : List String :=
  header style ++ statements.map Statement.line ++ [footer]

theorem length_linesOf (style : GraphStyle) (statements : List Statement) :
    (linesOf style statements).length = 3 + statements.length + 1 := by
  simp [linesOf, header]
  omega

theorem newline_not_mem_linesOf (style : GraphStyle) (statements : List Statement) :
    ∀ line ∈ linesOf style statements, '\n' ∉ line.toList := by
  intro line hline
  simp only [linesOf, List.mem_append, List.mem_map, List.mem_singleton] at hline
  rcases hline with (hline | ⟨s, -, rfl⟩) | rfl
  · exact newline_not_mem_header style line hline
  · exact s.newline_not_mem_line
  · decide

/-- The text has the lines that were put together, and no other. -/
theorem splitOn_linesOf (style : GraphStyle) (statements : List Statement) :
    (assemble (linesOf style statements)).toList.splitOn '\n' =
      (linesOf style statements).map String.toList :=
  splitOn_assemble (by simp [linesOf]) (newline_not_mem_linesOf style statements)

theorem mapM_readStatement (statements : List Statement) :
    (statements.map fun s => s.line.toList).mapM readStatement = some statements := by
  induction statements with
  | nil => rfl
  | cons s statements ih =>
    rw [List.map_cons, List.mapM_cons, s.readStatement_line, ih]
    rfl

/-- A header, lines for nodes and edges and the footer are read as what they say. -/
theorem read_linesOf (style : GraphStyle) (statements : List Statement) :
    read (assemble (linesOf style statements)) = some (documentOf style statements) := by
  have hread := mapM_readStatement statements
  rw [read, splitOn_linesOf]
  simp only [linesOf, header, List.cons_append, List.nil_append, List.map_cons, List.map_append,
    List.map_map, Function.comp_def, List.map_nil, readLines, readName_header, readRankdir_header,
    readDefaults_header, Option.bind_eq_bind, Option.bind_some, List.dropLast_concat, hread,
    List.getLast?_concat, footer, if_true, documentOf]

end CallAtlas.Dot
