import CallAtlas.Proofs.Dot.Reader
import Mathlib.Data.List.Forall2

/-!
# Tokens of DOT

A text in DOT is read as keywords, names and signs, with blanks between them. A name is a word, a
numeral, a text between quotation marks or one between angle brackets; a word that is a keyword, in
upper or lower case, is no name. Left out are comments, texts joined by plus signs and lines for a
preprocessor, which begin with signs that do not occur here outside quotation marks.

The lines that are written are read as the tokens that were meant: each quotation mark that is written
to close a text does so, whatever the text is. Only for a shape it depends on the shape whether it is
read as a name or as a keyword.
-/

namespace CallAtlas.Dot

/-- The words that are no names. -/
inductive Keyword where
  | strict
  | graph
  | digraph
  | subgraph
  | node
  | edge
deriving DecidableEq, Repr

/-- The keyword that a word is. Upper and lower case make no difference. -/
def keyword? (word : List Char) : Option Keyword :=
  match String.ofList (word.map Char.toLower) with
  | "strict" => some .strict
  | "graph" => some .graph
  | "digraph" => some .digraph
  | "subgraph" => some .subgraph
  | "node" => some .node
  | "edge" => some .edge
  | _ => none

/-- A name as it is written. -/
inductive Name where
  | word (cs : List Char)
  | numeral (cs : List Char)
  /-- What stands between the quotation marks. -/
  | quoted (cs : List Char)
  /-- What stands between the angle brackets. -/
  | markup (cs : List Char)
deriving DecidableEq, Repr

/-- The parts of a text. -/
inductive Token where
  | keyword (k : Keyword)
  | name (n : Name)
  | openBrace
  | closeBrace
  | openBracket
  | closeBracket
  | comma
  | semicolon
  | colon
  | equals
  | arrow
  | line
deriving DecidableEq, Repr

/-! ## The reader of tokens -/

/-- Whether a character may stand between tokens. -/
def isSpace (c : Char) : Bool := c == ' ' || c == '\t' || c == '\r' || c == '\n'

/-- Whether a word may begin with a character: a letter, an underscore, or any character that is not
in ASCII. -/
def isWordStart (c : Char) : Bool := c.isAlpha || c == '_' || 128 ≤ c.toNat

/-- Whether a word may go on with a character. -/
def isWordChar (c : Char) : Bool := isWordStart c || c.isDigit

/-- The token that a word is. -/
def wordToken (cs : List Char) : Token :=
  match keyword? cs with
  | some k => .keyword k
  | none => .name (.word cs)

/-- The characters up to the quotation mark that ends a text, as they are written, and what comes after.
A backslash belongs to the character behind it. -/
def splitQuoted : List Char → Option (List Char × List Char)
  | [] => none
  | '"' :: rest => some ([], rest)
  | '\\' :: c :: rest => (splitQuoted rest).map fun (cs, after) => ('\\' :: c :: cs, after)
  | c :: rest => (splitQuoted rest).map fun (cs, after) => (c :: cs, after)

/-- The characters up to the angle bracket that ends a text, and what comes after. `depth` is the number
of angle brackets that are open inside the text. -/
def splitMarkup (depth : Nat) : List Char → Option (List Char × List Char)
  | [] => none
  | '<' :: rest => (splitMarkup (depth + 1) rest).map fun (cs, after) => ('<' :: cs, after)
  | '>' :: rest =>
    match depth with
    | 0 => some ([], rest)
    | depth + 1 => (splitMarkup depth rest).map fun (cs, after) => ('>' :: cs, after)
  | c :: rest => (splitMarkup depth rest).map fun (cs, after) => (c :: cs, after)

/-- Digits, perhaps with a point among them, and what comes after. -/
def splitDigits (cs : List Char) : List Char × List Char :=
  match cs.dropWhile Char.isDigit with
  | '.' :: rest =>
    (cs.takeWhile Char.isDigit ++ '.' :: rest.takeWhile Char.isDigit, rest.dropWhile Char.isDigit)
  | rest => (cs.takeWhile Char.isDigit, rest)

/-- A numeral behind a sign, and what comes after. It has at least one digit. -/
def splitUnsigned (sign cs : List Char) : Option (List Char × List Char) :=
  if (splitDigits cs).1.any Char.isDigit then
    some (sign ++ (splitDigits cs).1, (splitDigits cs).2)
  else none

/-- A numeral, perhaps with a sign, and what comes after. -/
def splitNumeral : List Char → Option (List Char × List Char)
  | '-' :: rest => splitUnsigned ['-'] rest
  | cs => splitUnsigned [] cs

/-- A name that has been split off, as a token. -/
def named (f : List Char → Name) : List Char × List Char → Token × List Char
  | (cs, after) => (.name (f cs), after)

/-- The token at the beginning of a text that begins with no word, and what comes after it. -/
def readSign : Char → List Char → Option (Token × List Char)
  | '"', rest => (splitQuoted rest).map (named .quoted)
  | '<', rest => (splitMarkup 0 rest).map (named .markup)
  | '\x7b', rest => some (.openBrace, rest)
  | '\x7d', rest => some (.closeBrace, rest)
  | '[', rest => some (.openBracket, rest)
  | ']', rest => some (.closeBracket, rest)
  | ',', rest => some (.comma, rest)
  | ';', rest => some (.semicolon, rest)
  | ':', rest => some (.colon, rest)
  | '=', rest => some (.equals, rest)
  | '-', '>' :: rest => some (.arrow, rest)
  | '-', '-' :: rest => some (.line, rest)
  | c, rest => (splitNumeral (c :: rest)).map (named .numeral)

/-- The token at the beginning of a text that is not empty, and what comes after it. -/
def readToken (c : Char) (rest : List Char) : Option (Token × List Char) :=
  if isWordStart c then
    some (wordToken (c :: rest.takeWhile isWordChar), rest.dropWhile isWordChar)
  else readSign c rest

theorem length_splitQuoted {cs text after : List Char} (h : splitQuoted cs = some (text, after)) :
    after.length ≤ cs.length := by
  fun_induction splitQuoted cs generalizing text after with
  | case1 => cases h
  | case2 rest =>
    cases h
    exact Nat.le_succ _
  | case3 c rest ih =>
    obtain ⟨⟨text, after⟩, hrest, heq⟩ := Option.map_eq_some_iff.1 h
    cases heq
    exact Nat.le_add_right_of_le (Nat.le_add_right_of_le (ih hrest))
  | case4 c rest hquote hbackslash ih =>
    obtain ⟨⟨text, after⟩, hrest, heq⟩ := Option.map_eq_some_iff.1 h
    cases heq
    exact Nat.le_add_right_of_le (ih hrest)

theorem length_splitMarkup {depth : Nat} {cs text after : List Char}
    (h : splitMarkup depth cs = some (text, after)) : after.length ≤ cs.length := by
  fun_induction splitMarkup depth cs generalizing text after with
  | case1 => cases h
  | case3 rest =>
    cases h
    exact Nat.le_succ _
  | case2 _ _ ih | case4 _ _ ih | case5 _ _ _ _ _ ih =>
    obtain ⟨⟨text, after⟩, hrest, heq⟩ := Option.map_eq_some_iff.1 h
    cases heq
    exact Nat.le_add_right_of_le (ih hrest)

theorem splitDigits_append (cs : List Char) : (splitDigits cs).1 ++ (splitDigits cs).2 = cs := by
  rw [splitDigits]
  split
  · rename_i rest hrest
    rw [List.append_assoc, List.cons_append, List.takeWhile_append_dropWhile, ← hrest,
      List.takeWhile_append_dropWhile]
  · exact List.takeWhile_append_dropWhile

theorem length_splitUnsigned {sign cs text after : List Char}
    (h : splitUnsigned sign cs = some (text, after)) : after.length < cs.length := by
  obtain ⟨hdigit, heq⟩ := Option.ite_none_right_eq_some.1 h
  cases heq
  have hne : (splitDigits cs).1 ≠ [] := fun hnil => by simp [hnil] at hdigit
  have hpos := List.length_pos_iff.2 hne
  have happend := congrArg List.length (splitDigits_append cs)
  rw [List.length_append] at happend
  omega

theorem length_splitNumeral {cs text after : List Char} (h : splitNumeral cs = some (text, after)) :
    after.length < cs.length := by
  rw [splitNumeral.eq_def] at h
  split at h
  · exact Nat.lt_succ_of_lt (length_splitUnsigned h)
  · exact length_splitUnsigned h

theorem length_readSign {c : Char} {rest after : List Char} {t : Token}
    (h : readSign c rest = some (t, after)) : after.length ≤ rest.length := by
  -- three of the signs begin a name
  have hname {o : Option (List Char × List Char)} {f : List Char → Name}
      (h : o.map (named f) = some (t, after)) : ∃ cs, o = some (cs, after) := by
    obtain ⟨⟨cs, after⟩, hcs, heq⟩ := Option.map_eq_some_iff.1 h
    cases heq
    exact ⟨cs, hcs⟩
  unfold readSign at h
  split at h
  case h_1 =>
    obtain ⟨cs, hcs⟩ := hname h
    exact length_splitQuoted hcs
  case h_2 =>
    obtain ⟨cs, hcs⟩ := hname h
    exact length_splitMarkup hcs
  case h_13 =>
    obtain ⟨cs, hcs⟩ := hname h
    exact Nat.le_of_lt_succ (length_splitNumeral hcs)
  all_goals
    cases h
    simp

/-- A token takes at least one character. -/
theorem length_readToken {c : Char} {rest after : List Char} {t : Token}
    (h : readToken c rest = some (t, after)) : after.length ≤ rest.length := by
  rw [readToken] at h
  split at h
  · cases h
    exact (List.dropWhile_suffix _).length_le
  · exact length_readSign h

/-- The tokens of a text, if it consists of tokens and blanks. -/
def tokens : List Char → Option (List Token)
  | [] => some []
  | c :: rest =>
    if isSpace c then tokens rest
    else
      match _h : readToken c rest with
      | none => none
      | some (t, after) => (tokens after).map (t :: ·)
termination_by cs => cs.length
decreasing_by
  · exact Nat.lt_succ_self _
  · exact Nat.lt_succ_of_le (length_readToken ‹_›)

/-! ## What is written is read as it was meant -/

/-- The text is read as the tokens, whatever comes after it. -/
def SplitsInto (cs : List Char) (ts : List Token) : Prop :=
  ∀ after, tokens (cs ++ after) = (tokens after).map (ts ++ ·)

/-- Whether the characters are those of a word. -/
def isWord : List Char → Bool
  | [] => false
  | c :: rest => isWordStart c && rest.all isWordChar

/-- A text between quotation marks is one token, whatever the text is. -/
def quotedToken (s : String) : Token := .name (.quoted (escape s.toList))

theorem tokens_cons {c : Char} {rest after : List Char} {t : Token} (hc : isSpace c = false)
    (hread : readToken c rest = some (t, after)) :
    tokens (c :: rest) = (tokens after).map (t :: ·) := by
  rw [tokens, if_neg (by simp [hc])]
  split
  · rename_i hnone
    rw [hread] at hnone
    cases hnone
  · rename_i hsome
    rw [hread] at hsome
    cases hsome
    rfl

theorem isSpace_of_isWordStart {c : Char} (h : isWordStart c = true) : isSpace c = false := by
  rw [← Bool.not_eq_true, isSpace]
  simp only [Bool.or_eq_true, beq_iff_eq]
  rintro (((rfl | rfl) | rfl) | rfl) <;> exact absurd h (by decide)

namespace SplitsInto

variable {c d : Char} {cs ds rest : List Char} {ts us : List Token} {t : Token}

theorem nil : SplitsInto [] [] := by
  intro after
  rw [List.nil_append]
  exact Option.map_id'.symm

theorem tokens_eq (h : SplitsInto cs ts) : tokens cs = some ts := by
  have hcs := h []
  rw [List.append_nil, tokens, Option.map_some, List.append_nil] at hcs
  exact hcs

theorem append (hcs : SplitsInto cs ts) (hds : SplitsInto ds us) :
    SplitsInto (cs ++ ds) (ts ++ us) := by
  intro after
  rw [List.append_assoc, hcs, hds, Option.map_map]
  congr 1
  funext rest
  exact (List.append_assoc ts us rest).symm

theorem space (hc : isSpace c = true) (h : SplitsInto cs ts) : SplitsInto (c :: cs) ts := by
  intro after
  rw [List.cons_append, tokens, if_pos hc, h]

theorem token (rest : List Char) (hc : isSpace c = false)
    (hread : ∀ after, readToken c (rest ++ after) = some (t, after)) : SplitsInto (c :: rest) [t] :=
  fun after => tokens_cons hc (hread after)

/-- A sign is a token of its own, whatever comes after it. -/
theorem sign (hc : isSpace c = false) (hread : ∀ after, readToken c after = some (t, after))
    (h : SplitsInto cs ts) : SplitsInto (c :: cs) (t :: ts) :=
  (token [] hc hread).append h

/-- A word ends where it cannot go on. -/
theorem word {w : List Char} (hw : isWord w = true) (hd : isWordChar d = false)
    (h : SplitsInto (d :: cs) ts) : SplitsInto (w ++ d :: cs) (wordToken w :: ts) := by
  obtain ⟨c, rest, rfl⟩ := List.exists_cons_of_ne_nil (l := w) (by rintro rfl; cases hw)
  rw [isWord, Bool.and_eq_true, List.all_eq_true] at hw
  obtain ⟨hstart, hrest⟩ := hw
  intro after
  have hread : readToken c (rest ++ (d :: cs ++ after)) =
      some (wordToken (c :: rest), d :: cs ++ after) := by
    rw [readToken, if_pos hstart, List.takeWhile_append_of_pos hrest,
      List.dropWhile_append_of_pos hrest, List.cons_append,
      List.takeWhile_cons_of_neg (by simp [hd]), List.dropWhile_cons_of_neg (by simp [hd]),
      List.append_nil]
  rw [List.append_assoc, List.cons_append,
    tokens_cons (isSpace_of_isWordStart hstart) hread, h, Option.map_map]
  rfl

end SplitsInto

theorem splitQuoted_plain {c : Char} (h₁ : c ≠ '\\') (h₂ : c ≠ '"') (cs : List Char) :
    splitQuoted (c :: cs) = (splitQuoted cs).map fun p => (c :: p.1, p.2) := by
  rw [splitQuoted.eq_def]
  simp [h₁]

theorem splitQuoted_escapeChar (c : Char) (cs : List Char) : splitQuoted (escapeChar c ++ cs) =
    (splitQuoted cs).map fun p => (escapeChar c ++ p.1, p.2) := by
  rcases escapeChar_cases c with (rfl | rfl | rfl) | ⟨h₁, h₂, -, hc⟩
  · rfl
  · rfl
  · rfl
  · rw [hc, List.singleton_append, splitQuoted_plain h₁ h₂]
    rfl

/-- Nothing in a text that has been escaped ends it. -/
theorem splitQuoted_escape_append (cs after : List Char) : splitQuoted (escape cs ++ after) =
    (splitQuoted after).map fun p => (escape cs ++ p.1, p.2) := by
  induction cs with
  | nil => exact Option.map_id'.symm
  | cons c cs ih =>
    rw [escape_cons, List.append_assoc, splitQuoted_escapeChar, ih, Option.map_map]
    simp [Function.comp_def]

theorem splitQuoted_escape (cs after : List Char) :
    splitQuoted (escape cs ++ '"' :: after) = some (escape cs, after) := by
  rw [splitQuoted_escape_append, splitQuoted.eq_def]
  simp

theorem splitsInto_quote (s : String) : SplitsInto (quote s).toList [quotedToken s] := by
  rw [toList_quote]
  refine .token _ rfl fun after => ?_
  rw [List.append_assoc, List.singleton_append]
  show (splitQuoted _).map (named .quoted) = _
  rw [splitQuoted_escape]
  rfl

/-- The token of a text that stands between quotation marks if it needs them. -/
def valueToken (s : String) : Token :=
  if isPlain s then wordToken s.toList else quotedToken s

theorem isWord_of_isPlain {s : String} (h : isPlain s = true) : isWord s.toList = true := by
  obtain ⟨c, cs, hcs, hdigit, hall⟩ := (isPlain_iff s).1 h
  have hchar : ∀ d, isNameChar d = true → isWordChar d = true := by
    intro d hd
    simp only [isNameChar, Char.isAlphanum, Bool.or_eq_true] at hd
    simp only [isWordChar, isWordStart, Bool.or_eq_true]
    rcases hd with (hd | hd) | hd <;> simp [hd]
  have hstart := hchar c (hall c (by simp))
  rw [isWordChar, hdigit, Bool.or_false] at hstart
  rw [hcs, isWord, hstart, Bool.true_and, List.all_eq_true]
  exact fun d hd => hchar d (hall d (List.mem_cons_of_mem c hd))

theorem splitsInto_value (s : String) {d : Char} (hd : isWordChar d = false) {cs : List Char}
    {ts : List Token} (h : SplitsInto (d :: cs) ts) :
    SplitsInto ((quoteUnlessPlain s).toList ++ d :: cs) (valueToken s :: ts) := by
  rw [quoteUnlessPlain, valueToken]
  split
  · rename_i hs
    exact .word (isWord_of_isPlain hs) hd h
  · exact (splitsInto_quote s).append h

/-! ## Lines -/

/-- The tokens of the header. -/
def headerTokens (style : GraphStyle) : List Token :=
  [.keyword .digraph, quotedToken style.name, .openBrace,
    .name (.word "rankdir".toList), .equals, quotedToken style.rankdir, .semicolon,
    .keyword .node, .openBracket,
    .name (.word "shape".toList), .equals, valueToken style.nodeShape, .comma,
    .name (.word "style".toList), .equals, quotedToken style.nodeStyle, .comma,
    .name (.word "fillcolor".toList), .equals, quotedToken style.fillColor,
    .closeBracket, .semicolon]

/-- The tokens of the line that says something. -/
def Statement.tokens : Statement → List Token
  | node name none => [quotedToken name, .semicolon]
  | node name (some colour) =>
    [quotedToken name, .openBracket, .name (.word "fillcolor".toList), .equals, quotedToken colour,
      .closeBracket, .semicolon]
  | edge source target => [quotedToken source, .arrow, quotedToken target, .semicolon]

/-- The tokens of a graph. -/
def tokensOf (style : GraphStyle) (statements : List Statement) : List Token :=
  headerTokens style ++ statements.flatMap Statement.tokens ++ [.closeBrace]

namespace SplitsInto

variable {cs : List Char} {ts : List Token}

theorem semicolon (h : SplitsInto cs ts) : SplitsInto (';' :: cs) (.semicolon :: ts) :=
  h.sign rfl fun _ => rfl

theorem equals (h : SplitsInto cs ts) : SplitsInto ('=' :: cs) (.equals :: ts) :=
  h.sign rfl fun _ => rfl

theorem blank (h : SplitsInto cs ts) : SplitsInto (' ' :: cs) ts := h.space rfl

end SplitsInto

theorem splitsInto_name (s : String) : SplitsInto ("digraph " ++ quote s ++ " \x7b").toList
    [.keyword .digraph, quotedToken s, .openBrace] := by
  have hbefore : SplitsInto "digraph ".toList [.keyword .digraph] :=
    .word (w := "digraph".toList) rfl rfl (.blank .nil)
  have hafter : SplitsInto " \x7b".toList [.openBrace] := .blank (.sign rfl (fun _ => rfl) .nil)
  rw [String.toList_append, String.toList_append]
  exact (hbefore.append (splitsInto_quote s)).append hafter

theorem splitsInto_rankdir (s : String) : SplitsInto ("  rankdir=" ++ quote s ++ ";").toList
    [.name (.word "rankdir".toList), .equals, quotedToken s, .semicolon] := by
  have hbefore : SplitsInto "  rankdir=".toList [.name (.word "rankdir".toList), .equals] :=
    .blank (.blank (.word (w := "rankdir".toList) rfl rfl (.equals .nil)))
  rw [String.toList_append, String.toList_append]
  exact (hbefore.append (splitsInto_quote s)).append (.semicolon .nil)

theorem splitsInto_defaults (shape style colour : String) :
    SplitsInto ("  node [shape=" ++ quoteUnlessPlain shape ++ ", style=" ++ quote style ++
        ", fillcolor=" ++ quote colour ++ "];").toList
      [.keyword .node, .openBracket, .name (.word "shape".toList), .equals, valueToken shape, .comma,
        .name (.word "style".toList), .equals, quotedToken style, .comma,
        .name (.word "fillcolor".toList), .equals, quotedToken colour, .closeBracket, .semicolon] := by
  have hbefore : SplitsInto "  node [shape=".toList
      [.keyword .node, .openBracket, .name (.word "shape".toList), .equals] :=
    .blank (.blank (.word (w := "node".toList) rfl rfl (.blank (.sign rfl (fun _ => rfl)
      (.word (w := "shape".toList) rfl rfl (.equals .nil))))))
  have hstyle : SplitsInto ", style=".toList [.comma, .name (.word "style".toList), .equals] :=
    .sign rfl (fun _ => rfl) (.blank (.word (w := "style".toList) rfl rfl (.equals .nil)))
  have hcolour : SplitsInto ", fillcolor=".toList
      [.comma, .name (.word "fillcolor".toList), .equals] :=
    .sign rfl (fun _ => rfl) (.blank (.word (w := "fillcolor".toList) rfl rfl (.equals .nil)))
  have hafter : SplitsInto "];".toList [.closeBracket, .semicolon] :=
    .sign rfl (fun _ => rfl) (.semicolon .nil)
  -- a shape without quotation marks ends at the comma
  have hshape : SplitsInto ((quoteUnlessPlain shape).toList ++ ", style=".toList)
      [valueToken shape, .comma, .name (.word "style".toList), .equals] :=
    splitsInto_value shape rfl hstyle
  have hline := ((((hbefore.append hshape).append (splitsInto_quote style)).append hcolour).append
    (splitsInto_quote colour)).append hafter
  simpa only [String.toList_append, List.append_assoc, List.cons_append, List.nil_append] using hline

theorem splitsInto_line (s : Statement) : SplitsInto s.line.toList s.tokens := by
  have harrow : SplitsInto " -> ".toList [.arrow] :=
    .blank ((SplitsInto.token ['>'] rfl fun _ => rfl).append (.blank .nil))
  have hcolour : SplitsInto " [fillcolor=".toList
      [.openBracket, .name (.word "fillcolor".toList), .equals] :=
    .blank (.sign rfl (fun _ => rfl) (.word (w := "fillcolor".toList) rfl rfl (.equals .nil)))
  have hafter : SplitsInto "];".toList [.closeBracket, .semicolon] :=
    .sign rfl (fun _ => rfl) (.semicolon .nil)
  have hindent (name : String) : SplitsInto ("  ".toList ++ (quote name).toList)
      [quotedToken name] :=
    .blank (.blank (splitsInto_quote name))
  match s with
  | .node name none =>
    rw [Statement.line, nodeLine, String.toList_append, String.toList_append]
    exact (hindent name).append (.semicolon .nil)
  | .node name (some colour) =>
    simp only [Statement.line, colouredNodeLine, String.toList_append]
    exact (((hindent name).append hcolour).append (splitsInto_quote colour)).append hafter
  | .edge source target =>
    simp only [Statement.line, edgeLine, String.toList_append]
    exact (((hindent source).append harrow).append (splitsInto_quote target)).append
      (.semicolon .nil)

/-- Lines are read one after another. -/
theorem splitsInto_lines {lines : List (List Char)} {ts : List (List Token)}
    (h : List.Forall₂ SplitsInto lines ts) : SplitsInto (['\n'].intercalate lines) ts.flatten := by
  induction h with
  | nil => exact .nil
  | @cons line _ lines ts hline _ ih =>
    cases lines with
    | nil =>
      rw [List.intercalate_singleton, List.flatten_cons]
      simpa using hline.append ih
    | cons next lines =>
      rw [List.intercalate_cons_cons, List.append_assoc, List.flatten_cons]
      exact hline.append (.space rfl ih)

/-- A graph is read as the tokens that were meant. -/
theorem tokens_linesOf (style : GraphStyle) (statements : List Statement) :
    tokens (assemble (linesOf style statements)).toList = some (tokensOf style statements) := by
  have hheader : List.Forall₂ SplitsInto ((header style).map String.toList) [_, _, _] :=
    .cons (splitsInto_name style.name) (.cons (splitsInto_rankdir style.rankdir)
      (.cons (splitsInto_defaults style.nodeShape style.nodeStyle style.fillColor) .nil))
  have hstatements : List.Forall₂ SplitsInto ((statements.map Statement.line).map String.toList)
      (statements.map Statement.tokens) := by
    rw [List.map_map, List.forall₂_map_left_iff, List.forall₂_map_right_iff, List.forall₂_same]
    exact fun s _ => splitsInto_line s
  have hfooter : List.Forall₂ SplitsInto [footer.toList] [[.closeBrace]] :=
    .cons (.sign rfl (fun _ => rfl) .nil) .nil
  have hlines := splitsInto_lines (List.rel_append (List.rel_append hheader hstatements) hfooter)
  rw [assemble, String.toList_intercalate, linesOf, List.map_append, List.map_append]
  refine hlines.tokens_eq.trans ?_
  simp [tokensOf, headerTokens, List.flatMap]

end CallAtlas.Dot
