import CallAtlas.Proofs.Comments
import CallAtlas.Proofs.Syntax.InOrder
import CallAtlas.Proofs.Text.Bytes
import Mathlib.Data.Nat.PSub

/-!
# Lines of a definition

The range of lines of a record and its text are worked out in two ways, one from rows and the other from
bytes. Both pass over the line feed with which a token may end, on conditions of their own that come to
the same: that the token ends at the beginning of a line, and the definition begins before that. So the
text consists of the lines of the range, and working it out never leaves the source.
-/

namespace CallAtlas

open Syntax Text

/-- The positions of the nodes agree with the source, each node ends where it begins or later, and no
node begins before its parent. -/
structure Syntax.Tree.Located (t : Tree) : Prop where
  positions : ∀ m, Node.Within m t.root → t.source.Locates m.start ∧ t.source.Locates m.stop
  spans : ∀ m, Node.Within m t.root → m.start.byte ≤ m.stop.byte
  holds : ∀ m, Node.Within m t.root → ∀ c ∈ m.children, m.start.byte ≤ c.start.byte

namespace Extraction

/-! ## With bounds checked -/

/-- The first and the last line of a definition whose last token is given, unless a row comes out
negative. -/
def lineRange? (definition last : Node) : Option (Nat × Nat) :=
  (if last.stop.column = 0 && last.stop.row > definition.start.row then last.stop.row.psub 1
    else some last.stop.row).map fun row => (definition.start.row + 1, row + 1)

/-- The place from which `linesOf` looks for the end of the last line, unless it comes out negative. -/
def codeEnd? (definition last : Node) : Option Nat :=
  if last.stop.column = 0 && last.stop.byte > definition.start.byte then last.stop.byte.psub 1
  else some last.stop.byte

/-- `linesOf`, unless a place comes out negative, leaves the source or divides a character. The end of
the last line is looked for in the text that follows. -/
def linesOf? (source : Source) (definition last : Node) : Option String := do
  let start ← definition.start.byte.psub definition.start.column
  let stop ← codeEnd? definition last
  let following ← source.slice? stop source.size
  let lines ← source.slice? start (stop + width (following.toList.takeWhile (· ≠ '\n')))
  some (String.ofList (dropReturn lines.toList))

/-! ## A source around a definition -/

/-- The place from which `linesOf` looks for the end of the last line. -/
def codeEnd (definition last : Node) : Nat :=
  if last.stop.column = 0 && last.stop.byte > definition.start.byte then last.stop.byte - 1
  else last.stop.byte

theorem codeEnd?_eq (definition last : Node) :
    codeEnd? definition last = some (codeEnd definition last) := by
  rw [codeEnd?, codeEnd]
  split
  · rename_i hpast
    simp only [Bool.and_eq_true, decide_eq_true_eq] at hpast
    exact Nat.psub_eq_sub (Nat.one_le_of_lt hpast.2)
  · rfl

theorem lineRange?_eq (definition last : Node) :
    lineRange? definition last = some (definition.start.line, lastRow definition last + 1) := by
  rw [lineRange?, lastRow, Position.line]
  split
  · rename_i hpast
    simp only [Bool.and_eq_true, decide_eq_true_eq] at hpast
    rw [Nat.psub_eq_sub (Nat.one_le_of_lt hpast.2), Option.map_some]
  · rfl

/-- A source as the beginning of a definition and the end of its last token divide it. -/
structure Extent (s : Source) (definition last : Node) where
  /-- The lines before the definition. -/
  before : List Char
  /-- What stands before the definition on its first line. -/
  indent : List Char
  /-- The text from the beginning of the definition to the end of the last token. -/
  body : List Char
  after : List Char
  text : s.text.toList = before ++ indent ++ (body ++ after)
  atLineStart : AtLineStart before
  indentLine : '\n' ∉ indent
  startByte : definition.start.byte = width (before ++ indent)
  startColumn : definition.start.column = width indent
  startRow : definition.start.row = before.count '\n'
  stopByte : last.stop.byte = width (before ++ indent ++ body)
  stopColumn : last.stop.column = 0 → AtLineStart (before ++ indent ++ body)
  stopRow : last.stop.row = (before ++ indent ++ body).count '\n'

/-- A source as the lines of a definition divide it. A line feed with which the last token ends belongs
to no line and is left to what follows. -/
structure Division (s : Source) (definition last : Node) where
  /-- The lines before the definition. -/
  before : List Char
  /-- What stands before the definition on its first line. -/
  indent : List Char
  code : List Char
  /-- What stands behind the code on its last line. -/
  rest : List Char
  /-- What comes from the end of the last line on. -/
  after : List Char
  text : s.text.toList = before ++ (indent ++ code ++ rest) ++ after
  atLineStart : AtLineStart before
  atLineEnd : AtLineEnd after
  restLine : '\n' ∉ rest
  startByte : definition.start.byte = width (before ++ indent)
  startColumn : definition.start.column = width indent
  startRow : definition.start.row = before.count '\n'
  codeEnd_eq : codeEnd definition last = width (before ++ indent ++ code)
  lastRow_eq : lastRow definition last = (before ++ indent ++ code).count '\n'

section

variable {s : Source} {definition last : Node}

theorem nonempty_extent (hstart : s.Locates definition.start) (hstop : s.Locates last.stop)
    (hle : definition.start.byte ≤ last.stop.byte) : Nonempty (Extent s definition last) := by
  obtain ⟨before, indent, b, htext, hbefore, hindent, hbyte, hrow, hcolumn⟩ := hstart.exists_split
  obtain ⟨lines, line, after, htext', hlines, hline, hbyte', hrow', hcolumn'⟩ := hstop.exists_split
  obtain ⟨body, hbody, rfl⟩ := Source.exists_between htext htext' (by omega)
  refine ⟨{
    before, indent, body, after, text := htext
    atLineStart := hbefore, indentLine := hindent
    startByte := hbyte, startColumn := hcolumn, startRow := hrow
    stopByte := by rw [hbyte', hbody]
    stopColumn := fun hzero => ?_
    stopRow := ?_ }⟩
  · rw [← hbody, width_eq_zero_iff.1 (hcolumn'.symm.trans hzero), List.append_nil]
    exact hlines
  · rw [hrow', ← hbody, List.count_append, List.count_eq_zero.2 hline, Nat.add_zero]

/-- The last token ends at the beginning of a line. Then it ends with a line feed, which is passed over
in rows as in bytes. -/
theorem Extent.division_of_past (x : Extent s definition last) (hcolumn : last.stop.column = 0)
    (hlt : definition.start.byte < last.stop.byte) : Nonempty (Division s definition last) := by
  have hne : x.body ≠ [] := by
    intro hnil
    rw [x.startByte, x.stopByte, hnil, List.append_nil] at hlt
    exact Nat.lt_irrefl _ hlt
  obtain ⟨code, hcode⟩ := (x.stopColumn hcolumn).exists_lineFeed hne
  have hbyte : last.stop.byte = width (x.before ++ x.indent ++ code) + 1 := by
    rw [x.stopByte, hcode, ← List.append_assoc, width_append, width_lineFeed]
  have hrow : last.stop.row = (x.before ++ x.indent ++ code).count '\n' + 1 := by
    rw [x.stopRow, hcode, ← List.append_assoc, List.count_append, List.count_singleton_self]
  have hfirst : definition.start.row ≤ (x.before ++ x.indent ++ code).count '\n' := by
    rw [x.startRow, List.append_assoc, List.count_append]
    exact Nat.le_add_right _ _
  have hrows : definition.start.row < last.stop.row := by omega
  exact ⟨{
    before := x.before, indent := x.indent, code, rest := [], after := '\n' :: x.after
    text := by simpa [hcode] using x.text
    atLineStart := x.atLineStart, atLineEnd := .inr ⟨x.after, rfl⟩, restLine := nofun
    startByte := x.startByte, startColumn := x.startColumn, startRow := x.startRow
    codeEnd_eq := by rw [codeEnd, if_pos (by simp [hcolumn, hlt]), hbyte, Nat.add_sub_cancel]
    lastRow_eq := by rw [lastRow, if_pos (by simp [hcolumn, hrows]), hrow, Nat.add_sub_cancel] }⟩

/-- Otherwise nothing is passed over: a last token that ends at the beginning of a line ends where the
definition begins, which has no line but its first one then. -/
theorem Extent.division_of_not_past (x : Extent s definition last)
    (h : ¬ (last.stop.column = 0 ∧ definition.start.byte < last.stop.byte)) :
    Nonempty (Division s definition last) := by
  obtain ⟨rest, after, hafter, hrest, hend⟩ := exists_lineEnd x.after
  have hrows : ¬ (last.stop.column = 0 ∧ definition.start.row < last.stop.row) := by
    rintro ⟨hcolumn, hrow⟩
    have hwidth : width x.body = 0 := by
      have hstop : last.stop.byte = width (x.before ++ x.indent) + width x.body := by
        rw [x.stopByte, width_append]
      have hstart := x.startByte
      omega
    rw [x.startRow, x.stopRow, width_eq_zero_iff.1 hwidth, List.append_nil, List.count_append,
      List.count_eq_zero.2 x.indentLine] at hrow
    exact Nat.lt_irrefl _ hrow
  exact ⟨{
    before := x.before, indent := x.indent, code := x.body, rest, after
    text := by simpa [hafter] using x.text
    atLineStart := x.atLineStart, atLineEnd := hend, restLine := hrest
    startByte := x.startByte, startColumn := x.startColumn, startRow := x.startRow
    codeEnd_eq := by rw [codeEnd, if_neg (by simpa using h), x.stopByte]
    lastRow_eq := by rw [lastRow, if_neg (by simpa using hrows), x.stopRow] }⟩

/-- The conditions of `lastRow` and `linesOf` come to the same: either both pass over a line feed at
the end of the last token, or none does. -/
theorem nonempty_division (hstart : s.Locates definition.start) (hstop : s.Locates last.stop)
    (hle : definition.start.byte ≤ last.stop.byte) : Nonempty (Division s definition last) := by
  obtain ⟨x⟩ := nonempty_extent hstart hstop hle
  by_cases hpast : last.stop.column = 0 ∧ definition.start.byte < last.stop.byte
  · exact x.division_of_past hpast.1 hpast.2
  · exact x.division_of_not_past hpast

namespace Division

variable (d : Division s definition last)

theorem psub_startColumn : definition.start.byte.psub definition.start.column =
    some (width d.before) := by
  rw [d.startByte, d.startColumn, width_append, Nat.psub_eq_sub (Nat.le_add_left _ _),
    Nat.add_sub_cancel]

theorem linesOf_eq : linesOf s definition last =
    String.ofList (dropReturn (d.indent ++ d.code ++ d.rest)) := by
  have hcode : s.text.toList = d.before ++ d.indent ++ d.code ++ d.rest ++ d.after := by
    simpa using d.text
  have hstart : definition.start.byte - definition.start.column = width d.before := by
    rw [d.startByte, d.startColumn, width_append, Nat.add_sub_cancel]
  have hstop : s.lineEnd (codeEnd definition last) =
      width (d.before ++ (d.indent ++ d.code ++ d.rest)) := by
    rw [d.codeEnd_eq, Source.lineEnd_of_split hcode d.restLine d.atLineEnd]
    simp only [List.append_assoc]
  rw [codeEnd] at hstop
  rw [linesOf, hstart, hstop, Source.slice_of_split d.text, String.toList_ofList]

theorem following_eq : s.slice? (codeEnd definition last) s.size =
    some (String.ofList (d.rest ++ d.after)) := by
  have htext : s.text.toList = (d.before ++ d.indent ++ d.code) ++ (d.rest ++ d.after) ++ [] := by
    simpa using d.text
  have hsize : s.size = width (d.before ++ d.indent ++ d.code ++ (d.rest ++ d.after)) := by
    rw [Source.size_eq, htext, List.append_nil]
  rw [d.codeEnd_eq, hsize, Source.slice?_of_split htext]

theorem takeWhile_following : (d.rest ++ d.after).takeWhile (· ≠ '\n') = d.rest := by
  rw [List.takeWhile_append_of_pos fun c hc => ?_]
  · rcases d.atLineEnd with hafter | ⟨cs, hafter⟩
    · rw [hafter, List.takeWhile_nil, List.append_nil]
    · rw [hafter, List.takeWhile_cons_of_neg (by simp), List.append_nil]
  · rw [decide_eq_true_eq]
    rintro rfl
    exact d.restLine hc

theorem linesOf?_eq : linesOf? s definition last =
    some (String.ofList (dropReturn (d.indent ++ d.code ++ d.rest))) := by
  have hend : codeEnd definition last + width d.rest =
      width (d.before ++ (d.indent ++ d.code ++ d.rest)) := by
    rw [d.codeEnd_eq, ← width_append]
    simp only [List.append_assoc]
  simp only [linesOf?, d.psub_startColumn, codeEnd?_eq, d.following_eq, Option.bind_eq_bind,
    Option.bind_some, String.toList_ofList, d.takeWhile_following, hend,
    Source.slice?_of_split d.text]

theorem span_eq : span s.text.toList definition.start.line (lastRow definition last + 1) =
    d.indent ++ d.code ++ d.rest := by
  have hlast : lastRow definition last =
      (d.before ++ (d.indent ++ d.code ++ d.rest)).count '\n' := by
    rw [d.lastRow_eq]
    simp [List.count_eq_zero.2 d.restLine]
  rw [hlast, Position.line, d.startRow, d.text, span_eq_of_split d.atLineStart d.atLineEnd]

theorem startRow_le_lastRow (d : Division s definition last) :
    definition.start.row ≤ lastRow definition last := by
  rw [d.startRow, d.lastRow_eq, List.append_assoc, List.count_append]
  exact Nat.le_add_right _ _

theorem lastRow_le_count (d : Division s definition last) :
    lastRow definition last ≤ s.text.toList.count '\n' := by
  rw [d.lastRow_eq, d.text]
  simp only [List.count_append]
  omega

theorem lastRow_eq_rowOf (d : Division s definition last) :
    lastRow definition last = s.rowOf (codeEnd definition last) := by
  have htext : s.text.toList = (d.before ++ d.indent ++ d.code) ++ (d.rest ++ d.after) := by
    simpa using d.text
  rw [d.lastRow_eq, d.codeEnd_eq, Source.rowOf_of_split htext]

end Division

/-- The place of the last byte of a definition, or where it begins if it has none. -/
def lastByte (definition last : Node) : Nat :=
  if definition.start.byte < last.stop.byte then last.stop.byte - 1 else definition.start.byte

/-- The line on which the last byte stands is the one whose end is looked for. -/
theorem rowOf_codeEnd (hstop : s.Locates last.stop)
    (hle : definition.start.byte ≤ last.stop.byte) :
    s.rowOf (codeEnd definition last) = s.rowOf (lastByte definition last) := by
  rw [lastByte, codeEnd]
  split
  · rename_i hpast
    simp only [Bool.and_eq_true, decide_eq_true_eq] at hpast
    rw [if_pos hpast.2]
  · rename_i hnot
    split
    · rename_i hlt
      -- the last byte is no line feed, since the last token does not end at the beginning of a line
      obtain ⟨i, hi⟩ : ∃ i, last.stop.byte = i + 1 := ⟨last.stop.byte - 1, by omega⟩
      have hfeed : s.isLineFeed i ≠ true := by
        intro hfeed
        have hcolumn := hstop.column
        rw [hi, Source.lineStart, if_pos hfeed, Nat.sub_self] at hcolumn
        exact hnot (by simpa using ⟨hcolumn, hlt⟩)
      rw [hi, Source.rowOf, if_neg hfeed, Nat.add_sub_cancel, Nat.add_zero]
    · rw [Nat.le_antisymm (Nat.le_of_not_lt ‹_›) hle]

end

/-! ## The records -/

/-- The range of lines of a record and its text are the same lines of the source, those from the
beginning of the definition to its last byte. Working them out never leaves the source. -/
structure LinesMatch (s : Source) (definition : Node) (r : FunctionRecord) : Prop where
  first : 1 ≤ r.startLine
  ascending : r.startLine ≤ r.endLine
  last : r.endLine ≤ s.text.toList.count '\n' + 1
  startLine : r.startLine = s.rowOf definition.start.byte + 1
  endLine : r.endLine = s.rowOf (lastByte definition definition.lastCodeToken) + 1
  sourceText : r.sourceText =
    String.ofList (dropReturn (span s.text.toList r.startLine r.endLine))
  lineRange : lineRange? definition definition.lastCodeToken = some (r.startLine, r.endLine)
  linesOf : linesOf? s definition definition.lastCodeToken = some r.sourceText

theorem linesMatch_recordOf {t : Tree} (h : t.Located) {m : Node} (hm : Node.Within m t.root)
    (name : Node) (isAsync : Bool) (depth : Nat) :
    LinesMatch t.source m (recordOf t.source m name isAsync depth) := by
  have hlast : Node.Within m.lastCodeToken t.root := m.within_lastCodeToken.trans hm
  have hstart := (h.positions m hm).1
  have hstop := (h.positions _ hlast).2
  have hle : m.start.byte ≤ m.lastCodeToken.stop.byte :=
    (Node.start_le_of_within (fun k hk => h.holds k (hk.trans hm)) m.within_lastCodeToken).trans
      (h.spans _ hlast)
  obtain ⟨d⟩ := nonempty_division hstart hstop hle
  exact {
    first := Nat.le_add_left 1 _
    ascending := Nat.succ_le_succ d.startRow_le_lastRow
    last := Nat.succ_le_succ d.lastRow_le_count
    startLine := congrArg Nat.succ hstart.row
    endLine := congrArg Nat.succ (d.lastRow_eq_rowOf.trans (rowOf_codeEnd hstop hle))
    sourceText := d.linesOf_eq.trans (by rw [← d.span_eq]; rfl)
    lineRange := lineRange?_eq _ _
    linesOf := d.linesOf?_eq.trans (congrArg some d.linesOf_eq.symm) }

/-- The range of lines of a record and its text are the same lines of the source, from the line on
which the definition begins to the one on which its last byte stands, whether the last token ends just
after a line feed, spans several lines or ends with the source. -/
theorem lines_match {t : Tree} (h : t.Located) (policy : DuplicatePolicy) :
    (policy ≠ .reject → ∃ e, ofTree policy t = .ok e) ∧
    ∀ e, ofTree policy t = .ok e → ∃ places : List Place, places.Pairwise (· < ·) ∧
      (∀ p, p ∈ places ↔ ∃ name, t.Defines p name) ∧
      List.Forall₂ (Records t) places e.functions ∧
      List.Forall₂ (fun p r => ∃ m, t.root.nodeAt? p = some m ∧ LinesMatch t.source m r)
        places e.functions := by
  refine ofTree_records (P := List.Forall₂ fun p r =>
    ∃ m, t.root.nodeAt? p = some m ∧ LinesMatch t.source m r) ?_ policy
  rw [List.forall₂_map_right_iff]
  refine (forall₂_definitions t).imp fun p d hd => ?_
  obtain ⟨m, name, isAsync, hm, -, rfl⟩ := exists_of_definitionOf hd
  exact ⟨m, hm, linesMatch_recordOf h ⟨p, hm⟩ name isAsync _⟩

theorem located_continuedProgram : (continuedProgram []).Located where
  positions := by
    have hpositions : ∀ m ∈ (continuedProgram []).root.preorder,
        (continuedProgram []).source.Locates m.start ∧
        (continuedProgram []).source.Locates m.stop := by decide
    simpa only [Node.mem_preorder] using hpositions
  spans := by
    have hspans : ∀ m ∈ (continuedProgram []).root.preorder, m.start.byte ≤ m.stop.byte := by decide
    simpa only [Node.mem_preorder] using hspans
  holds := by
    have hholds : ∀ m ∈ (continuedProgram []).root.preorder,
        ∀ c ∈ m.children, m.start.byte ≤ c.start.byte := by decide
    simpa only [Node.mem_preorder] using hholds

/-- The last token ends just after a line feed. -/
theorem lines_match_continuedProgram : (continuedProgram []).Located ∧
    ∃ e r m, ofTree .firstWins (continuedProgram []) = .ok e ∧ e.functions = [r] ∧
      (continuedProgram []).root.nodeAt? [0] = some m ∧ m.lastCodeToken.stop = ⟨16, 1, 0⟩ ∧
      LinesMatch (continuedProgram []).source m r := by
  obtain ⟨hok, hlines⟩ := lines_match located_continuedProgram .firstWins
  obtain ⟨e, he⟩ := hok (by decide)
  obtain ⟨places, hascending, hplaces, -, hmatch⟩ := hlines e he
  have hone : placesOfDefinitions (continuedProgram []) = [[0]] := by rfl
  rw [eq_placesOfDefinitions hascending hplaces, hone, List.forall₂_cons_left_iff] at hmatch
  obtain ⟨r, _, ⟨m, hm, hr⟩, hnil, hfunctions⟩ := hmatch
  rw [List.forall₂_nil_left_iff.1 hnil] at hfunctions
  refine ⟨located_continuedProgram, e, r, m, he, hfunctions, hm, ?_, hr⟩
  rw [← Option.some.inj hm]
  rfl

end Extraction

end CallAtlas
