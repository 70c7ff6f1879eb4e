import CallAtlas.Listing.Report
import CallAtlas.Proofs.Extraction.LastLine
import CallAtlas.Proofs.Text.Lines
import CallAtlas.Proofs.Text.Names
import Mathlib.Data.Bool.AllAny

/-!
# The listing of functions

As text, each function has a heading and, if its source is asked for, the lines of its range behind bars
and an empty line. Since no line of a range is lost or doubled, the headings are told from the other
lines, the records are read back from them but for their sources, and without all other lines the listing
is the one without sources.
-/

namespace CallAtlas

open Syntax Text Extraction

namespace Listing

/-! ## The lines of a listing -/

/-- The line with the name of a function and the range of its lines. -/
def headingLine (r : FunctionRecord) : String :=
  (if r.isAsync then "async " else "") ++ r.name ++ " (lines " ++ toString r.startLine ++ "-" ++
    toString r.endLine ++ ")"

/-- What stands before a line of a program. -/
def bar : List Char := "    | ".toList

/-- A line of a program behind a bar, without a carriage return at its end. -/
def barred (row : List Char) : List Char := bar ++ dropReturn row

/-- Some lines are those of the range of a record, each behind a bar. -/
structure ShowsRange (source : Source) (r : FunctionRecord) (body : List (List Char)) : Prop where
  first : 1 ≤ r.startLine
  ascending : r.startLine ≤ r.endLine
  length : body.length = r.endLine - r.startLine + 1
  line : ∀ k < body.length, ∃ row, (rows source.text.toList)[r.startLine - 1 + k]? = some row ∧
    body[k]? = some (barred row)

/-- Some lines show a function: the heading, the lines of its range and an empty line. -/
def ShowsFunction (source : Source) (r : FunctionRecord) (block : List (List Char)) : Prop :=
  ∃ body, ShowsRange source r body ∧ block = (headingLine r).toList :: (body ++ [[]])

/-- Some lines are shown but for what is blank at their end, which is an empty line and the blank
characters at the end of the line before. -/
def TrimmedAtEnd (ls shown : List (List Char)) : Prop :=
  ls = [] ∧ shown = [[]] ∨
    ∃ before last, ls = before ++ [last, []] ∧ shown = before ++ [last.rdropWhile isBlank]

/-! ## Reading headings -/

/-- What the heading of a function says. -/
def said (r : FunctionRecord) : Bool × String × Nat × Nat :=
  (r.isAsync, r.name, r.startLine, r.endLine)

/-- The two numbers before the parenthesis at the end of a word. -/
def readRange (word : List Char) : Option (Nat × Nat) :=
  match word.dropLast.splitOn '-' with
  | [first, last] => some (Nat.ofDigitChars 10 first 0, Nat.ofDigitChars 10 last 0)
  | _ => none

/-- What a heading says, if a line is one: it has three words, or four if the function is
asynchronous. -/
def readHeading (line : List Char) : Option (Bool × String × Nat × Nat) :=
  match line.splitOn ' ' with
  | [name, _, range] => (readRange range).map fun range => (false, String.ofList name, range)
  | [_, name, _, range] => (readRange range).map fun range => (true, String.ofList name, range)
  | _ => none

/-- A listing shows some functions of a source, and `short` is the listing without their lines. -/
structure ShowsFunctions (source : Source) (rs : List FunctionRecord) (listing short : List Char) :
    Prop where
  lines : ∃ blocks, List.Forall₂ (ShowsFunction source) rs blocks ∧
    TrimmedAtEnd blocks.flatten (rows listing)
  /-- The headings are told from the other lines. -/
  headings : (rows listing).filter (fun line => (readHeading line).isSome) =
    rs.map fun r => (headingLine r).toList
  /-- The records are read back but for their sources. -/
  records : (rows listing).filterMap readHeading = rs.map said
  short : ['\n'].intercalate ((rows listing).filter fun line => (readHeading line).isSome) = short

section Heading

variable {r : FunctionRecord}

theorem heading_eq (r : FunctionRecord) : (heading r).toList = (headingLine r).toList ++ ['\n'] := by
  simp [heading, headingLine]

/-- The word of a heading with the numbers of the first and the last line. -/
def rangeWord (first last : Nat) : List Char :=
  Nat.toDigits 10 first ++ '-' :: (Nat.toDigits 10 last ++ [')'])

/-- The words of a heading. -/
def headingWords (r : FunctionRecord) : List (List Char) :=
  (if r.isAsync then ["async".toList] else []) ++
    [r.name.toList, "(lines".toList, rangeWord r.startLine r.endLine]

theorem toList_headingLine (r : FunctionRecord) :
    (headingLine r).toList = [' '].intercalate (headingWords r) := by
  rw [headingLine, headingWords, rangeWord]
  split <;> simp [List.intercalate, Nat.repr]

theorem isBlank_of_isDigit {c : Char} (h : c.isDigit = true) : isBlank c = false := by
  simp only [Char.isDigit, Bool.and_eq_true, decide_eq_true_eq, ge_iff_le, UInt32.le_iff_toNat_le] at h
  have hcode : 48 ≤ c.toNat ∧ c.toNat ≤ 57 := h
  simp only [isBlank, Bool.or_eq_false_iff, Bool.and_eq_false_iff, decide_eq_false_iff_not,
    beq_eq_false_iff_ne]
  omega

theorem isBlank_rangeWord (first last : Nat) : ∀ c ∈ rangeWord first last, isBlank c = false := by
  have hdigits {n : Nat} : ∀ c ∈ Nat.toDigits 10 n, isBlank c = false := fun c hc =>
    isBlank_of_isDigit (Nat.isDigit_of_mem_toDigits (by decide) (by decide) hc)
  simp only [rangeWord, List.forall_mem_append, List.forall_mem_cons]
  exact ⟨hdigits, rfl, hdigits, rfl, nofun⟩

theorem isBlank_headingWords (hname : isName r.name = true) :
    ∀ word ∈ headingWords r, ∀ c ∈ word, isBlank c = false := by
  have hasync : ∀ word ∈ (if r.isAsync then ["async".toList] else []), ∀ c ∈ word,
      isBlank c = false := by
    cases r.isAsync with
    | false => nofun
    | true => exact List.forall_mem_singleton.2 (List.all_iff_forall_prop.1 (by decide))
  simp only [headingWords, List.forall_mem_append, List.forall_mem_cons]
  exact ⟨hasync, fun c => isBlank_of_mem_isName hname, List.all_iff_forall_prop.1 (by decide),
    isBlank_rangeWord _ _, nofun⟩

theorem splitOn_headingLine (hname : isName r.name = true) :
    (headingLine r).toList.splitOn ' ' = headingWords r := by
  rw [toList_headingLine, List.splitOn_intercalate]
  · intro word hword hmem
    exact Bool.false_ne_true ((isBlank_headingWords hname word hword _ hmem).symm)
  · exact List.append_ne_nil_of_right_ne_nil _ (List.cons_ne_nil _ _)

theorem newline_not_mem_headingLine (hname : isName r.name = true) :
    '\n' ∉ (headingLine r).toList := by
  rw [toList_headingLine]
  intro hmem
  rcases mem_of_mem_intercalate hmem with hmem | ⟨word, hword, hmem⟩
  · revert hmem
    decide
  · exact Bool.false_ne_true ((isBlank_headingWords hname word hword _ hmem).symm)

theorem readRange_rangeWord (first last : Nat) :
    readRange (rangeWord first last) = some (first, last) := by
  have hdash (n : Nat) : '-' ∉ Nat.toDigits 10 n := fun hmem =>
    Bool.false_ne_true (Nat.isDigit_of_mem_toDigits (by decide) (by decide) hmem)
  have hword : (rangeWord first last).dropLast =
      Nat.toDigits 10 first ++ '-' :: Nat.toDigits 10 last := by
    rw [rangeWord, ← List.cons_append, ← List.append_assoc, List.dropLast_concat]
  rw [readRange, hword, List.splitOn_append_cons_self_of_not_mem (hdash first),
    List.splitOn_eq_singleton (hdash last)]
  simp only [Nat.ofDigitChars_ten_toDigits]

theorem readHeading_headingLine (hname : isName r.name = true) :
    readHeading (headingLine r).toList = some (said r) := by
  rw [readHeading, splitOn_headingLine hname, headingWords, said]
  cases r.isAsync with
  | false => simp [readRange_rangeWord]
  | true => simp [readRange_rangeWord]

theorem readHeading_nil : readHeading [] = none := rfl

/-- A line behind a bar has more words than a heading. -/
theorem readHeading_barred (cs : List Char) : readHeading (bar ++ cs) = none := by
  have hbar : bar ++ cs = [] ++ ' ' :: ([] ++ ' ' :: ([] ++ ' ' :: ([] ++ ' ' ::
    (['|'] ++ ' ' :: cs)))) := rfl
  obtain ⟨word, words, hwords⟩ := List.exists_cons_of_ne_nil (List.splitOn_ne_nil ' ' cs)
  rw [readHeading, hbar]
  simp only [List.splitOn_append_cons_self_of_not_mem (a := ' ') (by decide : ' ' ∉ []),
    List.splitOn_append_cons_self_of_not_mem (a := ' ') (by decide : ' ' ∉ ['|']), hwords]

end Heading

/-! ## The lines of a range -/

/-- A record has a range of lines of a source, the last of which is not blank, and their text. -/
structure Fits (source : Source) (r : FunctionRecord) : Prop where
  name : isName r.name = true
  first : 1 ≤ r.startLine
  ascending : r.startLine ≤ r.endLine
  last : r.endLine ≤ (rows source.text.toList).length
  sourceText : r.sourceText =
    String.ofList (dropReturn (span source.text.toList r.startLine r.endLine))
  visible : ∃ row, (rows source.text.toList)[r.endLine - 1]? = some row ∧
    ∃ c ∈ row, isBlank c = false

/-- The lines of the range of a record. -/
def rangeRows (source : Source) (r : FunctionRecord) : List (List Char) :=
  ((rows source.text.toList).take r.endLine).drop (r.startLine - 1)

/-- The lines that show a function. -/
def block (source : Source) (r : FunctionRecord) : List (List Char) :=
  (headingLine r).toList :: ((rangeRows source r).map barred ++ [[]])

theorem toList_join_barred (ls : List (List Char)) :
    (String.join ((ls.map fun row => String.ofList (dropReturn row)).map fun line =>
      "    | " ++ line ++ "\n")).toList = unlines (ls.map barred) := by
  rw [String.toList_join, List.map_map, List.flatMap_map, unlines, List.flatMap_map]
  refine List.flatMap_congr fun row _ => ?_
  rw [Function.comp_apply, String.toList_append, String.toList_append, barred]
  exact congrArg (bar ++ · ++ ['\n']) String.toList_ofList

namespace Fits

variable {source : Source} {r : FunctionRecord} (h : Fits source r)
include h

theorem showsRange : ShowsRange source r ((rangeRows source r).map barred) where
  first := h.first
  ascending := h.ascending
  length := by
    have hfirst := h.first
    have hascending := h.ascending
    rw [List.length_map, rangeRows, List.length_drop, List.length_take, Nat.min_eq_left h.last]
    omega
  line := by
    intro k hk
    rw [List.length_map] at hk
    refine ⟨(rangeRows source r)[k], ?_, by rw [List.getElem?_map, List.getElem?_eq_getElem hk]; rfl⟩
    rw [← List.getElem?_eq_getElem hk, rangeRows, List.getElem?_drop, List.getElem?_take_of_lt]
    rw [rangeRows, List.length_drop, List.length_take, Nat.min_eq_left h.last] at hk
    omega

theorem showsFunction : ShowsFunction source r (block source r) :=
  ⟨_, h.showsRange, rfl⟩

/-- The last line of the range is not blank, with or without the carriage return at its end. -/
theorem exists_rangeRows : ∃ before row, rangeRows source r = before ++ [row] ∧
    ∃ c ∈ dropReturn row, isBlank c = false := by
  obtain ⟨row, hrow, c, hc, hvisible⟩ := h.visible
  have hreturn : c ≠ '\r' := by
    rintro rfl
    cases hvisible
  refine ⟨((rows source.text.toList).take (r.endLine - 1)).drop (r.startLine - 1), row, ?_, c,
    mem_dropReturn hreturn hc, hvisible⟩
  have hfirst := h.first
  have hascending := h.ascending
  have hlast := h.last
  have hend : r.endLine = r.endLine - 1 + 1 := by omega
  rw [rangeRows, hend, List.take_add_one, hrow, Nat.add_sub_cancel, Option.toList_some,
    List.drop_append_of_le_length]
  rw [List.length_take]
  omega

theorem lines_sourceText :
    lines r.sourceText = (rangeRows source r).map fun row => String.ofList (dropReturn row) := by
  obtain ⟨before, row, hrows, c, hc, -⟩ := h.exists_rangeRows
  have hmem : ∀ l ∈ before ++ [row], '\n' ∉ l := fun l hl =>
    not_mem_of_mem_rows (List.mem_of_mem_take (List.mem_of_mem_drop (hrows ▸ hl)))
  rw [h.sourceText, span, ← rangeRows, hrows]
  exact lines_dropReturn (fun l hl => hmem l (List.mem_append_left _ hl))
    (hmem row (List.mem_append_right _ List.mem_cons_self))
    (List.ne_nil_of_mem hc)

theorem toList_shown : (heading r ++ sourceLines r).toList = unlines (block source r) := by
  rw [String.toList_append, heading_eq, sourceLines, h.lines_sourceText, String.toList_append,
    toList_join_barred, block, unlines_cons, unlines_append, List.append_assoc]
  rfl

theorem newline_not_mem_block : ∀ l ∈ block source r, '\n' ∉ l := by
  intro l hl
  rcases List.mem_cons.1 hl with rfl | hl
  · exact newline_not_mem_headingLine h.name
  · rcases List.mem_append.1 hl with hl | hl
    · obtain ⟨row, hrow, rfl⟩ := List.mem_map.1 hl
      intro hmem
      rcases List.mem_append.1 hmem with hmem | hmem
      · revert hmem
        decide
      · exact not_mem_of_mem_rows (List.mem_of_mem_take (List.mem_of_mem_drop hrow))
          (mem_of_mem_dropReturn hmem)
    · exact List.mem_singleton.1 hl ▸ List.not_mem_nil

/-- Of the lines that show a function only the first one is a heading. -/
theorem filter_block : (block source r).filter (fun line => (readHeading line).isSome) =
    [(headingLine r).toList] := by
  have hbarred : ((rangeRows source r).map barred).filter (fun line => (readHeading line).isSome) =
      [] := by
    rw [List.filter_eq_nil_iff]
    intro l hl
    obtain ⟨row, -, rfl⟩ := List.mem_map.1 hl
    rw [barred, readHeading_barred]
    exact Bool.false_ne_true
  rw [block, List.filter_cons_of_pos (by rw [readHeading_headingLine h.name]; rfl),
    List.filter_append, hbarred]
  rfl

/-- The last two lines are one behind a bar that is not blank, and an empty one. -/
theorem exists_block : ∃ before cs, block source r = before ++ [bar ++ cs, []] ∧
    ∃ c ∈ cs, isBlank c = false := by
  obtain ⟨before, row, hrows, hvisible⟩ := h.exists_rangeRows
  refine ⟨(headingLine r).toList :: before.map barred, dropReturn row, ?_, hvisible⟩
  rw [block, hrows]
  simp [barred]

end Fits

/-! ## Whole listings -/

section Whole

variable {source : Source} {rs : List FunctionRecord}

theorem toList_join_shown (h : ∀ r ∈ rs, Fits source r) :
    (String.join (rs.map fun r => heading r ++ sourceLines r)).toList =
      unlines (rs.flatMap (block source)) := by
  rw [String.toList_join, List.flatMap_map, List.flatMap_def (f := block source), unlines_flatten,
    List.flatMap_map]
  exact List.flatMap_congr fun r hr => (h r hr).toList_shown

theorem toList_join_heading (rs : List FunctionRecord) :
    (String.join (rs.map heading)).toList = unlines (rs.map fun r => (headingLine r).toList) := by
  rw [String.toList_join, List.flatMap_map, unlines, List.flatMap_map]
  exact List.flatMap_congr fun r _ => heading_eq r

theorem filter_blocks (h : ∀ r ∈ rs, Fits source r) :
    (rs.flatMap (block source)).filter (fun line => (readHeading line).isSome) =
      rs.map fun r => (headingLine r).toList := by
  rw [List.filter_flatMap, List.map_eq_flatMap]
  exact List.flatMap_congr fun r hr => (h r hr).filter_block

/-- A listing without sources is its headings with line feeds between them. -/
theorem rdropWhile_headings (rs : List FunctionRecord) :
    (unlines (rs.map fun r => (headingLine r).toList)).rdropWhile isBlank =
      ['\n'].intercalate (rs.map fun r => (headingLine r).toList) := by
  rcases List.eq_nil_or_concat' rs with rfl | ⟨rs, r, rfl⟩
  · rfl
  · have hend : ∃ cs, (headingLine r).toList = cs ++ [')'] := ⟨_, by
      rw [headingLine, String.toList_append]
      rfl⟩
    obtain ⟨cs, hcs⟩ := hend
    rw [List.map_append, List.map_singleton, rdropWhile_unlines_concat, intercalate_lineFeed, hcs,
      List.rdropWhile_concat_neg _ _ _ (by decide)]
    exact ⟨')', by rw [hcs]; simp, rfl⟩

/-- The lines of a listing with sources are those that show its functions, except that the empty line at
the end and what is blank before it are gone. -/
theorem exists_rows_listing (h : ∀ r ∈ rs, Fits source r) (hne : rs ≠ []) : ∃ before cs,
    rs.flatMap (block source) = before ++ [bar ++ cs, []] ∧
    rows ((unlines (rs.flatMap (block source))).rdropWhile isBlank) =
      before ++ [bar ++ cs.rdropWhile isBlank] ∧
    (bar ++ cs).rdropWhile isBlank = bar ++ cs.rdropWhile isBlank := by
  obtain ⟨rs, r, rfl⟩ := (List.eq_nil_or_concat' rs).resolve_left hne
  obtain ⟨before, cs, hblock, hvisible⟩ := (h r (by simp)).exists_block
  have hlines : (rs ++ [r]).flatMap (block source) =
      (rs.flatMap (block source) ++ before) ++ [bar ++ cs, []] := by
    rw [List.flatMap_append, List.flatMap_singleton, hblock, List.append_assoc]
  have htrim := rdropWhile_append bar hvisible
  refine ⟨_, cs, hlines, ?_, htrim⟩
  have hbreaks : ∀ l ∈ (rs ++ [r]).flatMap (block source), '\n' ∉ l := by
    intro l hl
    obtain ⟨r', hr', hl⟩ := List.mem_flatMap.1 hl
    exact (h r' hr').newline_not_mem_block l hl
  rw [hlines] at hbreaks ⊢
  have hlast : '\n' ∉ bar ++ cs.rdropWhile isBlank := by
    rw [← htrim]
    exact fun hmem => hbreaks (bar ++ cs) (by simp) ((List.rdropWhile_prefix _ _).mem hmem)
  rw [List.append_cons, rdropWhile_unlines_empty, rdropWhile_unlines_concat, htrim,
    rows_unlines_append (fun l hl => hbreaks l (List.mem_append_left _ hl)) hlast]
  exact ⟨'|', List.mem_append_left _ (by decide), rfl⟩

theorem filterMap_readHeading (ls : List (List Char)) :
    (ls.filter fun line => (readHeading line).isSome).filterMap readHeading =
      ls.filterMap readHeading := by
  rw [List.filterMap_filter]
  congr 1
  funext line
  cases readHeading line <;> rfl

theorem filterMap_headings (h : ∀ r ∈ rs, Fits source r) :
    (rs.map fun r => (headingLine r).toList).filterMap readHeading = rs.map said := by
  rw [List.filterMap_map, ← List.filterMap_eq_map]
  refine List.filterMap_congr fun r hr => ?_
  rw [Function.comp_apply, Function.comp_apply, readHeading_headingLine (h r hr).name]

theorem trimmedAtEnd_blocks (h : ∀ r ∈ rs, Fits source r) :
    TrimmedAtEnd (rs.map (block source)).flatten
      (rows ((unlines (rs.flatMap (block source))).rdropWhile isBlank)) := by
  rw [← List.flatMap_def]
  rcases eq_or_ne rs [] with rfl | hne
  · exact .inl ⟨rfl, rfl⟩
  · obtain ⟨before, cs, hlines, hrows, htrim⟩ := exists_rows_listing h hne
    exact .inr ⟨before, bar ++ cs, hlines, by rw [hrows, htrim]⟩

theorem filter_rows_listing (h : ∀ r ∈ rs, Fits source r) :
    (rows ((unlines (rs.flatMap (block source))).rdropWhile isBlank)).filter
      (fun line => (readHeading line).isSome) = rs.map fun r => (headingLine r).toList := by
  rcases eq_or_ne rs [] with rfl | hne
  · rfl
  · obtain ⟨before, cs, hlines, hrows, -⟩ := exists_rows_listing h hne
    have hbefore := filter_blocks h
    rw [hlines, List.filter_append] at hbefore
    rw [hrows, List.filter_append, ← hbefore]
    simp [readHeading_barred, readHeading_nil]

theorem showsFunctions_of_fits (h : ∀ r ∈ rs, Fits source r) : ShowsFunctions source rs
    (trimEnd (String.join (rs.map fun r => heading r ++ sourceLines r))).toList
    (trimEnd (String.join (rs.map heading))).toList := by
  rw [toList_trimEnd, toList_trimEnd, toList_join_shown h, toList_join_heading, rdropWhile_headings]
  have hshown : List.Forall₂ (ShowsFunction source) rs (rs.map (block source)) := by
    rw [List.forall₂_map_right_iff, List.forall₂_same]
    exact fun r hr => (h r hr).showsFunction
  exact {
    lines := ⟨_, hshown, trimmedAtEnd_blocks h⟩
    headings := filter_rows_listing h
    records := by rw [← filterMap_readHeading, filter_rows_listing h, filterMap_headings h]
    short := by rw [filter_rows_listing h] }

end Whole

/-! ## The listing of a program -/

theorem fits_of_ofTree {policy : DuplicatePolicy} {t : Tree} {e : Extraction} (h : t.Located)
    (hvisible : t.EndsVisibly) (he : ofTree policy t = .ok e)
    (hnames : ∀ r ∈ e.functions, isName r.name = true) : ∀ r ∈ e.functions, Fits t.source r := by
  intro r hr
  have hname := hnames r hr
  rw [functions_of_ofTree he, definitions_eq] at hr
  obtain ⟨d, hd, rfl⟩ := List.mem_map.1 hr
  obtain ⟨p, -, hd⟩ := List.mem_filterMap.1 hd
  obtain ⟨m, name, isAsync, hm, hc, rfl⟩ := exists_of_definitionOf hd
  have hmatch := linesMatch_recordOf h ⟨p, hm⟩ name isAsync
    ((t.root.above p).countP Node.definesFunction)
  exact {
    name := hname
    first := hmatch.first
    ascending := hmatch.ascending
    last := by rw [length_rows]; exact hmatch.last
    sourceText := hmatch.sourceText
    visible := exists_visible_row h ⟨p, hm⟩
      (hvisible m ⟨p, hm⟩ (by rw [Node.definesFunction, hc])) }

/-- The listing of the functions of a program shows each line of each function once, behind a bar, below
the heading of the function, and says as much as the records. -/
theorem functions_listed {policy : DuplicatePolicy} {t : Tree} {e : Extraction} (h : t.Located)
    (hvisible : t.EndsVisibly) (he : ofTree policy t = .ok e)
    (hnames : ∀ r ∈ e.functions, isName r.name = true) :
    ShowsFunctions t.source e.functions (functions true .text e).toList
      (functions false .text e).toList := by
  have hshort : (fun r => heading r ++ if false = true then sourceLines r else "") = heading :=
    funext fun _ => String.append_empty
  rw [functions, functions]
  simp only [if_true, hshort]
  exact showsFunctions_of_fits (fits_of_ofTree h hvisible he hnames)

/-- The program of an asynchronous function with an empty line in its body and blanks behind its last
line, all lines ending with a carriage return and a line feed. -/
def asyncProgram : Tree where
  source := .ofText "async def f():\r\n\r\n    g()  \r\n"
  root :=
    let word (kind : Kind) (start stop : Position) : Node :=
      .node { kind, named := false, start, stop } []
    let inner (kind : Kind) (field : Option Field) (start stop : Position) (children : List Node) :
        Node := .node { kind, named := true, field, start, stop } children
    inner (.other "module") none ⟨0, 0, 0⟩ ⟨29, 3, 0⟩
      [inner .functionDefinition none ⟨0, 0, 0⟩ ⟨25, 2, 7⟩
        [word .asyncWord ⟨0, 0, 0⟩ ⟨5, 0, 5⟩,
          word (.other "def") ⟨6, 0, 6⟩ ⟨9, 0, 9⟩,
          inner .identifier (some .name) ⟨10, 0, 10⟩ ⟨11, 0, 11⟩ [],
          inner (.other "parameters") (some (.other "parameters")) ⟨11, 0, 11⟩ ⟨13, 0, 13⟩
            [word (.other "(") ⟨11, 0, 11⟩ ⟨12, 0, 12⟩, word (.other ")") ⟨12, 0, 12⟩ ⟨13, 0, 13⟩],
          word (.other ":") ⟨13, 0, 13⟩ ⟨14, 0, 14⟩,
          inner .block (some (.other "body")) ⟨22, 2, 4⟩ ⟨25, 2, 7⟩
            [inner (.other "expression_statement") none ⟨22, 2, 4⟩ ⟨25, 2, 7⟩
              [inner .call none ⟨22, 2, 4⟩ ⟨25, 2, 7⟩
                [inner .identifier (some .function) ⟨22, 2, 4⟩ ⟨23, 2, 5⟩ [],
                  inner (.other "argument_list") (some (.other "arguments")) ⟨23, 2, 5⟩ ⟨25, 2, 7⟩
                    [word (.other "(") ⟨23, 2, 5⟩ ⟨24, 2, 6⟩,
                      word (.other ")") ⟨24, 2, 6⟩ ⟨25, 2, 7⟩]]]]]]

theorem located_asyncProgram : asyncProgram.Located where
  positions := by
    have hpositions : ∀ m ∈ asyncProgram.root.preorder,
        asyncProgram.source.Locates m.start ∧ asyncProgram.source.Locates m.stop := by decide
    simpa only [Node.mem_preorder] using hpositions
  spans := by
    have hspans : ∀ m ∈ asyncProgram.root.preorder, m.start.byte ≤ m.stop.byte := by decide
    simpa only [Node.mem_preorder] using hspans
  holds := by
    have hholds : ∀ m ∈ asyncProgram.root.preorder,
        ∀ c ∈ m.children, m.start.byte ≤ c.start.byte := by decide
    simpa only [Node.mem_preorder] using hholds

theorem endsVisibly_asyncProgram : asyncProgram.EndsVisibly := by
  have hlast : ∀ m ∈ asyncProgram.root.preorder, m.definesFunction = true →
      (m.lastCodeToken.text asyncProgram.source).toList = [')'] := by decide +kernel
  simp only [Node.mem_preorder] at hlast
  intro m hm hdefines
  exact ⟨[], ')', [], rfl, nofun, .inl (hlast m hm hdefines)⟩

/-- The empty line is shown, too, and only the last line loses its blanks. -/
theorem functions_listed_asyncProgram : asyncProgram.Located ∧ asyncProgram.EndsVisibly ∧
    ∃ e, ofTree .lastWins asyncProgram = .ok e ∧ (∀ r ∈ e.functions, isName r.name = true) ∧
      functions true .text e =
        "async f (lines 1-3)\n    | async def f():\n    | \n    |     g()" ∧
      ShowsFunctions asyncProgram.source e.functions (functions true .text e).toList
        (functions false .text e).toList := by
  obtain ⟨calls, hcalls, -⟩ := assignCalls_exact (nofun : DuplicatePolicy.lastWins ≠ .reject)
    asyncProgram
  have he := ofTree_of_assignCalls hcalls
  have hnames : ∀ r ∈ (definitions asyncProgram).map (·.record), isName r.name = true := by
    decide +kernel
  have htext : trimEnd (String.join (((definitions asyncProgram).map (·.record)).map fun r =>
      heading r ++ sourceLines r)) =
        "async f (lines 1-3)\n    | async def f():\n    | \n    |     g()" := by decide +kernel
  exact ⟨located_asyncProgram, endsVisibly_asyncProgram, _, he, hnames, htext,
    functions_listed located_asyncProgram endsVisibly_asyncProgram he hnames⟩

end Listing

end CallAtlas
