import CallAtlas.Proofs.Text.Bytes
import Mathlib.Algebra.GroupWithZero.Nat
import Mathlib.Data.List.TakeWhile

/-!
# Places by line and column

A line and a column, counted from one, are those of a place in a source: the column counts the bytes
from the beginning of the line on, and the place lies on that line. The first character that is not
blank is looked for from such a place on.
-/

namespace CallAtlas.Text

/-- Where a line begins. Lines are counted from zero, and each line before takes a line feed more than
its characters. -/
def rowStart (cs : List Char) (row : Nat) : Nat :=
  (((rows cs).take row).map fun r => width r + 1).sum

theorem width_cons (c : Char) (cs : List Char) : width (c :: cs) = c.utf8Size + width cs := by
  rw [width, encode_cons, List.length_append, String.length_utf8EncodeChar, width]

/-- Lines put together with line feeds take a byte for each of these. -/
theorem sum_width_intercalate {ls : List (List Char)} (hne : ls ≠ []) :
    (ls.map fun l => width l + 1).sum = width (['\n'].intercalate ls) + 1 := by
  induction ls with
  | nil => exact absurd rfl hne
  | cons l ls ih =>
    cases ls with
    | nil => simp
    | cons l' ls =>
      rw [List.map_cons, List.sum_cons, ih (List.cons_ne_nil _ _), List.intercalate_cons_cons,
        width_append, width_append, width_lineFeed]
      omega

theorem rowStart_of_split {before : List Char} (h : AtLineStart before) (rest : List Char) :
    rowStart (before ++ rest) (before.count '\n') = width before := by
  rcases h with rfl | ⟨a, rfl⟩
  · rfl
  · have hne : rows a ≠ [] := by
      rw [← List.length_pos_iff, length_rows]
      exact Nat.succ_pos _
    have hcount : (a ++ ['\n']).count '\n' = (rows a).length := by
      rw [List.count_append, List.count_singleton_self, length_rows]
    rw [rowStart, List.append_assoc, List.singleton_append, rows_append_cons, hcount,
      List.take_left, sum_width_intercalate hne, rows, List.intercalate_splitOn, width_append,
      width_lineFeed]

/-- A line begins with what stands on it. -/
theorem exists_row_of_split {before line : List Char} (h : AtLineStart before) (hline : '\n' ∉ line)
    (after : List Char) : ∃ rest, (rows (before ++ line ++ after))[before.count '\n']? =
      some (line ++ rest) := by
  obtain ⟨rest, after', rfl, hrest, hafter⟩ := exists_lineEnd after
  refine ⟨rest, ?_⟩
  obtain ⟨lines, hlines, hlength⟩ := exists_rows_append h (line ++ rest ++ after')
  obtain ⟨others, hothers⟩ := exists_rows_append_of_atLineEnd hafter (line ++ rest)
  have hone : rows (line ++ rest) = [line ++ rest] :=
    List.splitOn_eq_singleton fun hmem => (List.mem_append.1 hmem).elim hline hrest
  rw [← hlength, List.append_assoc, ← List.append_assoc line, hlines, hothers, hone]
  simp

namespace Source

/-- A line and a column are those of a place: the place is as many bytes behind the beginning of the
line as the column says, it lies on the line, in the source, and divides no character. -/
structure PointsAt (s : Source) (line column place : Nat) : Prop where
  line_pos : 1 ≤ line
  column_pos : 1 ≤ column
  offset : place = rowStart s.text.toList (line - 1) + (column - 1)
  onLine : ∃ r, (rows s.text.toList)[line - 1]? = some r ∧ column - 1 ≤ width r
  row : s.rowOf place = line - 1
  inside : place ≤ s.size
  between : String.Pos.Raw.IsValid s.text ⟨place⟩

/-- A place is that of the first character at or behind another place that is not blank, or the end of
the source if there is none. -/
def FirstNotBlank (s : Source) (start place : Nat) : Prop :=
  ∃ before blanks after, s.text.toList = before ++ blanks ++ after ∧ start = width before ∧
    place = width (before ++ blanks) ∧ (∀ c ∈ blanks, isBlank c = true) ∧
    ∀ c ∈ after.head?, isBlank c = false

variable {s : Source}

theorem pointsAt_of_split {before line after : List Char}
    (h : s.text.toList = before ++ line ++ after) (hbefore : AtLineStart before)
    (hline : '\n' ∉ line) :
    s.PointsAt (before.count '\n' + 1) (width line + 1) (width (before ++ line)) where
  line_pos := Nat.le_add_left 1 _
  column_pos := Nat.le_add_left 1 _
  offset := by
    rw [h, Nat.add_sub_cancel, Nat.add_sub_cancel, List.append_assoc, rowStart_of_split hbefore,
      width_append]
  onLine := by
    obtain ⟨rest, hrow⟩ := exists_row_of_split hbefore hline after
    refine ⟨line ++ rest, by rw [h, Nat.add_sub_cancel, hrow], ?_⟩
    rw [width_append]
    omega
  row := by
    rw [rowOf_of_split h, List.count_append, List.count_eq_zero.2 hline]
    rfl
  inside := by
    rw [size_eq, h, width_append (before ++ line)]
    exact Nat.le_add_right _ _
  between := s.isValid_iff_exists_split.2 ⟨before ++ line, after, h, rfl⟩

theorem Locates.pointsAt {x : Position} (h : s.Locates x) :
    s.PointsAt (x.row + 1) (x.column + 1) x.byte := by
  obtain ⟨before, line, after, htext, hbefore, hline, hbyte, hrow, hcolumn⟩ := h.exists_split
  rw [hbyte, hrow, hcolumn]
  exact pointsAt_of_split htext hbefore hline

/-- The line and the column worked out for a place are its own. -/
theorem pointsAt_of_isValid {i : Nat} (h : String.Pos.Raw.IsValid s.text ⟨i⟩) :
    s.PointsAt (s.rowOf i + 1) (i - s.lineStart i + 1) i :=
  Locates.pointsAt (x := ⟨i, s.rowOf i, i - s.lineStart i⟩) ⟨h, rfl, rfl⟩

theorem blankBytes_eq (cs : List Char) : blankBytes cs = width (cs.takeWhile isBlank) := by
  induction cs with
  | nil => rfl
  | cons c cs ih =>
    rw [blankBytes, List.takeWhile_cons]
    split
    · rw [width_cons, ih]
    · rfl

theorem skipBlanks_of_split {a b : List Char} (h : s.text.toList = a ++ b) :
    s.skipBlanks (width a) = width (a ++ b.takeWhile isBlank) := by
  have htext : s.text.toList = a ++ b ++ [] := by rw [List.append_nil, h]
  rw [skipBlanks, size_eq, h, slice_of_split htext, String.toList_ofList, blankBytes_eq,
    width_append]

theorem firstNotBlank_skipBlanks {i : Nat} (h : String.Pos.Raw.IsValid s.text ⟨i⟩) :
    s.FirstNotBlank i (s.skipBlanks i) := by
  obtain ⟨a, b, htext, rfl⟩ := s.isValid_iff_exists_split.1 h
  refine ⟨a, b.takeWhile isBlank, b.dropWhile isBlank, ?_, rfl, skipBlanks_of_split htext, ?_, ?_⟩
  · rw [List.append_assoc, List.takeWhile_append_dropWhile, htext]
  · exact fun c hc => List.mem_takeWhile_imp hc
  · intro c hc
    have hhead := List.head?_dropWhile_not isBlank b
    rwa [Option.mem_def.1 hc] at hhead

theorem FirstNotBlank.isValid {i place : Nat} (h : s.FirstNotBlank i place) :
    String.Pos.Raw.IsValid s.text ⟨place⟩ := by
  obtain ⟨before, blanks, after, htext, -, rfl, -⟩ := h
  exact s.isValid_iff_exists_split.2 ⟨before ++ blanks, after, htext, rfl⟩

end Source

end CallAtlas.Text
