import Mathlib.Data.List.Basic
import Mathlib.Data.List.Induction

/-!
# The lines of a text

A text has one line more than it has line feeds. Some characters that begin at the beginning of a line
and end at the end of one are the lines between.
-/

namespace CallAtlas.Text

/-- The lines of a text: what stands before, between and after its line feeds. -/
def rows (cs : List Char) : List (List Char) := cs.splitOn '\n'

/-- The lines of a text from one to another, counted from one, with the line feeds between them. -/
def span (cs : List Char) (first last : Nat) : List Char :=
  ['\n'].intercalate (((rows cs).take last).drop (first - 1))

/-- A text ends where a line may begin. -/
def AtLineStart (before : List Char) : Prop := before = [] ∨ ∃ cs, before = cs ++ ['\n']

/-- A text begins where a line may end. -/
def AtLineEnd (after : List Char) : Prop := after = [] ∨ ∃ cs, after = '\n' :: cs

/-- Some characters end on a line of their own. -/
theorem exists_lineStart (cs : List Char) :
    ∃ before line, cs = before ++ line ∧ AtLineStart before ∧ '\n' ∉ line := by
  induction cs using List.reverseRecOn with
  | nil => exact ⟨[], [], rfl, .inl rfl, nofun⟩
  | append_singleton cs c ih =>
    by_cases hc : c = '\n'
    · exact ⟨cs ++ [c], [], (List.append_nil _).symm, .inr ⟨cs, by rw [hc]⟩, nofun⟩
    · obtain ⟨before, line, rfl, hbefore, hline⟩ := ih
      refine ⟨before, line ++ [c], List.append_assoc _ _ _, hbefore, fun hmem => ?_⟩
      rcases List.mem_append.1 hmem with hmem | hmem
      · exact hline hmem
      · exact hc (List.mem_singleton.1 hmem).symm

/-- Some characters begin with the rest of a line. -/
theorem exists_lineEnd (cs : List Char) :
    ∃ line after, cs = line ++ after ∧ '\n' ∉ line ∧ AtLineEnd after := by
  induction cs with
  | nil => exact ⟨[], [], rfl, nofun, .inl rfl⟩
  | cons c cs ih =>
    by_cases hc : c = '\n'
    · exact ⟨[], c :: cs, rfl, nofun, .inr ⟨cs, by rw [hc]⟩⟩
    · obtain ⟨line, after, rfl, hline, hafter⟩ := ih
      exact ⟨c :: line, after, rfl, fun hmem => (List.mem_cons.1 hmem).elim (hc ·.symm) hline, hafter⟩

/-- Some characters with which a text ends where a line may begin end with a line feed. -/
theorem AtLineStart.exists_lineFeed {a m : List Char} (h : AtLineStart (a ++ m)) (hm : m ≠ []) :
    ∃ code, m = code ++ ['\n'] := by
  obtain ⟨code, c, rfl⟩ := (List.eq_nil_or_concat' m).resolve_left hm
  obtain ⟨cs, hcs⟩ := h.resolve_left (by simp)
  rw [← List.append_assoc] at hcs
  obtain ⟨-, hc⟩ := List.append_inj' hcs rfl
  exact ⟨code, by rw [hc]⟩

theorem rows_append_cons (a b : List Char) : rows (a ++ '\n' :: b) = rows a ++ rows b := by
  rw [rows, rows, rows, List.splitOn_eq_splitOnP, List.splitOn_eq_splitOnP,
    List.splitOn_eq_splitOnP, List.splitOnP_append_cons _ _ (by simp)]

theorem length_rows (cs : List Char) : (rows cs).length = cs.count '\n' + 1 := by
  induction cs with
  | nil => rfl
  | cons c cs ih =>
    rw [rows, List.splitOn_eq_splitOnP] at ih ⊢
    rw [List.splitOnP_cons_eq_if_modifyHead, List.count_cons]
    split
    · rw [List.length_cons, ih]
    · rw [List.length_modifyHead, ih, Nat.add_zero]

variable {a m b : List Char}

theorem exists_rows_append (ha : AtLineStart a) (cs : List Char) :
    ∃ before, rows (a ++ cs) = before ++ rows cs ∧ before.length = a.count '\n' := by
  rcases ha with rfl | ⟨a, rfl⟩
  · exact ⟨[], rfl, rfl⟩
  · refine ⟨rows a, ?_, ?_⟩
    · rw [List.append_assoc, List.singleton_append, rows_append_cons]
    · rw [length_rows, List.count_append, List.count_singleton_self]

theorem exists_rows_append_of_atLineEnd (hb : AtLineEnd b) (cs : List Char) :
    ∃ after, rows (cs ++ b) = rows cs ++ after := by
  rcases hb with rfl | ⟨b, rfl⟩
  · exact ⟨[], by rw [List.append_nil, List.append_nil]⟩
  · exact ⟨rows b, rows_append_cons cs b⟩

/-- The numbers of the lines are given by the line feeds before and in them. -/
theorem span_eq_of_split (ha : AtLineStart a) (hb : AtLineEnd b) :
    span (a ++ m ++ b) (a.count '\n' + 1) ((a ++ m).count '\n' + 1) = m := by
  obtain ⟨after, hafter⟩ := exists_rows_append_of_atLineEnd hb m
  obtain ⟨before, hbefore, hlength⟩ := exists_rows_append ha (m ++ b)
  have hrows : rows (a ++ m ++ b) = (before ++ rows m) ++ after := by
    rw [List.append_assoc, hbefore, hafter, List.append_assoc]
  have hlast : (a ++ m).count '\n' + 1 = (before ++ rows m).length := by
    rw [List.length_append, length_rows, hlength, List.count_append, Nat.add_assoc]
  rw [span, hrows, hlast, List.take_left, Nat.add_sub_cancel, ← hlength, List.drop_left, rows,
    List.intercalate_splitOn]

end CallAtlas.Text
