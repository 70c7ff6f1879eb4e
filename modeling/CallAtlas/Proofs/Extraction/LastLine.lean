import CallAtlas.Proofs.Extraction.Lines
import CallAtlas.Proofs.Text.Places

/-!
# The last line of a definition

A definition whose last token is not blank has a last line that is not blank, be it that the token spans
several lines or ends just after a line feed.
-/

namespace CallAtlas

open Syntax Text

/-- A text has a character that is not blank on its last line, which a line feed at the end of the text
ends. -/
def Text.EndsVisibly (cs : List Char) : Prop :=
  ∃ before c line, isBlank c = false ∧ '\n' ∉ line ∧
    (cs = before ++ c :: line ∨ cs = before ++ c :: line ++ ['\n'])

/-- Each definition of a function ends with a token that is not blank. -/
def Syntax.Tree.EndsVisibly (t : Tree) : Prop :=
  ∀ m, Node.Within m t.root → m.definesFunction = true →
    Text.EndsVisibly (m.lastCodeToken.text t.source).toList

namespace Extraction

variable {s : Source} {a line b : List Char} {c : Char}

/-- A place behind a character that is not blank, on the same line, is not at the beginning of a line,
and the line holds the character. -/
theorem visible_before (h : s.text.toList = a ++ c :: line ++ b) (hc : isBlank c = false)
    (hline : '\n' ∉ line) : s.lineStart (width (a ++ c :: line)) < width (a ++ c :: line) ∧
      ∃ row, (rows s.text.toList)[s.rowOf (width (a ++ c :: line))]? = some row ∧ c ∈ row := by
  obtain ⟨lines, start, rfl, hlines, hstart⟩ := exists_lineStart a
  have hrest : '\n' ∉ start ++ c :: line := by
    intro hmem
    rcases List.mem_append.1 hmem with hmem | hmem
    · exact hstart hmem
    · rcases List.mem_cons.1 hmem with rfl | hmem
      · cases hc
      · exact hline hmem
  rw [List.append_assoc lines] at h ⊢
  obtain ⟨rest, hmem⟩ := exists_row_of_split hlines hrest b
  rw [Source.lineStart_of_split h hlines hrest, Source.rowOf_of_split h, List.count_append,
    List.count_eq_zero.2 hrest, Nat.add_zero, h]
  refine ⟨?_, _, hmem, by simp⟩
  have hpos := c.utf8Size_pos
  rw [width_append, width_append, width_cons]
  omega

/-- The place from which the end of the last line is looked for stands behind a character that is not
blank, on the line of this character. -/
theorem codeEnd_visible {t : Tree} (h : t.Located) {m : Node} (hm : Node.Within m t.root)
    (hvisible : Text.EndsVisibly (m.lastCodeToken.text t.source).toList) : ∃ a c line b,
      t.source.text.toList = a ++ c :: line ++ b ∧ isBlank c = false ∧ '\n' ∉ line ∧
      codeEnd m m.lastCodeToken = width (a ++ c :: line) := by
  have hlast : Node.Within m.lastCodeToken t.root := m.within_lastCodeToken.trans hm
  have hstop := (h.positions _ hlast).2
  have hbegin : m.start.byte ≤ m.lastCodeToken.start.byte :=
    Node.start_le_of_within (fun k hk => h.holds k (hk.trans hm)) m.within_lastCodeToken
  obtain ⟨a, b, htext, ha⟩ := t.source.isValid_iff_exists_split.1 (h.positions _ hlast).1.between
  obtain ⟨a', b', htext', ha'⟩ := t.source.isValid_iff_exists_split.1 hstop.between
  obtain ⟨token, rfl, rfl⟩ := Source.exists_between htext htext'
    (by rw [ha, ha']; exact h.spans _ hlast)
  rw [Node.text, ← ha, ← ha', Source.slice_of_split htext', String.toList_ofList] at hvisible
  rw [codeEnd]
  obtain ⟨before, c, line, hc, hline, rfl | rfl⟩ := hvisible
  · have hsplit : t.source.text.toList = a ++ before ++ c :: line ++ b' := by simpa using htext'
    have hbyte : m.lastCodeToken.stop.byte = width (a ++ before ++ c :: line) := by
      rw [← ha', List.append_assoc]
    have hcolumn : m.lastCodeToken.stop.column ≠ 0 := by
      rw [hstop.column, hbyte]
      exact Nat.sub_ne_zero_of_lt (visible_before hsplit hc hline).1
    exact ⟨_, c, line, b', hsplit, hc, hline, by rw [if_neg (by simp [hcolumn]), hbyte]⟩
  · -- the line feed at the end is passed over
    have hsplit : t.source.text.toList = a ++ before ++ c :: line ++ '\n' :: b' := by
      simpa using htext'
    have hbyte : m.lastCodeToken.stop.byte = width (a ++ before ++ c :: line) + 1 := by
      rw [← ha', ← width_lineFeed, ← width_append]
      simp
    have hcolumn : m.lastCodeToken.stop.column = 0 := by
      rw [hstop.column, hbyte, Source.lineStart, if_pos (Source.isLineFeed_of_split hsplit),
        Nat.sub_self]
    have hlt : m.start.byte < m.lastCodeToken.stop.byte := by
      rw [hbyte]
      rw [← ha] at hbegin
      simp only [width_append] at hbegin ⊢
      omega
    exact ⟨_, c, line, _, hsplit, hc, hline,
      by rw [if_pos (by simp [hcolumn, hlt]), hbyte, Nat.add_sub_cancel]⟩

/-- The last line of a definition is not blank if its last token is not. -/
theorem exists_visible_row {t : Tree} (h : t.Located) {m : Node} (hm : Node.Within m t.root)
    (hvisible : Text.EndsVisibly (m.lastCodeToken.text t.source).toList) :
    ∃ row, (rows t.source.text.toList)[lastRow m m.lastCodeToken]? = some row ∧
      ∃ c ∈ row, isBlank c = false := by
  have hlast : Node.Within m.lastCodeToken t.root := m.within_lastCodeToken.trans hm
  obtain ⟨d⟩ := nonempty_division (h.positions m hm).1 (h.positions _ hlast).2
    ((Node.start_le_of_within (fun k hk => h.holds k (hk.trans hm)) m.within_lastCodeToken).trans
      (h.spans _ hlast))
  obtain ⟨a, c, line, b, hsplit, hc, hline, hend⟩ := codeEnd_visible h hm hvisible
  obtain ⟨-, row, hrow, hmem⟩ := visible_before hsplit hc hline
  exact ⟨row, by rw [d.lastRow_eq_rowOf, hend, hrow], c, hmem, hc⟩

end Extraction

end CallAtlas
