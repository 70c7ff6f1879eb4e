import CallAtlas.Proofs.Text.Rows
import CallAtlas.Text.Blank
import CallAtlas.Text.Lines
import Mathlib.Data.List.DropRight

/-!
# Lines put together

Some lines with a line feed behind each are the lines of the text that they make up, however they are
counted, and trimming this text at its end takes from its last lines only.
-/

namespace CallAtlas.Text

/-- Some lines with a line feed behind each. -/
def unlines (ls : List (List Char)) : List Char := ls.flatMap (· ++ ['\n'])

@[simp] theorem unlines_nil : unlines [] = [] := rfl

@[simp] theorem unlines_cons (l : List Char) (ls : List (List Char)) :
    unlines (l :: ls) = l ++ '\n' :: unlines ls := by
  simp [unlines]

@[simp] theorem unlines_append (ls ls' : List (List Char)) :
    unlines (ls ++ ls') = unlines ls ++ unlines ls' :=
  List.flatMap_append

theorem unlines_flatten (blocks : List (List (List Char))) :
    unlines blocks.flatten = blocks.flatMap unlines := by
  induction blocks with
  | nil => rfl
  | cons b bs ih => rw [List.flatten_cons, unlines_append, ih, List.flatMap_cons]

theorem intercalate_concat (sep : List Char) (ls : List (List Char)) (last : List Char) :
    sep.intercalate (ls ++ [last]) = ls.flatMap (· ++ sep) ++ last := by
  induction ls with
  | nil => simp
  | cons l ls ih =>
    cases ls with
    | nil => simp
    | cons l' ls =>
      rw [List.cons_append, List.cons_append, List.intercalate_cons_cons, ← List.cons_append, ih,
        List.flatMap_cons]
      simp

theorem intercalate_lineFeed (ls : List (List Char)) (last : List Char) :
    ['\n'].intercalate (ls ++ [last]) = unlines ls ++ last :=
  intercalate_concat ['\n'] ls last

section

variable {ls : List (List Char)} {last cs sep : List Char} {c : Char}

theorem mem_of_mem_intercalate (h : c ∈ sep.intercalate ls) : c ∈ sep ∨ ∃ l ∈ ls, c ∈ l := by
  induction ls with
  | nil => exact absurd h List.not_mem_nil
  | cons l ls ih =>
    cases ls with
    | nil =>
      rw [List.intercalate_singleton] at h
      exact .inr ⟨l, List.mem_cons_self, h⟩
    | cons l' ls =>
      rw [List.intercalate_cons_cons, List.mem_append, List.mem_append] at h
      rcases h with (h | h) | h
      · exact .inr ⟨l, List.mem_cons_self, h⟩
      · exact .inl h
      · exact (ih h).imp_right fun ⟨w, hw, hc⟩ => ⟨w, List.mem_cons_of_mem _ hw, hc⟩

theorem not_mem_of_mem_rows {l : List Char} (h : l ∈ rows cs) : '\n' ∉ l := by
  induction cs generalizing l with
  | nil =>
    rw [rows, List.splitOn_nil, List.mem_singleton] at h
    rw [h]
    exact List.not_mem_nil
  | cons c cs ih =>
    rw [rows, List.splitOn_cons_eq_if_modifyHead, ← rows] at h
    split at h
    · exact (List.mem_cons.1 h).elim (fun hnil => hnil ▸ List.not_mem_nil) ih
    · rename_i hc
      cases hrows : rows cs with
      | nil =>
        rw [hrows] at h
        exact absurd h List.not_mem_nil
      | cons l' ls =>
        rw [hrows] at h ih
        rcases List.mem_cons.1 h with rfl | h
        · intro hmem
          rcases List.mem_cons.1 hmem with rfl | hmem
          · exact hc rfl
          · exact ih List.mem_cons_self hmem
        · exact ih (List.mem_cons_of_mem _ h)

theorem rows_unlines_append (hls : ∀ l ∈ ls, '\n' ∉ l) (hlast : '\n' ∉ last) :
    rows (unlines ls ++ last) = ls ++ [last] := by
  rw [← intercalate_lineFeed, rows, List.splitOn_intercalate]
  · intro l hl
    rcases List.mem_append.1 hl with hl | hl
    · exact hls l hl
    · exact List.mem_singleton.1 hl ▸ hlast
  · exact List.append_ne_nil_of_right_ne_nil _ (List.cons_ne_nil _ _)

/-! ## Carriage returns -/

@[simp] theorem dropReturn_concat (cs : List Char) (c : Char) :
    dropReturn (cs ++ [c]) = if c = '\r' then cs else cs ++ [c] := by
  rw [dropReturn, List.reverse_append, List.reverse_singleton, List.singleton_append]
  split
  · rename_i h
    obtain ⟨rfl, rfl⟩ := List.cons.inj h
    rw [if_pos rfl, List.reverse_reverse]
  · rename_i h
    rw [if_neg fun hc => h cs.reverse (by rw [hc])]

theorem dropReturn_append (a : List Char) {b : List Char} (hb : b ≠ []) :
    dropReturn (a ++ b) = a ++ dropReturn b := by
  obtain ⟨b, c, rfl⟩ := (List.eq_nil_or_concat' b).resolve_left hb
  rw [← List.append_assoc, dropReturn_concat, dropReturn_concat]
  split
  · rfl
  · exact List.append_assoc a b [c]

theorem mem_of_mem_dropReturn (h : c ∈ dropReturn cs) : c ∈ cs := by
  rcases List.eq_nil_or_concat' cs with rfl | ⟨cs, d, rfl⟩
  · exact h
  · rw [dropReturn_concat] at h
    split at h
    · exact List.mem_append_left _ h
    · exact h

theorem mem_dropReturn (hc : c ≠ '\r') (h : c ∈ cs) : c ∈ dropReturn cs := by
  rcases List.eq_nil_or_concat' cs with rfl | ⟨cs, d, rfl⟩
  · exact h
  · rw [dropReturn_concat]
    split
    · rename_i hd
      exact (List.mem_append.1 h).resolve_right fun hmem => hc ((List.mem_singleton.1 hmem).trans hd)
    · exact h

theorem dropReturn_of_not_mem (h : '\r' ∉ cs) : dropReturn cs = cs := by
  rcases List.eq_nil_or_concat' cs with rfl | ⟨cs, d, rfl⟩
  · rfl
  · rw [dropReturn_concat, if_neg]
    rintro rfl
    exact h (List.mem_append_right _ List.mem_cons_self)

/-! ## Reading lines -/

theorem splitLines_append (h : '\n' ∉ cs) (line : List Char) (done : List String)
    (rest : List Char) :
    splitLines line done (cs ++ rest) = splitLines (cs.reverse ++ line) done rest := by
  induction cs generalizing line with
  | nil => rfl
  | cons c cs ih =>
    obtain ⟨hc, hcs⟩ := not_or.1 (mt List.mem_cons.2 h)
    rw [List.cons_append, splitLines, if_neg (Ne.symm hc), ih hcs]
    simp

theorem splitLines_unlines (hls : ∀ l ∈ ls, '\n' ∉ l) (done : List String) (rest : List Char) :
    splitLines [] done (unlines ls ++ rest) =
      splitLines [] ((ls.map fun l => String.ofList (dropReturn l)).reverse ++ done) rest := by
  induction ls generalizing done with
  | nil => rfl
  | cons l ls ih =>
    rw [unlines_cons, List.append_assoc, splitLines_append (hls l List.mem_cons_self),
      List.cons_append, splitLines, if_pos rfl, ih fun l' hl' => hls l' (List.mem_cons_of_mem _ hl')]
    simp

/-- The last line has no line feed behind it, and a carriage return at its end stays. -/
theorem lines_unlines_append (hls : ∀ l ∈ ls, '\n' ∉ l) (hlast : '\n' ∉ last) (hne : last ≠ []) :
    lines (String.ofList (unlines ls ++ last)) =
      (ls.map dropReturn ++ [last]).map String.ofList := by
  have hend := splitLines_append hlast [] (ls.map fun l => String.ofList (dropReturn l)).reverse []
  rw [List.append_nil, List.append_nil] at hend
  rw [lines, String.toList_ofList, splitLines_unlines hls, List.append_nil, hend, splitLines,
    if_neg (by simpa using hne)]
  simp

/-- Some lines of a text, put together without the carriage return at their end, are read as these
lines, each without the one at its end, if something is left of the last one. -/
theorem lines_dropReturn (hls : ∀ l ∈ ls, '\n' ∉ l) (hlast : '\n' ∉ last)
    (hne : dropReturn last ≠ []) :
    lines (String.ofList (dropReturn (['\n'].intercalate (ls ++ [last])))) =
      (ls ++ [last]).map fun l => String.ofList (dropReturn l) := by
  have hlast' : last ≠ [] := by
    rintro rfl
    exact hne rfl
  rw [intercalate_lineFeed, dropReturn_append _ hlast',
    lines_unlines_append hls (fun h => hlast (mem_of_mem_dropReturn h)) hne]
  simp

/-! ## Trimming -/

theorem toList_trimEnd (s : String) : (trimEnd s).toList = s.toList.rdropWhile isBlank :=
  String.toList_ofList

theorem rdropWhile_append (a : List Char) {b : List Char} (hb : ∃ c ∈ b, isBlank c = false) :
    (a ++ b).rdropWhile isBlank = a ++ b.rdropWhile isBlank := by
  have hne : (b.reverse.dropWhile isBlank).isEmpty = false := by
    obtain ⟨c, hc, hblank⟩ := hb
    rw [← Bool.not_eq_true, List.isEmpty_iff, List.dropWhile_eq_nil_iff]
    exact fun hall => Bool.false_ne_true (hblank.symm.trans (hall c (List.mem_reverse.2 hc)))
  rw [List.rdropWhile, List.reverse_append, List.dropWhile_append, hne]
  simp [List.rdropWhile]

theorem rdropWhile_unlines_concat (ls : List (List Char))
    (hlast : ∃ c ∈ last, isBlank c = false) :
    (unlines (ls ++ [last])).rdropWhile isBlank = unlines ls ++ last.rdropWhile isBlank := by
  have hbreak : unlines (ls ++ [last]) = unlines ls ++ last ++ ['\n'] := by simp
  rw [hbreak, List.rdropWhile_concat_pos _ _ _ (by decide), rdropWhile_append _ hlast]

theorem rdropWhile_unlines_empty (ls : List (List Char)) :
    (unlines (ls ++ [[]])).rdropWhile isBlank = (unlines ls).rdropWhile isBlank := by
  rw [unlines_append]
  exact List.rdropWhile_concat_pos _ _ _ (by decide)

/-- Lines that end with characters that are not blank are read from their text when it is trimmed. -/
theorem lines_trimEnd_unlines (hls : ∀ l ∈ ls, '\n' ∉ l ∧ '\r' ∉ l)
    (hend : ∀ l ∈ ls, ∃ cs c, l = cs ++ [c] ∧ isBlank c = false) :
    lines (trimEnd (String.ofList (unlines ls))) = ls.map String.ofList := by
  rcases List.eq_nil_or_concat' ls with rfl | ⟨ls, last, rfl⟩
  · rfl
  · obtain ⟨cs, c, hlast, hc⟩ := hend last (by simp)
    have htrim : (unlines (ls ++ [last])).rdropWhile isBlank = unlines ls ++ last := by
      rw [rdropWhile_unlines_concat ls ⟨c, by simp [hlast], hc⟩, hlast,
        List.rdropWhile_concat_neg _ _ _ (by simp [hc])]
    have hreturns : ls.map dropReturn = ls.map id :=
      List.map_congr_left fun l hl => dropReturn_of_not_mem (hls l (List.mem_append_left _ hl)).2
    rw [← String.ofList_toList (s := trimEnd _), toList_trimEnd, String.toList_ofList, htrim,
      lines_unlines_append (fun l hl => (hls l (List.mem_append_left _ hl)).1) (hls last (by simp)).1
        (by simp [hlast]), hreturns, List.map_id]

end

end CallAtlas.Text
