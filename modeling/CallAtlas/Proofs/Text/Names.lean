import CallAtlas.Text.Blank
import CallAtlas.Text.LowerCase
import CallAtlas.Text.NameChars

/-!
# Names

A name is made of letters, digits and underscores. So it holds no blank character and none of the signs
that stand between names in a listing.
-/

namespace CallAtlas.Text

/-- The code points of the characters that a name may hold. -/
def nameRanges : List (Nat × Nat) := (95, 95) :: (nameStart ++ nameExtra)

/-- Whether a text is a name. -/
def isName (s : String) : Bool :=
  match s.toList with
  | [] => false
  | c :: cs => inRanges ((95, 95) :: nameStart) c && cs.all (inRanges nameRanges)

variable {s : String} {c : Char}

theorem ne_nil_of_isName (h : isName s = true) : s.toList ≠ [] := by
  intro hnil
  rw [isName, hnil] at h
  exact Bool.false_ne_true h

theorem inRanges_nameRanges (h : inRanges ((95, 95) :: nameStart) c = true) :
    inRanges nameRanges c = true := by
  rw [inRanges, List.any_eq_true] at h ⊢
  obtain ⟨range, hrange, hc⟩ := h
  exact ⟨range, List.mem_append_left nameExtra hrange, hc⟩

theorem inRanges_of_mem_isName (h : isName s = true) (hc : c ∈ s.toList) :
    inRanges nameRanges c = true := by
  rw [isName] at h
  split at h
  · rename_i hs
    rw [hs] at hc
    exact absurd hc List.not_mem_nil
  · rename_i hs
    rw [Bool.and_eq_true, List.all_eq_true] at h
    rw [hs] at hc
    rcases List.mem_cons.1 hc with rfl | hc
    · exact inRanges_nameRanges h.1
    · exact h.2 c hc

theorem isBlank_of_inRanges (h : inRanges nameRanges c = true) : isBlank c = false := by
  -- the characters of names lie between the blank ones, most of them behind the last one
  have hgaps : ∀ range ∈ nameRanges, 0x3000 < range.1 ∨ 0x20 < range.1 ∧ range.2 < 0x85 ∨
      0xA0 < range.1 ∧ range.2 < 0x1680 ∨ 0x1680 < range.1 ∧ range.2 < 0x2000 ∨
      0x200A < range.1 ∧ range.2 < 0x2028 ∨ 0x202F < range.1 ∧ range.2 < 0x205F ∨
      0x205F < range.1 ∧ range.2 < 0x3000 := by decide +kernel
  simp only [inRanges, List.any_eq_true, Bool.and_eq_true, decide_eq_true_eq] at h
  obtain ⟨range, hrange, hfirst, hlast⟩ := h
  have hgap := hgaps range hrange
  simp only [isBlank, Bool.or_eq_false_iff, Bool.and_eq_false_iff, decide_eq_false_iff_not,
    beq_eq_false_iff_ne]
  omega

theorem isBlank_of_mem_isName (h : isName s = true) (hc : c ∈ s.toList) : isBlank c = false :=
  isBlank_of_inRanges (inRanges_of_mem_isName h hc)

theorem not_mem_of_isName {d : Char} (h : isName s = true) (hd : inRanges nameRanges d = false) :
    d ∉ s.toList :=
  fun hmem => Bool.false_ne_true (hd.symm.trans (inRanges_of_mem_isName h hmem))

end CallAtlas.Text
