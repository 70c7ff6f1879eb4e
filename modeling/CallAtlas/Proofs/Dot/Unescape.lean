import CallAtlas.Proofs.Dot.Tokens

/-!
# Unescaping

Reading a text between quotation marks takes two things: finding the quotation mark that ends it, for
which a backslash belongs to the character behind it whatever this character is, and undoing the
escapes in between. What has been escaped is passed over as a whole, so that it ends where it was meant
to, and it is the only text without line breaks from which the original comes back.
-/

namespace CallAtlas.Dot

/-- The text meant by one that stands between quotation marks, if there is no quotation mark without a
backslash in it and each backslash is followed by a character that says what was meant. -/
def unescape : List Char → Option (List Char)
  | [] => some []
  | '"' :: _ => none
  | ['\\'] => none
  | '\\' :: c :: rest => (unescapeChar c).bind fun d => (unescape rest).map (d :: ·)
  | c :: rest => (unescape rest).map (c :: ·)

theorem unescape_plain {c : Char} (h₁ : c ≠ '\\') (h₂ : c ≠ '"') (cs : List Char) :
    unescape (c :: cs) = (unescape cs).map (c :: ·) := by
  rw [unescape.eq_def]
  simp [h₁]

/-! ## Escaping is undone -/

/-- To read a text is to find its end and to undo the escapes up to there. -/
theorem readQuoted_eq (cs : List Char) : readQuoted cs =
    (splitQuoted cs).bind fun p => (unescape p.1).map fun text => (text, p.2) := by
  fun_induction splitQuoted cs with
  | case1 => rfl
  | case2 rest => exact readQuoted_quote rest
  | case3 c rest ih =>
    rw [readQuoted_backslash, ih]
    cases hc : unescapeChar c <;> cases splitQuoted rest <;>
      simp [unescape, hc, Function.comp_def]
  | case4 c rest hquote hbackslash ih =>
    by_cases h : c = '\\'
    · -- a backslash with nothing behind it
      subst h
      cases rest with
      | nil => rfl
      | cons d rest => exact absurd rfl (hbackslash d rest rfl)
    · rw [readQuoted_plain h hquote, ih]
      cases splitQuoted rest with
      | none => rfl
      | some p => simp [unescape_plain h hquote, Function.comp_def]

theorem unescape_escape (cs : List Char) : unescape (escape cs) = some cs := by
  have hread := readQuoted_escape cs []
  rw [readQuoted_eq, splitQuoted_escape, Option.bind_some] at hread
  obtain ⟨text, htext, heq⟩ := Option.map_eq_some_iff.1 hread
  cases heq
  exact htext

example : unescape "\\\\n".toList = some "\\n".toList ∧
    unescape "\\n".toList = some "\n".toList := by decide

/-- Different texts are escaped differently. -/
theorem escape_injective : Function.Injective escape := by
  intro cs ds h
  have hcs := unescape_escape cs
  rw [h, unescape_escape] at hcs
  exact (Option.some.inj hcs).symm

/-! ## Nothing else is undone to the same text -/

/-- The escape of the character that was meant is the one it was read from. -/
theorem escapeChar_of_unescapeChar {c d : Char} (h : unescapeChar c = some d) :
    escapeChar d = ['\\', c] := by
  rw [unescapeChar] at h
  split_ifs at h with h₁ h₂ h₃ <;> cases h
  · rw [h₁]
    rfl
  · rw [h₂]
    rfl
  · rw [h₃]
    rfl

/-- A text without line breaks that can be unescaped is written as escaping writes. -/
theorem eq_escape_of_unescape {written cs : List Char} (h : unescape written = some cs)
    (hline : '\n' ∉ written) : written = escape cs := by
  fun_induction unescape written generalizing cs with
  | case1 =>
    cases h
    rfl
  | case2 => cases h
  | case3 => cases h
  | case4 c rest ih =>
    obtain ⟨d, hd, hrest⟩ := Option.bind_eq_some_iff.1 h
    obtain ⟨ds, hds, rfl⟩ := Option.map_eq_some_iff.1 hrest
    have hrest : rest = escape ds := ih hds fun hmem => hline (by simp [hmem])
    rw [escape_cons, escapeChar_of_unescapeChar hd, ← hrest]
    rfl
  | case5 c rest hquote hend hbackslash ih =>
    obtain ⟨ds, hds, rfl⟩ := Option.map_eq_some_iff.1 h
    have hrest : rest = escape ds := ih hds fun hmem => hline (by simp [hmem])
    -- none of the three characters that are escaped can stand here by itself
    rcases escapeChar_cases c with (rfl | rfl | rfl) | ⟨-, -, -, hc⟩
    · cases rest with
      | nil => exact absurd rfl (hend rfl)
      | cons d rest => exact absurd rfl (hbackslash d rest rfl)
    · exact absurd rfl hquote
    · exact absurd List.mem_cons_self hline
    · rw [escape_cons, hc, ← hrest]
      rfl

/-- Escaping is one substitution for each character, though it is made up of three for the whole text. A
reader for which a backslash belongs to the character behind it finds no closing quotation mark in what
has been escaped, and the one that is put behind it exactly there. Unescaping gives back the original
from what has been escaped and from no other text without line breaks; so no two texts are escaped
alike. -/
theorem escape_reversible (cs : List Char) :
    escape cs = cs.flatMap (fun c =>
      if c = '\\' then ['\\', '\\']
      else if c = '"' then ['\\', '"']
      else if c = '\n' then ['\\', 'n']
      else [c]) ∧
    splitQuoted (escape cs) = none ∧
    (∀ after, splitQuoted (escape cs ++ '"' :: after) = some (escape cs, after)) ∧
    unescape (escape cs) = some cs ∧
    (∀ written, written = escape cs ↔ '\n' ∉ written ∧ unescape written = some cs) ∧
    (∀ ds, escape ds = escape cs ↔ ds = cs) := by
  refine ⟨escape_eq_flatMap cs, ?_, splitQuoted_escape cs, unescape_escape cs, ?_, ?_⟩
  · have hpassed := splitQuoted_escape_append cs []
    rw [List.append_nil] at hpassed
    exact hpassed
  · intro written
    constructor
    · rintro rfl
      exact ⟨newline_not_mem_escape cs, unescape_escape cs⟩
    · rintro ⟨hline, h⟩
      exact eq_escape_of_unescape h hline
  · exact fun ds => escape_injective.eq_iff

end CallAtlas.Dot
