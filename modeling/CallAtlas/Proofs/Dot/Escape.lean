import CallAtlas.Graph.Dot

/-!
# Escaping undone

Escaping replaces each character by itself, so that it can be undone character by character. What
follows a backslash says which character was meant; the first quotation mark without a backslash before
it ends the text.
-/

namespace CallAtlas.Dot

/-- A character as it is written between quotation marks. -/
def escapeChar (c : Char) : List Char :=
  if c = '\\' then ['\\', '\\']
  else if c = '"' then ['\\', '"']
  else if c = '\n' then ['\\', 'n']
  else [c]

/-- The character meant by the one after a backslash. -/
def unescapeChar (c : Char) : Option Char :=
  if c = '\\' then some '\\'
  else if c = '"' then some '"'
  else if c = 'n' then some '\n'
  else none

/-- The text up to the quotation mark that ends it, and what comes after. -/
def readQuoted : List Char → Option (List Char × List Char)
  | [] => none
  | c :: rest =>
    if c = '"' then some ([], rest)
    else if c = '\\' then
      match rest with
      | [] => none
      | d :: rest =>
        (unescapeChar d).bind fun e => (readQuoted rest).map fun (s, after) => (e :: s, after)
    else (readQuoted rest).map fun (s, after) => (c :: s, after)

/-- A character is one of the three that are escaped or stands for itself. -/
theorem escapeChar_cases (c : Char) :
    (c = '\\' ∨ c = '"' ∨ c = '\n') ∨
      (c ≠ '\\' ∧ c ≠ '"' ∧ c ≠ '\n' ∧ escapeChar c = [c]) := by
  by_cases h : c = '\\' ∨ c = '"' ∨ c = '\n'
  · exact .inl h
  · simp only [not_or] at h
    obtain ⟨h₁, h₂, h₃⟩ := h
    exact .inr ⟨h₁, h₂, h₃, by simp [escapeChar, h₁, h₂, h₃]⟩

/-- The three substitutions come down to one for each character. -/
theorem escape_eq_flatMap (cs : List Char) : escape cs = cs.flatMap escapeChar := by
  simp only [escape, substitute, List.flatMap_assoc]
  congr 1
  funext c
  -- a backslash is doubled once, since no later substitution looks at backslashes
  rcases escapeChar_cases c with (rfl | rfl | rfl) | ⟨h₁, h₂, h₃, hc⟩
  · rfl
  · rfl
  · rfl
  · simp [hc, h₁, h₂, h₃]

example : escape "a\"\\\n".toList = "a\\\"\\\\\\n".toList := by decide

theorem escape_cons (c : Char) (cs : List Char) : escape (c :: cs) = escapeChar c ++ escape cs := by
  rw [escape_eq_flatMap, escape_eq_flatMap, List.flatMap_cons]

theorem newline_not_mem_escapeChar (c : Char) : '\n' ∉ escapeChar c := by
  rcases escapeChar_cases c with (rfl | rfl | rfl) | ⟨-, -, h₃, hc⟩
  · decide
  · decide
  · decide
  · rw [hc, List.mem_singleton]
    exact h₃.symm

theorem newline_not_mem_escape (cs : List Char) : '\n' ∉ escape cs := by
  rw [escape_eq_flatMap, List.mem_flatMap]
  rintro ⟨c, -, hc⟩
  exact newline_not_mem_escapeChar c hc

theorem readQuoted_quote (cs : List Char) : readQuoted ('"' :: cs) = some ([], cs) := by
  rw [readQuoted.eq_def]
  simp

theorem readQuoted_backslash (c : Char) (cs : List Char) : readQuoted ('\\' :: c :: cs) =
    (unescapeChar c).bind fun d => (readQuoted cs).map fun p => (d :: p.1, p.2) := by
  rw [readQuoted.eq_def]
  simp

theorem readQuoted_plain {c : Char} (h₁ : c ≠ '\\') (h₂ : c ≠ '"') (cs : List Char) :
    readQuoted (c :: cs) = (readQuoted cs).map fun p => (c :: p.1, p.2) := by
  rw [readQuoted.eq_def]
  simp [h₁, h₂]

theorem readQuoted_escapeChar (c : Char) (cs : List Char) :
    readQuoted (escapeChar c ++ cs) = (readQuoted cs).map fun p => (c :: p.1, p.2) := by
  rcases escapeChar_cases c with (rfl | rfl | rfl) | ⟨h₁, h₂, -, hc⟩
  · rfl
  · rfl
  · rfl
  · rw [hc, List.singleton_append, readQuoted_plain h₁ h₂]

/-- Reading stops right after the closing quotation mark, with the text that was escaped. -/
theorem readQuoted_escape (cs after : List Char) :
    readQuoted (escape cs ++ '"' :: after) = some (cs, after) := by
  induction cs with
  | nil => exact readQuoted_quote after
  | cons c cs ih =>
    rw [escape_cons, List.append_assoc, readQuoted_escapeChar, ih]
    rfl

end CallAtlas.Dot
