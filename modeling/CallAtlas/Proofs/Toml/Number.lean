import CallAtlas.Toml.Number
import Mathlib.Data.List.Basic
import Mathlib.Data.Nat.Digits.Defs

/-!
# Written numbers are read back

The decimal digits of a natural number at the end of a line are no date, no time and no floating point
number, and `readInteger_toDigits` says that they are read as that number, if it fits into 64 bits.
-/

namespace CallAtlas.Toml

variable {c : Char} {ds rest : List Char} {n : Nat}

theorem toDigits_isDigit (h : c ∈ Nat.toDigits 10 n) : c.isDigit = true :=
  Nat.isDigit_of_mem_toDigits (by decide) (by decide) h

theorem exists_cons_toDigits (n : Nat) :
    ∃ c ds, c.isDigit = true ∧ Nat.toDigits 10 n = c :: ds := by
  obtain ⟨c, ds, h⟩ := List.exists_cons_of_ne_nil (Nat.toDigits_ne_nil (n := n) (b := 10))
  exact ⟨c, ds, toDigits_isDigit (n := n) (h ▸ List.mem_cons_self), h⟩

/-- Only zero has a zero for its first digit. -/
theorem eq_zero_of_toDigits (h : Nat.toDigits 10 n = '0' :: ds) : n = 0 := by
  induction n using Nat.strongRecOn generalizing ds with
  | ind n ih =>
    by_cases hn : n < 10
    · rw [Nat.toDigits_of_lt_base hn] at h
      exact Nat.digitChar_eq_zero.1 (List.cons.inj h).1
    · -- A longer number has the first digit of what is left without its last one.
      rw [Nat.toDigits_of_base_le (by decide) (by omega)] at h
      obtain ⟨d, ds', -, hds⟩ := exists_cons_toDigits (n / 10)
      rw [hds, List.cons_append] at h
      rw [(List.cons.inj h).1] at hds
      have := ih (n / 10) (by omega) hds
      omega

theorem digitValue_of_isDigit (h : c.isDigit = true) : digitValue c = c.toNat - 48 := by
  simp [digitValue, h]

/-- The value of the digits of a number is that number. -/
theorem digitsValue_toDigits (n : Nat) : digitsValue 10 (Nat.toDigits 10 n) = n := by
  calc digitsValue 10 (Nat.toDigits 10 n)
      = Nat.ofDigitChars 10 (Nat.toDigits 10 n) 0 :=
        List.foldl_ext _ _ _ fun m c hc => by
          rw [digitValue_of_isDigit (toDigits_isDigit hc)]
          rfl
    _ = n := Nat.ofDigitChars_ten_toDigits

theorem ne_of_isDigit {d : Char} (h : c.isDigit = true) (hd : d.isDigit = false) : c ≠ d := by
  rintro rfl
  simp [h] at hd

/-- Digits are read up to the end of the line. -/
theorem readDigits_newline (rest : List Char) (hne : ds ≠ []) (hds : ∀ c ∈ ds, c.isDigit = true) :
    readDigits Char.isDigit (ds ++ '\n' :: rest) = some (ds, '\n' :: rest) := by
  induction ds with
  | nil => exact absurd rfl hne
  | cons c ds ih =>
    have hc := hds c List.mem_cons_self
    have htail : ∀ c ∈ ds, c.isDigit = true := fun d hd => hds d (List.mem_cons_of_mem _ hd)
    cases ds with
    | nil => simp [readDigits, hc]
    | cons d ds =>
      have hd := htail d List.mem_cons_self
      have hu : d ≠ '_' := ne_of_isDigit hd (by decide)
      have hrest := ih (by simp) htail
      rw [List.cons_append, List.cons_append, readDigits]
      · simp only [hc, Bool.not_true, Bool.false_eq_true, if_false, List.head?_cons, Option.any_some,
          hd, if_true]
        rw [← List.cons_append, hrest]
        rfl
      · intro rest h
        exact hu (List.cons.inj h).1

theorem readSign_digit (hc : c.isDigit = true) : readSign (c :: rest) = (false, c :: rest) := by
  unfold readSign
  split
  · rename_i h; exact absurd (List.cons.inj h).1 (ne_of_isDigit hc (by decide))
  · rename_i h; exact absurd (List.cons.inj h).1 (ne_of_isDigit hc (by decide))
  · rfl

theorem readDecimal_toDigits (n : Nat) (rest : List Char) :
    readDecimal (Nat.toDigits 10 n ++ '\n' :: rest) =
      some (false, Nat.toDigits 10 n, '\n' :: rest) := by
  have hdigits := readDigits_newline rest Nat.toDigits_ne_nil fun _ => toDigits_isDigit (n := n)
  obtain ⟨c, ds, hc, hds⟩ := exists_cons_toDigits n
  by_cases hzero : c = '0'
  · subst hzero
    obtain rfl := eq_zero_of_toDigits hds
    rfl
  · rw [hds, List.cons_append] at hdigits ⊢
    unfold readDecimal
    rw [readSign_digit hc]
    simp only
    split
    · rename_i h
      exact absurd (List.cons.inj h).1 hzero
    · rw [hdigits]
      rfl

/-- What comes after the digits at the end of a line is the line break. -/
theorem eq_newline_of_digits {pre more : List Char} {d : Char} (hds : ∀ c ∈ ds, c.isDigit = true)
    (hpre : ∀ c ∈ pre, c.isDigit = true) (hd : d.isDigit = false)
    (h : ds ++ '\n' :: rest = pre ++ d :: more) : d = '\n' := by
  have hdrop := congrArg (List.dropWhile Char.isDigit) h
  rw [List.dropWhile_append_of_pos hds, List.dropWhile_append_of_pos hpre,
    List.dropWhile_cons_of_neg (by decide), List.dropWhile_cons_of_neg (by simp [hd])] at hdrop
  exact (List.cons.inj hdrop).1.symm

theorem readDate_digits (hds : ∀ c ∈ ds, c.isDigit = true) :
    readDate (ds ++ '\n' :: rest) = none := by
  unfold readDate
  split
  · rename_i a b c d more h
    by_cases hyear : [a, b, c, d].all Char.isDigit = true
    · have := eq_newline_of_digits (d := '-') hds (List.all_eq_true.1 hyear) (by decide) h
      exact absurd this (by decide)
    · simp [hyear]
  · rfl

/-- A number of two digits is read off two digits. -/
theorem readTwo_eq_some {low high value : Nat} {cs more : List Char}
    (h : readTwo low high cs = some (value, more)) :
    ∃ pre : List Char, (∀ c ∈ pre, c.isDigit = true) ∧ cs = pre ++ more := by
  unfold readTwo at h
  split at h
  · rename_i a b rest
    simp only [Option.ite_none_right_eq_some, Bool.and_eq_true, Option.some.injEq,
      Prod.mk.injEq] at h
    obtain ⟨⟨⟨⟨ha, hb⟩, -⟩, -⟩, -, rfl⟩ := h
    exact ⟨[a, b], by simp [ha, hb], rfl⟩
  · cases h

theorem readTime_digits (hds : ∀ c ∈ ds, c.isDigit = true) :
    readTime (ds ++ '\n' :: rest) = none := by
  unfold readTime
  cases htwo : readTwo 0 23 (ds ++ '\n' :: rest) with
  | none => rfl
  | some hour =>
    obtain ⟨pre, hpre, heq⟩ := readTwo_eq_some htwo
    simp only [Option.bind_eq_bind, Option.bind_some]
    split
    · rename_i more hmore
      rw [hmore] at heq
      exact absurd (eq_newline_of_digits hds hpre (by decide) heq) (by decide)
    · rfl

/-- Digits alone are no date and no time. -/
theorem readDateTime_digits (rest : List Char) (hds : ∀ c ∈ ds, c.isDigit = true) :
    readDateTime (ds ++ '\n' :: rest) = none := by
  rw [readDateTime, readDate_digits hds]
  exact readTime_digits hds

theorem readFloat_toDigits (n : Nat) (rest : List Char) :
    readFloat (Nat.toDigits 10 n ++ '\n' :: rest) = none := by
  have hdecimal := readDecimal_toDigits n rest
  obtain ⟨c, ds, hc, hds⟩ := exists_cons_toDigits n
  rw [hds, List.cons_append] at hdecimal ⊢
  unfold readFloat
  rw [readSign_digit hc]
  simp only
  split
  · rename_i h; exact absurd (List.cons.inj h).1 (ne_of_isDigit hc (by decide))
  · rename_i h; exact absurd (List.cons.inj h).1 (ne_of_isDigit hc (by decide))
  · rw [hdecimal]
    rfl

/-- The digits of a number that fits into 64 bits are read as that number. -/
theorem readInteger_toDigits (hn : n < Nat.pow 2 63) (rest : List Char) :
    readInteger (Nat.toDigits 10 n ++ '\n' :: rest) = some ((n : Int), '\n' :: rest) := by
  have hdecimal := readDecimal_toDigits n rest
  have hn' : n < 9223372036854775808 := hn
  obtain ⟨c, ds, -, hds⟩ := exists_cons_toDigits n
  by_cases hzero : c = '0'
  · subst hzero
    obtain rfl := eq_zero_of_toDigits hds
    rfl
  · have hvalue := digitsValue_toDigits n
    rw [hds] at hvalue
    rw [hds, List.cons_append] at hdecimal ⊢
    unfold readInteger
    simp only
    split
    · rename_i h; exact absurd (List.cons.inj h).1 hzero
    · rename_i h; exact absurd (List.cons.inj h).1 hzero
    · rename_i h; exact absurd (List.cons.inj h).1 hzero
    · simp only [hdecimal, Option.bind_eq_bind, Option.bind_some, Option.pure_def, hvalue]
      simp [hn']

end CallAtlas.Toml
