import CallAtlas.Toml.Quoted
import Mathlib.Data.List.Basic
import Mathlib.Logic.Basic

/-!
# Texts between quotation marks are read back

`Written` says how one character may be written between quotation marks, and `WrittenLines` how a text
may be written between three of them. Both readers undo whatever is written so, and every form that
`quote` chooses is of that kind. The main statement is `readText_quote`: whatever the text, what
`quote` writes for it is read as that text, and reading stops right behind it.
-/

namespace CallAtlas.Toml

variable {q c : Char} {escapes : Bool} {p cs w done rest : List Char} {fuel : Nat}

/-! ## Characters -/

/-- How a character may be written between quotation marks `q`: as it is, or as a code after a
backslash. -/
inductive Written (q : Char) (escapes : Bool) (c : Char) : List Char → Prop
  | plain : c ≠ q → (c = '\\' → escapes = false) → isControl c = false → Written q escapes c [c]
  | escaped {code : List Char} : escapes = true →
      (∀ rest, readEscape (code ++ rest) = some (c, rest)) → Written q escapes c ('\\' :: code)

theorem not_opens_code (h : c = '\\' → escapes = false) :
    (decide (c = '\\') && escapes) = false := by
  by_cases hc : c = '\\'
  · simp [h hc]
  · simp [hc]

theorem Written.length_pos (h : Written q escapes c p) : 0 < p.length := by
  cases h <;> simp

/-- Reading a code passes what comes after its digits. -/
theorem readCode_append (a b c d : Char) (rest : List Char) :
    readCode 4 ([a, b, c, d] ++ rest) =
      (readCode 4 [a, b, c, d]).map fun (e, tail) => (e, tail ++ rest) := by
  unfold readCode
  dsimp only [List.cons_append, List.nil_append, List.take_succ_cons, List.take_zero,
    List.drop_succ_cons, List.drop_zero]
  split
  · rfl
  · symm
    apply apply_dite

theorem readCode_upperHex : ∀ n < 128,
    readCode 4 ['0', '0', upperHex (n / 16), upperHex (n % 16)] = some (Char.ofNat n, []) := by
  decide +kernel

theorem isControl_lt (h : isControl c = true) : c.toNat < 128 := by
  simp only [isControl, Bool.or_eq_true, Bool.and_eq_true, decide_eq_true_eq] at h
  omega

/-- The code of a control character is read as that character. -/
theorem readEscape_control (h : isControl c = true) (rest : List Char) :
    readEscape (['u', '0', '0', upperHex (c.toNat / 16), upperHex (c.toNat % 16)] ++ rest) =
      some (c, rest) := by
  let digits := ['0', '0', upperHex (c.toNat / 16), upperHex (c.toNat % 16)]
  have hcode : readCode 4 digits = some (c, []) := by
    simpa only [Char.ofNat_toNat] using readCode_upperHex c.toNat (isControl_lt h)
  calc readEscape ('u' :: (digits ++ rest))
      = readCode 4 (digits ++ rest) := rfl
    _ = (readCode 4 digits).map fun (c, tail) => (c, tail ++ rest) := readCode_append _ _ _ _ rest
    _ = some (c, rest) := by rw [hcode]; rfl

/-- Any character but the quotation mark may be written the way `escapeChar` writes it. -/
theorem written_escapeChar (hc : c ≠ '"') : Written '"' true c (escapeChar c) := by
  unfold escapeChar
  split_ifs with h₁ h₂ h₃ h₄ h₅ h₆ h₇
  · subst h₁; exact .escaped rfl fun _ => rfl
  · subst h₂; exact .escaped rfl fun _ => rfl
  · subst h₃; exact .escaped rfl fun _ => rfl
  · subst h₄; exact .escaped rfl fun _ => rfl
  · subst h₅; exact .escaped rfl fun _ => rfl
  · subst h₆; exact .escaped rfl fun _ => rfl
  · exact .escaped rfl (readEscape_control h₇)
  · exact .plain hc (absurd · h₆) (Bool.eq_false_iff.2 h₇)

theorem written_quotationMark : Written '"' true '"' ['\\', '"'] :=
  .escaped rfl fun _ => rfl

/-! ## One line -/

/-- Whether `q` is a quotation mark, and whether a backslash has a meaning between two of them. -/
def IsMark (q : Char) (escapes : Bool) : Prop :=
  (q = '"' ∧ escapes = true) ∨ (q = '\'' ∧ escapes = false)

theorem IsMark.ne (hq : IsMark q escapes) : q ≠ '\\' ∧ q ≠ '\n' ∧ q ≠ '\r' := by
  obtain ⟨rfl, -⟩ | ⟨rfl, -⟩ := hq <;> decide

/-- Reading one written character takes one step. -/
theorem readLine_written (hq : IsMark q escapes) (h : Written q escapes c p) :
    readLine q escapes (fuel + 1) done (p ++ rest) = readLine q escapes fuel (c :: done) rest := by
  cases h with
  | plain hne hb hctl => simp [readLine, hne, not_opens_code hb, hctl]
  | escaped he hcode => simp [readLine, hq.ne.1.symm, he, hcode]

/-- Between quotation marks a line is read character by character. -/
theorem readLine_flatMap {write : Char → List Char} (hq : IsMark q escapes)
    (hw : ∀ c ∈ cs, Written q escapes c (write c)) (hf : (cs.flatMap write).length < fuel) :
    readLine q escapes fuel done (cs.flatMap write ++ q :: rest) =
      some (String.ofList (done.reverse ++ cs), rest) := by
  induction cs generalizing fuel done with
  | nil =>
    obtain ⟨fuel, rfl⟩ := Nat.exists_eq_add_one_of_ne_zero (Nat.ne_of_gt hf)
    simp [readLine]
  | cons c cs ih =>
    have hc := hw c List.mem_cons_self
    have hpos := hc.length_pos
    simp only [List.flatMap_cons, List.length_append] at hf
    obtain ⟨fuel, rfl⟩ : ∃ k, fuel = k + 1 := ⟨fuel - 1, by omega⟩
    rw [List.flatMap_cons, List.append_assoc, readLine_written hq hc,
      ih (fun d hd => hw d (List.mem_cons_of_mem _ hd)) (by omega)]
    simp

/-! ## Several lines -/

/-- How a text may be written between three quotation marks `q`, after `run` of them that belong to
it: never three of them in a row. -/
inductive WrittenLines (q : Char) (escapes : Bool) : Nat → List Char → List Char → Prop
  | nil {run : Nat} : WrittenLines q escapes run [] []
  | mark {run : Nat} {cs w : List Char} : run < 2 → WrittenLines q escapes (run + 1) cs w →
      WrittenLines q escapes run (q :: cs) (q :: w)
  | newline {run : Nat} {cs w : List Char} : WrittenLines q escapes 0 cs w →
      WrittenLines q escapes run ('\n' :: cs) ('\n' :: w)
  | char {run : Nat} {c : Char} {p cs w : List Char} : Written q escapes c p →
      WrittenLines q escapes 0 cs w → WrittenLines q escapes run (c :: cs) (p ++ w)

theorem readBreak_of_ne (hn : c ≠ '\n') (hr : c ≠ '\r') : readBreak (c :: rest) = none := by
  unfold readBreak
  split <;> simp_all

theorem readBreak_of_not_isControl (h : isControl c = false) : readBreak (c :: rest) = none := by
  apply readBreak_of_ne <;> rintro rfl <;> exact absurd h (by decide)

/-- What passes a test is taken up to the first character that fails it. -/
theorem takeWhile_append_stop {test : Char → Bool} {body : List Char}
    (hbody : ∀ c ∈ body, test c = true) (hrest : ∀ c ∈ rest.head?, test c = false) :
    (body ++ rest).takeWhile test = body := by
  rw [List.takeWhile_append_of_pos hbody]
  cases rest with
  | nil => simp
  | cons d rest => simp [hrest d (by simp)]

theorem takeWhile_mark (k : Nat) (hrest : rest.head? ≠ some q) :
    (List.replicate k q ++ rest).takeWhile (· == q) = List.replicate k q := by
  apply takeWhile_append_stop
  · simp
  · intro c hc
    have hne : c ≠ q := fun h => hrest (h ▸ hc)
    simpa using hne

/-- Fewer than three quotation marks in a row belong to the text. -/
theorem readLines_marks {k : Nat} (hk : k < 2) (hrest : rest.head? ≠ some q) :
    readLines q escapes (fuel + 1) done (List.replicate (k + 1) q ++ rest) =
      readLines q escapes fuel (List.replicate (k + 1) q ++ done) rest := by
  have hrun := takeWhile_mark (k + 1) hrest
  rw [List.replicate_succ, List.cons_append] at hrun ⊢
  simp only [readLines, if_true, hrun]
  simp [show k + 1 < 3 by omega]

/-- Of the quotation marks at the end all but the last three belong to the text. -/
theorem readLines_close {k : Nat} (hk : k ≤ 2) (hrest : rest.head? ≠ some q) :
    readLines q escapes (fuel + 1) done (List.replicate k q ++ (List.replicate 3 q ++ rest)) =
      some (String.ofList (done.reverse ++ List.replicate k q), rest) := by
  have hrun := takeWhile_mark (k + 3) hrest
  rw [← List.append_assoc, ← List.replicate_add]
  rw [show k + 3 = (k + 2) + 1 from rfl, List.replicate_succ, List.cons_append] at hrun ⊢
  simp only [readLines, if_true, hrun]
  simp [show ¬ k + 2 + 1 < 3 by omega, show k + 2 + 1 ≤ 5 by omega]

theorem readLines_newline (hq : IsMark q escapes) :
    readLines q escapes (fuel + 1) done ('\n' :: rest) =
      readLines q escapes fuel ('\n' :: done) rest := by
  simp [readLines, hq.ne.2.1.symm, readBreak]

theorem readLines_written (hq : IsMark q escapes) (h : Written q escapes c p) :
    readLines q escapes (fuel + 1) done (p ++ rest) = readLines q escapes fuel (c :: done) rest := by
  cases h with
  | plain hne hb hctl =>
    simp [readLines, hne, not_opens_code hb, hctl, readBreak_of_not_isControl hctl]
  | escaped he hcode => simp [readLines, hq.ne.1.symm, he, hcode]

theorem Written.head?_ne (hq : IsMark q escapes) (h : Written q escapes c p) (rest : List Char) :
    (p ++ rest).head? ≠ some q := by
  cases h with
  | plain hne _ _ => simpa using hne
  | escaped _ _ => simpa using hq.ne.1.symm

/-- Quotation marks that belong to the text and the character after them take two steps at most. -/
theorem readLines_run {run : Nat} (done : List Char) (hrun : run ≤ 2)
    (hhead : (p ++ rest).head? ≠ some q)
    (hstep : ∀ fuel done, readLines q escapes (fuel + 1) done (p ++ rest) =
      readLines q escapes fuel (c :: done) rest) (hf : run + 1 < fuel) :
    ∃ fuel', fuel ≤ fuel' + run + 1 ∧
      readLines q escapes fuel done (List.replicate run q ++ (p ++ rest)) =
        readLines q escapes fuel' (c :: (List.replicate run q ++ done)) rest := by
  cases run with
  | zero =>
    obtain ⟨fuel, rfl⟩ : ∃ n, fuel = n + 1 := ⟨fuel - 1, by omega⟩
    exact ⟨fuel, by omega, hstep fuel done⟩
  | succ k =>
    obtain ⟨fuel, rfl⟩ : ∃ n, fuel = n + 2 := ⟨fuel - 2, by omega⟩
    refine ⟨fuel, by omega, ?_⟩
    rw [readLines_marks (by omega) hhead, hstep]

/-- What is written between three quotation marks is read back, with the marks before it that belong
to the text. -/
theorem readLines_writtenLines {run : Nat} (done : List Char) (hq : IsMark q escapes)
    (hrest : rest.head? ≠ some q) (h : WrittenLines q escapes run cs w) (hrun : run ≤ 2)
    (hf : run + w.length < fuel) :
    readLines q escapes fuel done (List.replicate run q ++ (w ++ (List.replicate 3 q ++ rest))) =
      some (String.ofList (done.reverse ++ (List.replicate run q ++ cs)), rest) := by
  -- `run` counts the marks that the reader will take in one step, so they stay before the rest.
  induction h generalizing fuel done with
  | nil =>
    obtain ⟨fuel, rfl⟩ : ∃ n, fuel = n + 1 := ⟨fuel - 1, by omega⟩
    simpa using readLines_close hrun hrest
  | @mark run cs w hlt _ ih =>
    have hshift (ds : List Char) :
        List.replicate run q ++ q :: ds = List.replicate (run + 1) q ++ ds := by
      rw [List.replicate_succ', List.append_assoc, List.singleton_append]
    simp only [List.length_cons] at hf
    rw [List.cons_append, hshift, hshift]
    exact ih done (by omega) (by omega)
  | @newline run cs w _ ih =>
    simp only [List.length_cons] at hf
    have hhead : (['\n'] ++ (w ++ (List.replicate 3 q ++ rest))).head? ≠ some q := by
      simpa using hq.ne.2.1.symm
    obtain ⟨fuel', hle, hread⟩ := readLines_run done hrun hhead
      (fun _ _ => readLines_newline hq) (show run + 1 < fuel by omega)
    have hrest' := ih ('\n' :: (List.replicate run q ++ done)) (Nat.zero_le 2)
      (show 0 + w.length < fuel' by omega)
    rw [List.cons_append]
    exact hread.trans (by simpa using hrest')
  | @char run c p cs w hc _ ih =>
    have hpos := hc.length_pos
    simp only [List.length_append] at hf
    obtain ⟨fuel', hle, hread⟩ := readLines_run done hrun (hc.head?_ne hq _)
      (fun _ _ => readLines_written hq hc) (show run + 1 < fuel by omega)
    have hrest' := ih (c :: (List.replicate run q ++ done)) (Nat.zero_le 2)
      (show 0 + w.length < fuel' by omega)
    rw [List.append_assoc]
    exact hread.trans (by simpa using hrest')

/-- A line break that is not in the text is not at the beginning of what is written for it. -/
theorem WrittenLines.readBreak_eq_none {run : Nat} (hq : IsMark q escapes)
    (h : WrittenLines q escapes run cs w) (hn : '\n' ∉ cs) :
    readBreak (w ++ (List.replicate 3 q ++ rest)) = none := by
  cases h with
  | nil => exact readBreak_of_ne hq.ne.2.1 hq.ne.2.2
  | mark _ _ => exact readBreak_of_ne hq.ne.2.1 hq.ne.2.2
  | newline _ => exact absurd List.mem_cons_self hn
  | char hc _ =>
    cases hc with
    | plain _ _ hctl => exact readBreak_of_not_isControl hctl
    | escaped _ _ => exact readBreak_of_ne (by decide) (by decide)

/-! ## The forms of a text -/

/-- The third of adjacent quotation marks is escaped, so three of them never stand in a row. -/
theorem writtenLines_escapeLines (cs : List Char) {run : Nat} (hrun : run ≤ 2) :
    WrittenLines '"' true run cs (escapeLines run cs) := by
  induction cs generalizing run with
  | nil => exact .nil
  | cons c cs ih =>
    unfold escapeLines
    split_ifs with hq htwo hn
    · subst hq
      exact .char written_quotationMark (ih (Nat.zero_le 2))
    · subst hq
      exact .mark (by omega) (ih (by omega))
    · subst hn
      exact .newline (ih (Nat.zero_le 2))
    · exact .char (written_escapeChar hq) (ih (Nat.zero_le 2))

/-- One character more in the count of runs: the longest so far, and the one that it ends. -/
def countRun (c : Char) (counts : Nat × Nat) (d : Char) : Nat × Nat :=
  if d = c then (max counts.1 (counts.2 + 1), counts.2 + 1) else (counts.1, 0)

theorem longestRun_eq (c : Char) (cs : List Char) :
    longestRun c cs = (cs.foldl (countRun c) (0, 0)).1 := rfl

theorem le_foldl_countRun (c : Char) (cs : List Char) (counts : Nat × Nat) :
    counts.1 ≤ (cs.foldl (countRun c) counts).1 := by
  induction cs generalizing counts with
  | nil => exact Nat.le_refl _
  | cons d cs ih =>
    refine Nat.le_trans ?_ (ih _)
    unfold countRun
    split_ifs
    · exact Nat.le_max_left _ _
    · exact Nat.le_refl _

/-- A text without control characters and without three marks in a row may be written as it is. -/
theorem writtenLines_self {counts : Nat × Nat} (hc : ∀ c ∈ cs, isControl c = true → c = '\n')
    (hrun : (cs.foldl (countRun q) counts).1 ≤ 2) : WrittenLines q false counts.2 cs cs := by
  induction cs generalizing counts with
  | nil => exact .nil
  | cons c cs ih =>
    have hrest := ih (fun d hd => hc d (List.mem_cons_of_mem _ hd)) hrun
    by_cases hq : c = q
    · subst hq
      have hle := le_foldl_countRun c cs (countRun c counts c)
      simp only [countRun, if_true] at hle hrest
      have hlt : counts.2 < 2 := by
        simp only [List.foldl_cons, countRun, if_true] at hrun
        omega
      exact .mark hlt hrest
    · simp only [countRun, if_neg hq] at hrest
      cases hctl : isControl c with
      | true => rw [hc c List.mem_cons_self hctl]; exact .newline hrest
      | false => exact .char (.plain hq (fun _ => rfl) hctl) hrest

theorem writtenLines_of_longestRun (hc : ∀ c ∈ cs, isControl c = true → c = '\n')
    (hrun : longestRun q cs ≤ 2) : WrittenLines q false 0 cs cs := by
  rw [longestRun_eq] at hrun
  exact writtenLines_self hc hrun

/-- The forms of a text in quotation marks. A text with a line break begins on a line of its own. -/
inductive QuotedAs (s : String) : List Char → Prop
  | line {q : Char} {escapes : Bool} {write : Char → List Char} : IsMark q escapes →
      (∀ c ∈ s.toList, Written q escapes c (write c)) →
      QuotedAs s (q :: (s.toList.flatMap write ++ [q]))
  | lines {q : Char} {escapes : Bool} {w : List Char} : IsMark q escapes →
      WrittenLines q escapes 0 s.toList w →
      QuotedAs s (List.replicate 3 q ++
        ((if '\n' ∈ s.toList then ['\n'] else []) ++ (w ++ List.replicate 3 q)))

theorem quotedAs_escapeLine (s : String) :
    QuotedAs s ("\"" ++ String.ofList (escapeLine s.toList) ++ "\"").toList := by
  let write (c : Char) : List Char := if c = '"' then ['\\', '"'] else escapeChar c
  have hw : ∀ c ∈ s.toList, Written '"' true c (write c) := by
    intro c _
    by_cases hc : c = '"'
    · subst hc
      exact written_quotationMark
    · simpa only [write, if_neg hc] using written_escapeChar hc
  have htext : ("\"" ++ String.ofList (escapeLine s.toList) ++ "\"").toList =
      '"' :: (s.toList.flatMap write ++ ['"']) := by
    simp [escapeLine, write]
  exact htext ▸ .line (.inl ⟨rfl, rfl⟩) hw

theorem quotedAs_apostrophes {s : String} (hc : ∀ c ∈ s.toList, isControl c = false)
    (hq : '\'' ∉ s.toList) : QuotedAs s ("'" ++ s ++ "'").toList := by
  have hw : ∀ c ∈ s.toList, Written '\'' false c [c] := fun c hm =>
    .plain (fun h => hq (h ▸ hm)) (fun _ => rfl) (hc c hm)
  simpa using QuotedAs.line (.inr ⟨rfl, rfl⟩) hw

theorem quotedAs_tripled {s mark : String} (hq : IsMark q escapes)
    (hmark : mark.toList = List.replicate 3 q) (hw : WrittenLines q escapes 0 s.toList w) :
    QuotedAs s (mark ++ (if s.toList.contains '\n' then "\n" else "") ++ String.ofList w ++
      mark).toList := by
  have htext : (mark ++ (if s.toList.contains '\n' then "\n" else "") ++ String.ofList w ++
      mark).toList = List.replicate 3 q ++
        ((if '\n' ∈ s.toList then ['\n'] else []) ++ (w ++ List.replicate 3 q)) := by
    by_cases h : '\n' ∈ s.toList <;> simp [hmark, h]
  exact htext ▸ .lines hq hw

/-- Every text is written in one of the forms. -/
theorem quotedAs_quote (s : String) : QuotedAs s (quote s).toList := by
  have hplain (h : (s.toList.any fun c => isControl c && c ≠ '\n') = false) :
      ∀ c ∈ s.toList, isControl c = true → c = '\n' := by
    simpa using h
  have hmarks : "\"\"\"".toList = List.replicate 3 '"' := rfl
  have hlines := quotedAs_tripled (.inl ⟨rfl, rfl⟩) hmarks
    (writtenLines_escapeLines s.toList (Nat.zero_le 2))
  -- Escaping serves for every text. The conditions matter where the text is written as it is.
  unfold quote
  simp only []
  split
  · exact quotedAs_escapeLine s
  split
  · rename_i h
    simp only [Bool.and_eq_true, Bool.not_eq_true'] at h
    obtain ⟨⟨hctl, hn⟩, hq⟩ := h
    apply quotedAs_apostrophes
    · intro c hc
      refine Bool.eq_false_iff.2 fun h => ?_
      rw [hplain hctl c hc h] at hc
      simp [hc] at hn
    · simpa using hq
  split
  · exact hlines
  split
  · rename_i h
    simp only [Bool.and_eq_true, Bool.not_eq_true', decide_eq_true_eq] at h
    obtain ⟨hctl, hrun⟩ := h
    exact quotedAs_tripled (.inr ⟨rfl, rfl⟩) rfl (writtenLines_of_longestRun (hplain hctl) hrun)
  split
  · rename_i hn
    simpa only [if_pos hn] using hlines
  · exact quotedAs_escapeLine s

/-! ## Reading any form -/

theorem readText_of_ne {body : List Char} (hq : IsMark q escapes)
    (hbody : ∀ t, body ≠ q :: q :: t) : readText (q :: body) = readShort (q :: body) := by
  unfold readText
  split
  · rename_i t h
    obtain ⟨rfl, rfl⟩ := List.cons.inj h
    exact absurd rfl (hbody t)
  · rename_i t h
    obtain ⟨rfl, rfl⟩ := List.cons.inj h
    exact absurd rfl (hbody t)
  · rfl

theorem readShort_mark (hq : IsMark q escapes) :
    readShort (q :: rest) = readLine q escapes (rest.length + 1) [] rest := by
  obtain ⟨rfl, rfl⟩ | ⟨rfl, rfl⟩ := hq <;> rfl

theorem readText_marks (hq : IsMark q escapes) :
    readText (List.replicate 3 q ++ rest) =
      readLines q escapes (((readBreak rest).getD rest).length + 1) []
        ((readBreak rest).getD rest) := by
  obtain ⟨rfl, rfl⟩ | ⟨rfl, rfl⟩ := hq <;> rfl

/-- What is written on one line does not begin with three marks. -/
theorem flatMap_ne_marks {write : Char → List Char} (hq : IsMark q escapes)
    (hw : ∀ c ∈ cs, Written q escapes c (write c)) (hrest : rest.head? ≠ some q) (t : List Char) :
    cs.flatMap write ++ q :: rest ≠ q :: q :: t := by
  intro h
  cases cs with
  | nil => simp_all
  | cons c cs =>
    have hhead := (hw c List.mem_cons_self).head?_ne hq (cs.flatMap write ++ q :: rest)
    rw [List.flatMap_cons, List.append_assoc] at h
    simp [h] at hhead

/-- A text in any form is read as that text, when no further quotation mark follows. -/
theorem QuotedAs.readText_append {s : String} {text : List Char} (h : QuotedAs s text)
    (hrest : rest.head? ≠ some '"' ∧ rest.head? ≠ some '\'') :
    readText (text ++ rest) = some (s, rest) := by
  have hne {q : Char} {escapes : Bool} (hq : IsMark q escapes) : rest.head? ≠ some q := by
    obtain ⟨rfl, -⟩ | ⟨rfl, -⟩ := hq
    · exact hrest.1
    · exact hrest.2
  cases h with
  | line hq hw =>
    rw [List.cons_append, List.append_assoc, List.singleton_append,
      readText_of_ne hq (flatMap_ne_marks hq hw (hne hq)), readShort_mark hq,
      readLine_flatMap hq hw (by rw [List.length_append]; omega)]
    simp
  | @lines q escapes w hq hw =>
    let opening := if '\n' ∈ s.toList then ['\n'] else []
    let body := w ++ (List.replicate 3 q ++ rest)
    have hopening : (readBreak (opening ++ body)).getD (opening ++ body) = body := by
      by_cases hn : '\n' ∈ s.toList
      · simp [opening, hn, readBreak]
      · simp only [opening, if_neg hn, List.nil_append, body, hw.readBreak_eq_none hq hn,
          Option.getD_none]
    have hread : readLines q escapes (body.length + 1) [] body = some (s, rest) := by
      have hlength : 0 + w.length < body.length + 1 := by
        rw [List.length_append]
        omega
      simpa [body] using readLines_writtenLines [] hq (hne hq) hw (Nat.zero_le 2) hlength
    calc readText (List.replicate 3 q ++ (opening ++ (w ++ List.replicate 3 q)) ++ rest)
        = readText (List.replicate 3 q ++ (opening ++ body)) := by
          simp only [body, List.append_assoc]
      _ = some (s, rest) := by rw [readText_marks hq, hopening, hread]

/-- What is written for a text is read as that text. -/
theorem readText_quote (s : String) (hrest : rest.head? ≠ some '"' ∧ rest.head? ≠ some '\'') :
    readText ((quote s).toList ++ rest) = some (s, rest) :=
  (quotedAs_quote s).readText_append hrest

end CallAtlas.Toml
