import CallAtlas.Json.Reader
import CallAtlas.Proofs.Json.Written
import CallAtlas.Proofs.Toml.Number
import Mathlib.Data.List.TakeDrop

/-!
# Written values are read back

Reading a value in writing gives the value, whatever characters its texts hold, if all its numbers are
natural ones. The number of steps that reading may take is never the obstacle: each item and each member
takes one step, and its separator takes a character.
-/

namespace CallAtlas.Json

variable {rest cs : List Char}

/-! ## Texts -/

theorem hexValue_hexDigit {n : Nat} (h : n < 16) : hexValue (hexDigit n) = some n := by
  revert n
  decide

theorem charOf_toNat (c : Char) : charOf c.toNat = c := by
  rw [charOf, dif_pos (show c.toNat.isValidChar from c.valid)]
  rfl

theorem readCode_control {c : Char} (h : c.toNat < 32) (rest : List Char) :
    readCode ('0' :: '0' :: hexDigit (c.toNat / 16) :: hexDigit (c.toNat % 16) :: rest) =
      some (c, rest) := by
  have hzero : hexValue '0' = some 0 := rfl
  have hhex : readHex4 ('0' :: '0' :: hexDigit (c.toNat / 16) :: hexDigit (c.toNat % 16) :: rest) =
      some (c.toNat, rest) := by
    simp only [readHex4, hzero, hexValue_hexDigit (show c.toNat / 16 < 16 by omega),
      hexValue_hexDigit (show c.toNat % 16 < 16 by omega), Option.bind_eq_bind, Option.bind_some]
    congr 2
    omega
  have hlow : (decide (0xD800 ≤ c.toNat) && decide (c.toNat < 0xDC00)) = false := by
    simp only [Bool.and_eq_false_iff, decide_eq_false_iff_not]
    omega
  simp only [readCode, hhex, Option.bind_eq_bind, Option.bind_some, hlow, Bool.false_eq_true,
    if_false, charOf_toNat]
  rfl

/-- A character is read as it is written, in one step. -/
theorem readText_escapeChar (c : Char) (fuel : Nat) (done rest : List Char) :
    readText (fuel + 1) done (escapeChar c ++ rest) = readText fuel (c :: done) rest := by
  rw [escapeChar]
  split
  · subst c; rfl
  rename_i hquote
  split
  · subst c; rfl
  rename_i hbackslash
  split
  · subst c; rfl
  split
  · subst c; rfl
  split
  · subst c; rfl
  split
  · subst c; rfl
  split
  · subst c; rfl
  split
  · rename_i hcontrol
    have hcode := readCode_control hcontrol rest
    simp only [List.cons_append, List.nil_append, readText, Char.reduceEq, if_false,
      if_true, hcode]
  · rename_i hplain
    rw [List.singleton_append, readText.eq_def]
    simp only [if_neg hquote, if_neg hbackslash, if_neg hplain]

theorem readText_flatMap (s : List Char) (fuel : Nat) (done rest : List Char) (h : s.length < fuel) :
    readText fuel done (s.flatMap escapeChar ++ '"' :: rest) =
      some (String.ofList (done.reverse ++ s), rest) := by
  induction s generalizing fuel done with
  | nil =>
    obtain ⟨fuel, rfl⟩ := Nat.exists_eq_add_one_of_ne_zero (Nat.ne_zero_of_lt h)
    rw [List.append_nil]
    rfl
  | cons c s ih =>
    obtain ⟨fuel, rfl⟩ := Nat.exists_eq_add_one_of_ne_zero (Nat.ne_zero_of_lt h)
    rw [List.flatMap_cons, List.append_assoc, readText_escapeChar, ih _ _ (by simpa using h)]
    simp

theorem length_le_length_flatMap (s : List Char) : s.length ≤ (s.flatMap escapeChar).length := by
  have hpos (c : Char) : 1 ≤ (escapeChar c).length := by
    unfold escapeChar
    repeat' split
    all_goals simp
  induction s with
  | nil => rfl
  | cons c s ih =>
    have hc := hpos c
    rw [List.flatMap_cons, List.length_append, List.length_cons]
    omega

theorem readText_quoted (s : String) (rest : List Char) :
    readText ((s.toList.flatMap escapeChar ++ '"' :: rest).length + 1) []
      (s.toList.flatMap escapeChar ++ '"' :: rest) = some (s, rest) := by
  have hlength := length_le_length_flatMap s.toList
  rw [readText_flatMap, List.reverse_nil, List.nil_append, String.ofList_toList]
  rw [List.length_append, List.length_cons]
  omega

/-! ## Numbers -/

/-- A text begins with what may follow a value, or is empty. -/
def Follows (rest : List Char) : Prop := ∀ c ∈ rest.head?, c = ',' ∨ c = '\n'

theorem span_isDigit {ds : List Char} (hds : ∀ c ∈ ds, c.isDigit = true) (h : Follows rest) :
    readDigits (ds ++ rest) = (ds, rest) := by
  rw [readDigits, List.span_eq_takeWhile_dropWhile, List.takeWhile_append_of_pos hds,
    List.dropWhile_append_of_pos hds]
  cases rest with
  | nil => simp
  | cons c rest =>
    have hc : c.isDigit = false := by
      rcases h c rfl with rfl | rfl <;> rfl
    simp [hc]

/-- Only zero is written with a zero in front. -/
theorem no_leading_zero (n : Nat) : ((Nat.toDigits 10 n).isEmpty ||
    (decide ((Nat.toDigits 10 n).length > 1) && (Nat.toDigits 10 n).head? == some '0')) = false := by
  obtain ⟨c, ds, -, hds⟩ := Toml.exists_cons_toDigits n
  by_cases hzero : c = '0'
  · subst hzero
    rw [Toml.eq_zero_of_toDigits hds]
    rfl
  · simp [hds, hzero]

theorem readNumber_toDigits (n : Nat) (h : Follows rest) :
    readNumber (Nat.toDigits 10 n ++ rest) = some (toString n, rest) := by
  have hdigits := span_isDigit (fun _ => Toml.toDigits_isDigit (n := n)) h
  have hzero := no_leading_zero n
  have hsign : ∀ cs, Nat.toDigits 10 n ++ rest ≠ '-' :: cs := by
    obtain ⟨c, ds, hc, hds⟩ := Toml.exists_cons_toDigits n
    rw [hds]
    intro cs heq
    rw [(List.cons.inj heq).1] at hc
    cases hc
  have htext : String.ofList (Nat.toDigits 10 n) = n.repr := rfl
  rw [readNumber]
  · simp only [hdigits, hzero]
    rcases rest with _ | ⟨d, rest⟩
    · simp [htext]
    · rcases h d rfl with rfl | rfl
      · simp [htext]
      · simp [htext]
  · exact hsign

/-! ## Values -/

theorem skipBlanks_cons {c : Char} (h : c ∉ [' ', '\n', '\r', '\t']) (rest : List Char) :
    skipBlanks (c :: rest) = c :: rest := by
  simp only [List.mem_cons, List.not_mem_nil, or_false, not_or] at h
  rw [skipBlanks, if_neg (by simpa [and_assoc] using h)]

theorem skipBlanks_indent (level : Nat) (rest : List Char) :
    skipBlanks (indent level ++ rest) = skipBlanks rest := by
  have hspaces (n : Nat) : skipBlanks (List.replicate n ' ' ++ rest) = skipBlanks rest := by
    induction n with
    | zero => rfl
    | succ n ih => rw [List.replicate_succ, List.cons_append, skipBlanks, if_pos (by decide), ih]
  rw [indent, List.cons_append, skipBlanks, if_pos (by decide), hspaces]

theorem skipBlanks_chars {j : Json} (h : HasNaturals j) (level : Nat) (rest : List Char) :
    skipBlanks (chars level j ++ rest) = chars level j ++ rest := by
  obtain ⟨c, cs, hchars, hc⟩ := exists_chars_cons h level
  rw [hchars, List.cons_append, skipBlanks_cons]
  exact fun hmem => hc (List.mem_append_left [']'] hmem)

/-- A value is read as it is written on any level, behind any blanks, if it may take as many steps as it
has characters. -/
def IsReadBack (j : Json) : Prop :=
  ∀ level fuel rest cs, Follows rest → (chars level j).length ≤ fuel →
    skipBlanks cs = chars level j ++ rest → readValue fuel cs = some (j, rest)

theorem follows_indent (level : Nat) (rest : List Char) : Follows (indent level ++ rest) := by
  rintro c ⟨rfl⟩
  exact .inr rfl

theorem follows_itemChars (level : Nat) (items : List Json) (h : Follows rest) :
    Follows (itemChars level items ++ rest) := by
  cases items with
  | nil => exact h
  | cons j items =>
    rintro c ⟨rfl⟩
    exact .inl rfl

/-- After an item, reading an array goes on with what is behind it. -/
theorem readItems_item {j : Json} (hj : IsReadBack j) {level fuel : Nat} (done : List Json)
    {cs more : List Char} (hmore : Follows more) (hfuel : (chars level j).length ≤ fuel)
    (hcs : skipBlanks cs = chars level j ++ more) : readItems (fuel + 1) done cs =
      match skipBlanks more with
      | ',' :: rest => readItems fuel (j :: done) rest
      | ']' :: rest => some (.array (j :: done).reverse, rest)
      | _ => none := by
  rewrite [readItems, hj level fuel more cs hmore hfuel hcs]
  rfl

theorem readItems_chars (level level' : Nat) (rest : List Char) {items : List Json}
    (hitems : ∀ i ∈ items, HasNaturals i ∧ IsReadBack i) {j : Json} (hj : IsReadBack j)
    (fuel : Nat) (done : List Json) (cs : List Char)
    (hcs : skipBlanks cs = chars level j ++ (itemChars level items ++ (indent level' ++ ']' :: rest)))
    (hfuel : (chars level j).length + (itemChars level items).length < fuel) :
    readItems fuel done cs = some (.array (done.reverse ++ j :: items), rest) := by
  induction items generalizing j fuel done cs with
  | nil =>
    obtain ⟨fuel, rfl⟩ := Nat.exists_eq_add_one_of_ne_zero (Nat.ne_zero_of_lt hfuel)
    rw [readItems_item hj done (follows_indent level' (']' :: rest)) (by omega) hcs,
      skipBlanks_indent, skipBlanks_cons (by decide)]
    simp
  | cons i items ih =>
    obtain ⟨fuel, rfl⟩ := Nat.exists_eq_add_one_of_ne_zero (Nat.ne_zero_of_lt hfuel)
    obtain ⟨hi, hread⟩ := hitems i List.mem_cons_self
    have hfollows := follows_itemChars level (i :: items) (follows_indent level' (']' :: rest))
    have hnext := skipBlanks_chars hi level (itemChars level items ++ (indent level' ++ ']' :: rest))
    rw [← skipBlanks_indent level] at hnext
    rw [itemChars, List.length_cons, List.length_append, List.length_append] at hfuel
    rw [readItems_item hj done hfollows (by omega) hcs, itemChars, List.cons_append,
      skipBlanks_cons (by decide)]
    simp only [List.append_assoc]
    rw [ih (fun i hi => hitems i (List.mem_cons_of_mem _ hi)) hread fuel _ _ hnext (by omega)]
    simp

theorem quoted_append (s : String) (rest : List Char) :
    quoted s ++ rest = '"' :: (s.toList.flatMap escapeChar ++ '"' :: rest) := by
  simp [quoted]

theorem skipBlanks_quoted (s : String) (rest : List Char) :
    skipBlanks (quoted s ++ rest) = quoted s ++ rest := by
  rw [quoted_append, skipBlanks_cons (by decide)]

theorem follows_memberChars (level : Nat) (members : List (String × Json)) (h : Follows rest) :
    Follows (memberChars level members ++ rest) := by
  cases members with
  | nil => exact h
  | cons m members =>
    rintro c ⟨rfl⟩
    exact .inl rfl

/-- After a member, reading an object goes on with what is behind it. -/
theorem readMembers_member {j : Json} (hnat : HasNaturals j) (hj : IsReadBack j) {level fuel : Nat}
    (done : List (String × Json)) (name : String) {cs more : List Char} (hmore : Follows more)
    (hfuel : (chars level j).length ≤ fuel)
    (hcs : skipBlanks cs = quoted name ++ (':' :: ' ' :: (chars level j ++ more))) :
    readMembers (fuel + 1) done cs =
      match skipBlanks more with
      | ',' :: rest => readMembers fuel ((name, j) :: done) rest
      | '\x7d' :: rest => some (.object ((name, j) :: done).reverse, rest)
      | _ => none := by
  have hvalue := hj level fuel more (' ' :: (chars level j ++ more)) hmore hfuel
    (skipBlanks_chars hnat level more)
  rw [quoted_append] at hcs
  rw [readMembers, hcs]
  simp only [readText_quoted, skipBlanks_cons (c := ':') (by decide)]
  rewrite [hvalue]
  rfl

theorem readMembers_chars (level level' : Nat) (rest : List Char) {members : List (String × Json)}
    (hmembers : ∀ m ∈ members, HasNaturals m.2 ∧ IsReadBack m.2) {j : Json} (hnat : HasNaturals j)
    (hj : IsReadBack j) (fuel : Nat) (done : List (String × Json)) (name : String) (cs : List Char)
    (hcs : skipBlanks cs = quoted name ++ (':' :: ' ' :: (chars level j ++
      (memberChars level members ++ (indent level' ++ '\x7d' :: rest)))))
    (hfuel : (chars level j).length + (memberChars level members).length < fuel) :
    readMembers fuel done cs = some (.object (done.reverse ++ (name, j) :: members), rest) := by
  induction members generalizing j fuel done name cs with
  | nil =>
    obtain ⟨fuel, rfl⟩ := Nat.exists_eq_add_one_of_ne_zero (Nat.ne_zero_of_lt hfuel)
    rw [readMembers_member hnat hj done name (follows_indent level' ('\x7d' :: rest)) (by omega) hcs,
      skipBlanks_indent, skipBlanks_cons (by decide)]
    simp
  | cons m members ih =>
    obtain ⟨fuel, rfl⟩ := Nat.exists_eq_add_one_of_ne_zero (Nat.ne_zero_of_lt hfuel)
    obtain ⟨name', i⟩ := m
    have hi : HasNaturals i := (hmembers (name', i) List.mem_cons_self).1
    have hread : IsReadBack i := (hmembers (name', i) List.mem_cons_self).2
    have hfollows := follows_memberChars level ((name', i) :: members)
      (follows_indent level' ('\x7d' :: rest))
    have hnext (cs : List Char) : skipBlanks (indent level ++ (quoted name' ++ cs)) =
        quoted name' ++ cs := by
      rw [skipBlanks_indent, skipBlanks_quoted]
    rw [memberChars, List.length_cons, List.length_append, List.length_append, List.length_cons,
      List.length_cons, List.length_append] at hfuel
    rw [readMembers_member hnat hj done name hfollows (by omega) hcs, memberChars, List.cons_append,
      skipBlanks_cons (by decide)]
    simp only [List.cons_append, List.append_assoc]
    rw [ih (fun m hm => hmembers m (List.mem_cons_of_mem _ hm)) hi hread fuel _ _ _ (hnext _)
      (by omega)]
    simp

/-- Reading a value takes a step, and the value has a character for it. -/
theorem isReadBack_of_succ {j : Json} (hnat : HasNaturals j)
    (h : ∀ level fuel rest cs, Follows rest → (chars level j).length ≤ fuel + 1 →
      skipBlanks cs = chars level j ++ rest → readValue (fuel + 1) cs = some (j, rest)) :
    IsReadBack j := by
  intro level fuel rest cs hrest hfuel hcs
  obtain ⟨c, ds, hchars, -⟩ := exists_chars_cons hnat level
  cases fuel with
  | zero =>
    rw [hchars] at hfuel
    cases hfuel
  | succ fuel => exact h level fuel rest cs hrest hfuel hcs

theorem isReadBack_natural (n : Nat) : IsReadBack (.natural n) := by
  refine isReadBack_of_succ (.natural n) fun level fuel rest cs hrest _ hcs => ?_
  obtain ⟨c, ds, hc, hds⟩ := Toml.exists_cons_toDigits n
  have hne {d : Char} (hd : d.isDigit = false) (cs : List Char) :
      Nat.toDigits 10 n ++ rest ≠ d :: cs := by
    rw [hds]
    intro heq
    exact Toml.ne_of_isDigit hc hd (List.cons.inj heq).1
  rw [readValue, hcs, chars_natural]
  -- all other values begin with a character that is no digit
  split
  iterate 6
    · rename_i heq
      exact absurd heq (hne (by decide) _)
  · rw [readNumber_toDigits n hrest]
    rfl

theorem isReadBack_string (s : String) : IsReadBack (.string s) := by
  refine isReadBack_of_succ (.string s) fun level fuel rest cs _ _ hcs => ?_
  rw [chars, quoted_append] at hcs
  rw [readValue, hcs]
  simp only [readText_quoted, Option.map_some]

theorem isReadBack_array {items : List Json} (h : ∀ i ∈ items, HasNaturals i ∧ IsReadBack i) :
    IsReadBack (.array items) := by
  refine isReadBack_of_succ (.array fun i hi => (h i hi).1) fun level fuel rest cs _ hfuel hcs => ?_
  cases items with
  | nil =>
    rw [readValue, hcs]
    rfl
  | cons j items =>
    obtain ⟨hnat, hj⟩ := h j List.mem_cons_self
    obtain ⟨c, ds, hchars, hc⟩ := exists_chars_cons hnat (level + 1)
    have hitems := readItems_chars (level + 1) level rest
      (fun i hi => h i (List.mem_cons_of_mem _ hi)) hj fuel [] _ (skipBlanks_chars hnat (level + 1) _)
      (by
        rw [chars, List.length_cons, List.length_append, List.length_append, List.length_append]
          at hfuel
        simp only [indent, List.length_cons] at hfuel
        omega)
    have hopen := skipBlanks_chars hnat (level + 1)
      (itemChars (level + 1) items ++ (indent level ++ ']' :: rest))
    rw [← skipBlanks_indent (level + 1)] at hopen
    rw [readValue, hcs, chars]
    simp only [List.cons_append, List.append_assoc, List.nil_append, hopen]
    split
    · rename_i heq
      rw [hchars] at heq
      rw [(List.cons.inj heq).1] at hc
      exact absurd (by decide) hc
    · exact hitems

theorem isReadBack_object {members : List (String × Json)}
    (h : ∀ m ∈ members, HasNaturals m.2 ∧ IsReadBack m.2) : IsReadBack (.object members) := by
  refine isReadBack_of_succ (.object fun m hm => (h m hm).1) fun level fuel rest cs _ hfuel hcs => ?_
  cases members with
  | nil =>
    rw [readValue, hcs]
    rfl
  | cons m members =>
    obtain ⟨name, j⟩ := m
    have hnat : HasNaturals j := (h (name, j) List.mem_cons_self).1
    have hj : IsReadBack j := (h (name, j) List.mem_cons_self).2
    have hmembers := readMembers_chars (level + 1) level rest
      (fun m hm => h m (List.mem_cons_of_mem _ hm)) hnat hj fuel [] name _ (skipBlanks_quoted name _)
      (by
        rw [chars, List.length_cons, List.length_append, List.length_append, List.length_cons,
          List.length_cons, List.length_append, List.length_append] at hfuel
        omega)
    rw [readValue, hcs, chars]
    simp only [List.cons_append, List.append_assoc, List.nil_append, skipBlanks_indent, skipBlanks_quoted]
    rw [quoted_append] at hmembers ⊢
    exact hmembers

/-- Every value with natural numbers only is read back, by induction on the value. -/
theorem isReadBack {j : Json} (h : HasNaturals j) : IsReadBack j := by
  induction h with
  | null =>
    refine isReadBack_of_succ .null fun level fuel rest cs _ _ hcs => ?_
    rw [readValue, hcs]
    rfl
  | bool b =>
    refine isReadBack_of_succ (.bool b) fun level fuel rest cs _ _ hcs => ?_
    rw [readValue, hcs]
    cases b <;> rfl
  | natural n => exact isReadBack_natural n
  | string s => exact isReadBack_string s
  | array h ih => exact isReadBack_array fun i hi => ⟨h i hi, ih i hi⟩
  | object h ih => exact isReadBack_object fun m hm => ⟨h m hm, ih m hm⟩

/-- Reading a value in writing gives the value. -/
theorem parse_pretty {j : Json} (h : HasNaturals j) : parse j.pretty = some j := by
  have hread := isReadBack h 0 (2 * (chars 0 j).length + 2) [] (chars 0 j) nofun (by omega)
    (by
      have hblanks := skipBlanks_chars h 0 []
      rwa [List.append_nil] at hblanks ⊢)
  rw [parse, toList_pretty, hread]
  rfl

end CallAtlas.Json
