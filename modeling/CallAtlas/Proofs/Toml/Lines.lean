import CallAtlas.Proofs.Toml.Number
import CallAtlas.Proofs.Toml.Quoted
import CallAtlas.Toml.Reader
import Mathlib.Data.List.Nodup

/-!
# Lines of a document are read back

`ReadsAs` says that a text at the end of a line is read as a value. It holds of the texts that are
written for texts, numbers and truth values. `Draft.Reads` says what comes of a document from some
line on, and there is a step for each kind of line.
-/

namespace CallAtlas.Toml

variable {c : Char} {rest : List Char}

/-! ## Values -/

theorem skipBlanks_cons (h : c ≠ ' ' ∧ c ≠ '\t') : skipBlanks (c :: rest) = c :: rest := by
  simp [skipBlanks, h.1, h.2]

/-- Whether a text at the end of a line is read as a value; it must not begin with a blank. -/
structure ReadsAs (text : List Char) (value : Toml) : Prop where
  skipBlanks_eq : ∀ rest, skipBlanks (text ++ '\n' :: rest) = text ++ '\n' :: rest
  readValue_eq : ∀ fuel rest,
    readValue 0 (fuel + 1) (text ++ '\n' :: rest) = some (value, '\n' :: rest)

/-- A text in quotation marks begins with one. -/
theorem QuotedAs.exists_mark {s : String} {text : List Char} (h : QuotedAs s text) :
    ∃ q more, (q = '"' ∨ q = '\'') ∧ text = q :: more := by
  cases h with
  | line hq _ => exact ⟨_, _, hq.imp And.left And.left, rfl⟩
  | lines hq _ => exact ⟨_, _, hq.imp And.left And.left, rfl⟩

theorem readsAs_quote (s : String) : ReadsAs (quote s).toList (.string s) := by
  obtain ⟨q, more, hq, htext⟩ := (quotedAs_quote s).exists_mark
  constructor
  · intro rest
    rw [htext]
    obtain rfl | rfl := hq <;> rfl
  · intro fuel rest
    have hstop : ('\n' :: rest).head? ≠ some '"' ∧ ('\n' :: rest).head? ≠ some '\'' := by simp
    have hread := readText_quote s hstop
    rw [htext, List.cons_append] at hread ⊢
    obtain rfl | rfl := hq
    · simp only [readValue, hread, Option.map_some]
    · simp only [readValue, hread, Option.map_some]

theorem readsAs_toString {n : Nat} (hn : n < Nat.pow 2 63) :
    ReadsAs (toString n).toList (.integer n) := by
  have htext : (toString n).toList = Nat.toDigits 10 n := by
    rw [Nat.toString_eq_ofList_toDigits, String.toList_ofList]
  rw [htext]
  obtain ⟨c, ds, hc, hds⟩ := exists_cons_toDigits n
  constructor
  · intro rest
    rw [hds, List.cons_append]
    exact skipBlanks_cons ⟨ne_of_isDigit hc (by decide), ne_of_isDigit hc (by decide)⟩
  · intro fuel rest
    have hdate := readDateTime_digits rest fun _ => toDigits_isDigit (n := n)
    have hfloat := readFloat_toDigits n rest
    have hint := readInteger_toDigits hn rest
    rw [hds, List.cons_append] at hdate hfloat hint ⊢
    have hne {d : Char} (hd : d.isDigit = false) : c ≠ d := ne_of_isDigit hc hd
    unfold readValue
    split
    iterate 6
      · rename_i h; exact absurd (List.cons.inj h).1 (hne (by decide))
    · simp only [hdate, hfloat, hint, Option.map_some]

theorem readsAs_boolean (b : Bool) :
    ReadsAs (if b then "true" else "false").toList (.boolean b) := by
  cases b
  · exact ⟨fun _ => rfl, fun _ _ => rfl⟩
  · exact ⟨fun _ => rfl, fun _ _ => rfl⟩

/-! ## Keys -/

/-- Whether a key can be written without quotation marks. -/
def IsBare (key : String) : Prop := key.toList ≠ [] ∧ key.toList.all isKeyChar = true
deriving Decidable

theorem IsBare.exists_cons {key : String} (hkey : IsBare key) :
    ∃ c cs, isKeyChar c = true ∧ key.toList = c :: cs := by
  obtain ⟨c, cs, h⟩ := List.exists_cons_of_ne_nil hkey.1
  exact ⟨c, cs, List.all_eq_true.1 hkey.2 c (h ▸ List.mem_cons_self), h⟩

theorem ne_of_isKeyChar {d : Char} (hc : isKeyChar c = true) (hd : isKeyChar d = false) : c ≠ d :=
  ne_of_apply_ne isKeyChar (by rw [hc, hd]; decide)

theorem readKeyPart_bare {key : String} (hkey : IsBare key)
    (hrest : ∀ c ∈ rest.head?, isKeyChar c = false) :
    readKeyPart (key.toList ++ rest) = some (key, rest) := by
  have htake := takeWhile_append_stop (List.all_eq_true.1 hkey.2) hrest
  obtain ⟨c, cs, hc, hcs⟩ := hkey.exists_cons
  have hne : c ≠ '"' ∧ c ≠ '\'' := ⟨ne_of_isKeyChar hc (by decide), ne_of_isKeyChar hc (by decide)⟩
  unfold readKeyPart
  split
  · rename_i h; rw [hcs] at h; exact absurd (List.cons.inj h).1 hne.1
  · rename_i h; rw [hcs] at h; exact absurd (List.cons.inj h).1 hne.2
  · simp [htake, hkey.1]

/-- A key without quotation marks is read up to what stops it. -/
theorem readKey_bare {key : String} {stop more : List Char} (hkey : IsBare key)
    (hstop : ∀ c ∈ stop.head?, isKeyChar c = false) (hmore : skipBlanks stop = c :: more)
    (hc : c ≠ '.') : readKey (key.toList ++ stop) = some ([], key, c :: more) := by
  have hpart := readKeyPart_bare hkey hstop
  have hblank : skipBlanks (key.toList ++ stop) = key.toList ++ stop := by
    obtain ⟨d, ds, hd, hds⟩ := hkey.exists_cons
    rw [hds]
    exact skipBlanks_cons ⟨ne_of_isKeyChar hd (by decide), ne_of_isKeyChar hd (by decide)⟩
  have hparts : readKeyParts ((key.toList ++ stop).length + 1) (key.toList ++ stop) =
      some ([key], c :: more) := by
    rw [readKeyParts, hblank, hpart]
    simp only [Option.bind_eq_bind, Option.bind_some, hmore]
    split
    · rename_i h; exact absurd (List.cons.inj h).1 hc
    · rfl
  unfold readKey
  rw [hparts]
  rfl

/-! ## Lines -/

theorem readLineEnd_newline : readLineEnd ('\n' :: rest) = some rest := rfl

/-- The line of a field: its key, and what is written for its value. -/
def fieldLine (key : String) (text : List Char) : List Char :=
  key.toList ++ (' ' :: '=' :: ' ' :: (text ++ ['\n']))

/-- The line of a header. -/
def headerLine (name : String) : List Char := '[' :: (name.toList ++ [']', '\n'])

theorem addDotted_nil (ms : Members) (key : String) (value : Toml) :
    ms.addDotted [] key value = ms.add? key value := rfl

theorem any_key_eq_false {ms : Members} {key : String} (hnew : key ∉ ms.map Prod.fst) :
    ms.any (·.1 == key) = false := by
  rw [List.any_eq_false]
  intro m hm heq
  exact hnew (List.mem_map.2 ⟨m, hm, eq_of_beq heq⟩)

theorem add?_new {ms : Members} {key : String} (hnew : key ∉ ms.map Prod.fst) (value : Toml) :
    ms.add? key value = some (ms ++ [(key, value)]) := by
  rw [Members.add?, any_key_eq_false hnew]
  rfl

/-- A line with a new key gives the open table another member. -/
theorem readMember_fieldLine {d : Draft} {key : String} {text : List Char} {value : Toml}
    (rest : List Char) (hkey : IsBare key) (hnew : key ∉ d.members.map Prod.fst)
    (htext : ReadsAs text value) :
    readMember d (fieldLine key text ++ rest) =
      some ({ d with members := d.members ++ [(key, value)] }, rest) := by
  let more := text ++ '\n' :: rest
  have hread : readKey (fieldLine key text ++ rest) = some ([], key, '=' :: ' ' :: more) := by
    have h : readKey (key.toList ++ ' ' :: '=' :: ' ' :: more) =
        some ([], key, '=' :: ' ' :: more) := readKey_bare hkey (by simp; decide) rfl (by decide)
    simpa [fieldLine, more] using h
  have hblank : skipBlanks (' ' :: more) = more := htext.skipBlanks_eq rest
  have hvalue (fuel : Nat) : readValue 0 (fuel + 1) more = some (value, '\n' :: rest) :=
    htext.readValue_eq fuel rest
  unfold readMember
  simp only [hread, Option.bind_eq_bind, Option.bind_some, hblank, hvalue,
    addDotted_nil, add?_new hnew, readLineEnd_newline, Option.pure_def]

theorem readHeader_headerLine {d d' : Draft} {name : String} (rest : List Char)
    (hname : IsBare name) (hopen : d.opened [] name false = some d') :
    readHeader d (headerLine name ++ rest) = some (d', rest) := by
  have hread : readKey (name.toList ++ ']' :: '\n' :: rest) =
      some ([], name, ']' :: '\n' :: rest) := readKey_bare hname (by simp; decide) rfl (by decide)
  have htext : headerLine name ++ rest = '[' :: (name.toList ++ ']' :: '\n' :: rest) := by
    simp [headerLine]
  obtain ⟨c, cs, hc, hcs⟩ := hname.exists_cons
  have hsingle : c ≠ '[' := ne_of_isKeyChar hc (by decide)
  rw [htext]
  rw [hcs, List.cons_append] at hread ⊢
  unfold readHeader
  split
  · rename_i h
    split at h
    · rename_i h'; exact absurd (List.cons.inj (List.cons.inj h').2).1 hsingle
    · obtain ⟨rfl, rfl⟩ := Prod.mk.inj h
      simp only [List.drop_succ_cons, List.drop_zero, hread, Option.bind_eq_bind, Option.bind_some,
        hopen, readLineEnd_newline, Option.pure_def]

/-! ## One line after the other -/

/-- What comes of a draft when the lines from here on are read. More fuel than there are characters is
always enough. -/
def Draft.Reads (d : Draft) (cs : List Char) (e : Draft) : Prop :=
  ∀ fuel, cs.length < fuel → readDocument fuel d cs = some e

namespace Draft.Reads

theorem nil (d : Draft) : d.Reads [] d
  | 0, h => absurd h (Nat.not_lt_zero _)
  | _ + 1, _ => rfl

variable {d d' e : Draft}

theorem emptyLine (h : d.Reads rest e) : d.Reads ('\n' :: rest) e
  | 0, hf => absurd hf (Nat.not_lt_zero _)
  | fuel + 1, hf => h fuel (Nat.lt_of_succ_lt_succ hf)

theorem member {key : String} {text : List Char} {value : Toml} (hkey : IsBare key)
    (hnew : key ∉ d.members.map Prod.fst) (htext : ReadsAs text value)
    (h : Reads { d with members := d.members ++ [(key, value)] } rest e) :
    d.Reads (fieldLine key text ++ rest) e := by
  intro fuel hf
  have hread := readMember_fieldLine rest hkey hnew htext
  obtain ⟨c, cs, hc, hcs⟩ := hkey.exists_cons
  have hline : fieldLine key text ++ rest =
      c :: (cs ++ (' ' :: '=' :: ' ' :: (text ++ ['\n'])) ++ rest) := by
    simp [fieldLine, hcs]
  have hne {x : Char} (hx : isKeyChar x = false) : c ≠ x := ne_of_isKeyChar hc hx
  rw [hline] at hf hread ⊢
  obtain ⟨fuel, rfl⟩ : ∃ n, fuel = n + 1 := ⟨fuel - 1, by omega⟩
  have hrest := h fuel (by simp at hf; omega)
  -- The first character of a key begins no other kind of line.
  unfold readDocument
  rw [skipBlanks_cons ⟨hne (by decide), hne (by decide)⟩]
  split
  · rename_i h; cases h
  iterate 4
    · rename_i h; exact absurd (List.cons.inj h).1 (hne (by decide))
  · rw [hread]
    exact hrest

theorem header {name : String} (hname : IsBare name) (hopen : d.opened [] name false = some d')
    (h : d'.Reads rest e) : d.Reads (headerLine name ++ rest) e := by
  intro fuel hf
  have hread := readHeader_headerLine rest hname hopen
  obtain ⟨fuel, rfl⟩ : ∃ n, fuel = n + 1 := ⟨fuel - 1, by omega⟩
  have hrest := h fuel (by simp [headerLine] at hf; omega)
  have hline : headerLine name ++ rest = '[' :: (name.toList ++ [']', '\n'] ++ rest) := rfl
  rw [hline] at hread ⊢
  unfold readDocument
  rw [skipBlanks_cons (by decide)]
  simp only [hread, Option.bind_some, hrest]

end Draft.Reads

end CallAtlas.Toml
