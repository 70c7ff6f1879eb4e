import CallAtlas.Proofs.Text.Rows
import CallAtlas.Text.Source

/-!
# Characters and bytes

The bytes of a source are those of its characters, one character after another. A line feed is one byte
that is part of no other character, so that the lines are the same in bytes and in characters, and
between two places that divide no character the source has the characters that stand there.
-/

namespace CallAtlas.Text

/-- The bytes of some characters. -/
def encode (cs : List Char) : List UInt8 := cs.flatMap String.utf8EncodeChar

/-- How many bytes some characters take. -/
def width (cs : List Char) : Nat := (encode cs).length

theorem encode_append (a b : List Char) : encode (a ++ b) = encode a ++ encode b :=
  List.flatMap_append

theorem encode_cons (c : Char) (cs : List Char) :
    encode (c :: cs) = String.utf8EncodeChar c ++ encode cs :=
  List.flatMap_cons

@[simp] theorem width_nil : width [] = 0 := rfl

@[simp] theorem width_append (a b : List Char) : width (a ++ b) = width a + width b := by
  rw [width, encode_append, List.length_append, width, width]

@[simp] theorem width_lineFeed : width ['\n'] = 1 := rfl

theorem width_eq_zero_iff {cs : List Char} : width cs = 0 ↔ cs = [] := by
  cases cs with
  | nil => simp
  | cons c cs =>
    rw [width, encode_cons, List.length_append, String.length_utf8EncodeChar]
    have hsize := c.utf8Size_pos
    simp only [reduceCtorEq, iff_false]
    omega

theorem width_toList (s : String) : width s.toList = s.utf8ByteSize := by
  rw [← String.size_toByteArray, ← String.utf8Encode_toList, List.utf8Encode, List.size_toByteArray]
  rfl

/-! ## Line feeds -/

/-- The byte of the line feed is part of no other character. -/
theorem ten_mem_utf8EncodeChar_iff (c : Char) :
    (10 : UInt8) ∈ String.utf8EncodeChar c ↔ c = '\n' := by
  constructor
  · intro h
    have hbyte {n : Nat} (hn : 10 = UInt8.ofNat n) : n % 256 = 10 := by
      have htoNat := congrArg UInt8.toNat hn
      rw [UInt8.toNat_ofNat'] at htoNat
      exact htoNat.symm
    rw [String.utf8EncodeChar] at h
    -- only the code of the line feed is below 128 and gives this byte
    split at h
    · have hcode := hbyte (List.mem_singleton.1 h)
      refine Char.ext (UInt32.toNat_inj.1 ?_)
      show c.val.toNat = 10
      omega
    · exfalso
      repeat' split at h
      all_goals
        simp only [List.mem_cons, List.not_mem_nil, or_false] at h
        grind
  · rintro rfl
    decide

/-- There are as many bytes of line feeds as there are line feeds. -/
theorem count_encode (cs : List Char) : (encode cs).count 10 = cs.count '\n' := by
  induction cs with
  | nil => rfl
  | cons c cs ih =>
    rw [encode_cons, List.count_append, ih, List.count_cons]
    by_cases hc : c = '\n'
    · subst hc
      rw [Nat.add_comm]
      rfl
    · rw [List.count_eq_zero.2 fun h => hc ((ten_mem_utf8EncodeChar_iff c).1 h), if_neg (by simpa using hc),
        Nat.zero_add, Nat.add_zero]

theorem ten_mem_encode_iff (cs : List Char) : (10 : UInt8) ∈ encode cs ↔ '\n' ∈ cs := by
  rw [← List.count_pos_iff, count_encode, List.count_pos_iff]

namespace Source

variable (s : Source)

theorem toList_bytes : s.bytes.data.toList = encode s.text.toList := by
  rw [s.bytes_eq, String.toUTF8_eq_toByteArray, ← String.utf8Encode_toList, List.utf8Encode,
    List.toList_data_toByteArray, encode]

theorem size_eq : s.size = width s.text.toList := by
  rw [size, width, ← toList_bytes, ByteArray.size, Array.length_toList]

theorem byte?_eq (i : Nat) : s.byte? i = (encode s.text.toList)[i]? := by
  rw [byte?, ← toList_bytes, Array.getElem?_toList]
  rfl

/-! ## Places between characters -/

/-- A place divides no character if some characters stand before it. -/
theorem isValid_iff_exists_split {i : Nat} : String.Pos.Raw.IsValid s.text ⟨i⟩ ↔
    ∃ a b, s.text.toList = a ++ b ∧ width a = i := by
  rw [String.Pos.Raw.isValid_iff_exists_append]
  constructor
  · rintro ⟨a, b, htext, hplace⟩
    refine ⟨a.toList, b.toList, by rw [htext, String.toList_append], ?_⟩
    rw [width_toList]
    exact (congrArg String.Pos.Raw.byteIdx hplace).symm
  · rintro ⟨a, b, htext, rfl⟩
    refine ⟨String.ofList a, String.ofList b, ?_, ?_⟩
    · rw [← String.ofList_append, ← htext, String.ofList_toList]
    · rw [← String.toList_ofList (l := a), width_toList, String.ofList_toList]
      rfl

section Split

variable {s} {a m b : List Char} {i : Nat}

theorem isLineFeed_iff : s.isLineFeed i = true ↔ (encode s.text.toList)[i]? = some 10 := by
  rw [isLineFeed, byte?_eq, beq_iff_eq]

theorem isLineFeed_of_split (h : s.text.toList = a ++ '\n' :: b) :
    s.isLineFeed (width a) = true := by
  rw [isLineFeed_iff, h, encode_append, encode_cons, width,
    List.getElem?_append_right (Nat.le_refl _), Nat.sub_self]
  rfl

theorem not_isLineFeed_of_split (h : s.text.toList = a ++ m ++ b) (hm : '\n' ∉ m)
    (hi : width a ≤ i) (him : i < width (a ++ m)) : s.isLineFeed i ≠ true := by
  rw [width_append] at him
  rw [ne_eq, isLineFeed_iff, h, List.append_assoc, encode_append, encode_append,
    List.getElem?_append_right hi, List.getElem?_append_left (by rw [← width, ← width]; omega)]
  intro hten
  exact hm ((ten_mem_encode_iff m).1 (List.mem_of_getElem? hten))

theorem rowOf_eq (s : Source) (i : Nat) :
    s.rowOf i = ((encode s.text.toList).take i).count 10 := by
  induction i with
  | zero => rfl
  | succ i ih =>
    rw [rowOf, ih, List.take_add_one, List.count_append]
    congr 1
    by_cases hfeed : s.isLineFeed i = true
    · rw [if_pos hfeed, isLineFeed_iff.1 hfeed]
      rfl
    · rw [if_neg hfeed]
      rw [isLineFeed_iff] at hfeed
      cases hbyte : (encode s.text.toList)[i]? with
      | none => rfl
      | some byte =>
        rw [hbyte] at hfeed
        refine (List.count_eq_zero.2 fun hten => hfeed ?_).symm
        rw [List.mem_singleton.1 hten]

theorem rowOf_of_split (h : s.text.toList = a ++ b) : s.rowOf (width a) = a.count '\n' := by
  rw [rowOf_eq, h, encode_append, width, List.take_left, count_encode]

theorem lineStart_of_split (h : s.text.toList = a ++ m ++ b)
    (ha : AtLineStart a) (hm : '\n' ∉ m) :
    s.lineStart (width (a ++ m)) = width a := by
  have hback : ∀ k, k ≤ width m → s.lineStart (width a + k) = width a := by
    intro k hk
    induction k with
    | zero =>
      rcases ha with rfl | ⟨before, rfl⟩
      · rfl
      · have hfeed : s.isLineFeed (width before) = true :=
          isLineFeed_of_split (b := m ++ b) (by rw [h]; simp)
        rw [width_append, width_lineFeed, Nat.add_zero, lineStart, if_pos hfeed]
    | succ k ih =>
      have hno := not_isLineFeed_of_split (i := width a + k) h hm (Nat.le_add_right _ _)
        (by rw [width_append]; omega)
      rw [← Nat.add_assoc, lineStart, if_neg hno]
      exact ih (Nat.le_of_succ_le hk)
  rw [width_append]
  exact hback _ (Nat.le_refl _)

theorem lineEnd_of_split (h : s.text.toList = a ++ m ++ b) (hm : '\n' ∉ m)
    (hb : AtLineEnd b) : s.lineEnd (width a) = width (a ++ m) := by
  -- what is left to be searched is the rest of the middle and what comes after it
  have hforward : ∀ left k, k + left = width m + width b → k ≤ width m →
      s.lineEndWithin left (width a + k) = width a + width m := by
    intro left
    induction left with
    | zero =>
      intro k hleft hk
      rw [lineEndWithin]
      omega
    | succ left ih =>
      intro k hleft hk
      rw [lineEndWithin]
      rcases Nat.eq_or_lt_of_le hk with rfl | hlt
      · rcases hb with rfl | ⟨after, rfl⟩
        · rw [width_nil] at hleft
          omega
        · have hfeed : s.isLineFeed (width (a ++ m)) = true := isLineFeed_of_split h
          rw [← width_append, if_pos hfeed]
      · have hno := not_isLineFeed_of_split (i := width a + k) h hm (Nat.le_add_right _ _)
          (by rw [width_append]; omega)
        rw [if_neg hno, Nat.add_assoc]
        exact ih (k + 1) (by omega) hlt
  have hleft : s.size - width a = width m + width b := by
    rw [size_eq, h, width_append, width_append]
    omega
  rw [lineEnd, hleft, width_append]
  exact hforward _ 0 (Nat.zero_add _) (Nat.zero_le _)

theorem slice_of_split (h : s.text.toList = a ++ m ++ b) :
    s.slice (width a) (width (a ++ m)) = String.ofList m := by
  have hsize (cs : List Char) : cs.utf8Encode.size = width cs := List.size_toByteArray
  have hbytes : s.bytes.extract (width a) (width (a ++ m)) = m.utf8Encode := by
    rw [s.bytes_eq, String.toUTF8_eq_toByteArray, ← String.utf8Encode_toList, h,
      List.utf8Encode_append, List.utf8Encode_append, ByteArray.extract_append,
      ByteArray.extract_append_eq_right (hsize a).symm (by rw [width_append, hsize, hsize])]
    have hrest : b.utf8Encode.extract (width a - (a.utf8Encode ++ m.utf8Encode).size)
        (width (a ++ m) - (a.utf8Encode ++ m.utf8Encode).size) = ByteArray.empty := by
      rw [ByteArray.size_append, hsize, hsize, width_append, Nat.sub_self,
        ByteArray.extract_eq_empty_iff]
      omega
    rw [hrest, ByteArray.append_empty]
  have hvalid : m.utf8Encode.IsValidUTF8 := ByteArray.isValidUTF8_utf8Encode
  rw [slice, hbytes, String.fromUTF8?, dif_pos hvalid]
  rfl

/-! ## Slices and positions -/

/-- The text between two places, if they lie in the source in this order and divide no character. -/
def slice? (s : Source) (start stop : Nat) : Option String :=
  if start ≤ stop ∧ String.Pos.Raw.IsValid s.text ⟨start⟩ ∧ String.Pos.Raw.IsValid s.text ⟨stop⟩ then
    some (s.slice start stop)
  else none

theorem slice?_of_split (h : s.text.toList = a ++ m ++ b) :
    s.slice? (width a) (width (a ++ m)) = some (String.ofList m) := by
  rw [slice?, slice_of_split h, if_pos]
  refine ⟨by rw [width_append]; omega, s.isValid_iff_exists_split.2 ⟨a, m ++ b, ?_, rfl⟩,
    s.isValid_iff_exists_split.2 ⟨a ++ m, b, h, rfl⟩⟩
  rw [h, List.append_assoc]

/-- A position is that of a place that divides no character: its row counts the line feeds before the
place, and its column the bytes since the last one. -/
structure Locates (s : Source) (x : Position) : Prop where
  between : String.Pos.Raw.IsValid s.text ⟨x.byte⟩
  row : x.row = s.rowOf x.byte
  column : x.column = x.byte - s.lineStart x.byte

instance (s : Source) (x : Position) : Decidable (s.Locates x) :=
  decidable_of_iff (String.Pos.Raw.IsValid s.text ⟨x.byte⟩ ∧ x.row = s.rowOf x.byte ∧
      x.column = x.byte - s.lineStart x.byte)
    ⟨fun h => ⟨h.1, h.2.1, h.2.2⟩, fun h => ⟨h.between, h.row, h.column⟩⟩

/-- Before a position stand some lines and the beginning of its own line. -/
theorem Locates.exists_split {x : Position} (h : s.Locates x) : ∃ before line after,
    s.text.toList = before ++ line ++ after ∧ AtLineStart before ∧ '\n' ∉ line ∧
    x.byte = width (before ++ line) ∧ x.row = before.count '\n' ∧ x.column = width line := by
  obtain ⟨a, after, htext, hbyte⟩ := s.isValid_iff_exists_split.1 h.between
  obtain ⟨before, line, rfl, hbefore, hline⟩ := exists_lineStart a
  refine ⟨before, line, after, htext, hbefore, hline, hbyte.symm, ?_, ?_⟩
  · rw [h.row, ← hbyte, rowOf_of_split htext, List.count_append, List.count_eq_zero.2 hline,
      Nat.add_zero]
  · rw [h.column, ← hbyte, lineStart_of_split htext hbefore hline, width_append,
      Nat.add_sub_cancel_left]

/-- Of two places in a source the later one has some more characters before it. -/
theorem exists_between {c d : List Char} (h : s.text.toList = a ++ b) (h' : s.text.toList = c ++ d)
    (hle : width a ≤ width c) : ∃ m, c = a ++ m ∧ b = m ++ d := by
  rcases List.append_eq_append_iff.1 (h.symm.trans h') with ⟨m, hc, hb⟩ | ⟨m, ha, hd⟩
  · exact ⟨m, hc, hb⟩
  · rw [ha, width_append] at hle
    obtain rfl : m = [] := width_eq_zero_iff.1 (by omega)
    exact ⟨[], by simpa using ha.symm, by simpa using hd.symm⟩

end Split

end Source

end CallAtlas.Text
