import CallAtlas.Json.Printer

/-!
# Values in writing

Writing appends to a text the characters of a value, which depend on the level only in their blanks.
-/

namespace CallAtlas.Json

/-- The characters of a line break with the indentation of a level. -/
def indent (level : Nat) : List Char := '\n' :: List.replicate (2 * level) ' '

theorem toList_lineBreak (level : Nat) : (lineBreak level).toList = indent level := by
  rw [lineBreak, String.toList_append]
  exact congrArg ('\n' :: ·) String.toList_ofList

/-- The characters of a text in quotation marks. -/
def quoted (s : String) : List Char := '"' :: (s.toList.flatMap escapeChar ++ ['"'])

theorem toList_quote (s : String) : (quote s).toList = quoted s := String.toList_ofList

mutual

/-- The characters of a value. -/
def chars (level : Nat) : Json → List Char
  | .null => "null".toList
  | .bool b => (if b then "true" else "false").toList
  | .number literal => literal.toList
  | .string s => quoted s
  | .array [] => ['[', ']']
  | .array (j :: items) =>
    '[' :: (indent (level + 1) ++ (chars (level + 1) j ++
      (itemChars (level + 1) items ++ (indent level ++ [']']))))
  | .object [] => ['\x7b', '\x7d']
  | .object ((name, j) :: members) =>
    '\x7b' :: (indent (level + 1) ++ (quoted name ++ (':' :: ' ' :: (chars (level + 1) j ++
      (memberChars (level + 1) members ++ (indent level ++ ['\x7d']))))))

/-- The characters of the items of an array after the first. -/
def itemChars (level : Nat) : List Json → List Char
  | [] => []
  | j :: items => ',' :: (indent level ++ (chars level j ++ itemChars level items))

/-- The characters of the members of an object after the first. -/
def memberChars (level : Nat) : List (String × Json) → List Char
  | [] => []
  | (name, j) :: members =>
    ',' :: (indent level ++ (quoted name ++ (':' :: ' ' :: (chars level j ++
      memberChars level members))))

end

mutual

theorem toList_write (level : Nat) : ∀ (j : Json) (out : String),
    (write level j out).toList = out.toList ++ chars level j
  | .null, out => by rw [write, chars, String.toList_append]
  | .bool b, out => by rw [write, chars, String.toList_append]
  | .number literal, out => by rw [write, chars, String.toList_append]
  | .string s, out => by rw [write, chars, String.toList_append, toList_quote]
  | .array [], out => by
    rw [write, chars, String.toList_append]
    rfl
  | .array (j :: items), out => by
    rw [write, chars, String.toList_append, String.toList_append, toList_writeItems, toList_write]
    simp [toList_lineBreak]
  | .object [], out => by
    rw [write, chars, String.toList_append]
    rfl
  | .object ((name, j) :: members), out => by
    rw [write, chars, String.toList_append, String.toList_append, toList_writeMembers, toList_write]
    simp [toList_lineBreak, toList_quote]

theorem toList_writeItems (level : Nat) : ∀ (items : List Json) (out : String),
    (writeItems level items out).toList = out.toList ++ itemChars level items
  | [], out => by rw [writeItems, itemChars, List.append_nil]
  | j :: items, out => by
    rw [writeItems, itemChars, toList_writeItems, toList_write]
    simp [toList_lineBreak]

theorem toList_writeMembers (level : Nat) : ∀ (members : List (String × Json)) (out : String),
    (writeMembers level members out).toList = out.toList ++ memberChars level members
  | [], out => by rw [writeMembers, memberChars, List.append_nil]
  | (name, j) :: members, out => by
    rw [writeMembers, memberChars, toList_writeMembers, toList_write]
    simp [toList_lineBreak, toList_quote]

end

theorem toList_pretty (j : Json) : j.pretty.toList = chars 0 j := toList_write 0 j ""

/-- All numbers in a value are natural numbers. -/
inductive HasNaturals : Json → Prop where
  | null : HasNaturals .null
  | bool (b : Bool) : HasNaturals (.bool b)
  | natural (n : Nat) : HasNaturals (.natural n)
  | string (s : String) : HasNaturals (.string s)
  | array {items : List Json} (h : ∀ j ∈ items, HasNaturals j) : HasNaturals (.array items)
  | object {members : List (String × Json)} (h : ∀ m ∈ members, HasNaturals m.2) :
    HasNaturals (.object members)

theorem HasNaturals.strings (ss : List String) : HasNaturals (.strings ss) :=
  .array fun j hj => by
    obtain ⟨s, -, rfl⟩ := List.mem_map.1 hj
    exact .string s

theorem chars_natural (level n : Nat) : chars level (natural n) = Nat.toDigits 10 n := by
  rw [natural, chars, Nat.toString_eq_repr, Nat.toList_repr]

/-- A value begins with a character that neither is blank nor ends an array. -/
theorem exists_chars_cons {j : Json} (h : HasNaturals j) (level : Nat) : ∃ c cs,
    chars level j = c :: cs ∧ c ∉ [' ', '\n', '\r', '\t', ']'] := by
  cases h with
  | null => exact ⟨_, _, rfl, by decide⟩
  | bool b =>
    cases b with
    | false => exact ⟨_, _, rfl, by decide⟩
    | true => exact ⟨_, _, rfl, by decide⟩
  | natural n =>
    obtain ⟨c, ds, hds⟩ := List.exists_cons_of_ne_nil (Nat.toDigits_ne_nil (n := n) (b := 10))
    have hc : c.isDigit = true :=
      Nat.isDigit_of_mem_toDigits (by decide) (by decide) (hds ▸ List.mem_cons_self)
    refine ⟨c, ds, (chars_natural level n).trans hds, fun hmem => ?_⟩
    simp only [List.mem_cons, List.not_mem_nil, or_false] at hmem
    rcases hmem with rfl | rfl | rfl | rfl | rfl <;> cases hc
  | string s => exact ⟨_, _, rfl, by decide⟩
  | @array items _ =>
    cases items with
    | nil => exact ⟨_, _, rfl, by decide⟩
    | cons j items => exact ⟨_, _, rfl, by decide⟩
  | @object members _ =>
    cases members with
    | nil => exact ⟨_, _, rfl, by decide⟩
    | cons m members => exact ⟨_, _, rfl, by decide⟩

end CallAtlas.Json
