import CallAtlas.Text.NameChars

/-!
# Patterns of tokens

A token is described by a `Pattern` over sets of characters. What a token needs beside its pattern
is how it shows in a tree and which token wins where two of them match: the one of higher
priority, then the one written as a fixed text, then the one listed first.
-/

namespace CallAtlas.Grammar

/-- A set of characters as inclusive ranges of code points. -/
abbrev CharSet := List (Nat × Nat)

namespace CharSet

/-- The set of the characters of a text. -/
def anyOf (s : String) : CharSet := s.toList.map fun c => (c.toNat, c.toNat)

/-- One range of characters. -/
def range (first last : Char) : CharSet := [(first.toNat, last.toNat)]

/-- The ranges in ascending order, overlapping and adjacent ones joined. -/
def normalize (s : CharSet) : CharSet :=
  let sorted := s.mergeSort fun a b => a.1 ≤ b.1
  let joined := sorted.foldl (fun (done : List (Nat × Nat)) r =>
    match done with
    | last :: rest => if r.1 ≤ last.2 + 1 then (last.1, max last.2 r.2) :: rest else r :: done
    | [] => [r]) []
  joined.reverse

/-- Every character outside the set, except NUL: a NUL is matched only where a pattern names it. -/
def others (s : CharSet) : CharSet :=
  let (gaps, next) := (normalize ((0, 0) :: s)).foldl (fun (gaps, next) r =>
    (if next < r.1 then (next, r.1 - 1) :: gaps else gaps, r.2 + 1)) ([], 0)
  (if next ≤ 0x10FFFF then (next, 0x10FFFF) :: gaps else gaps).reverse

end CharSet

/-- The texts a token may have. -/
inductive Pattern where
  | empty
  | chars (set : CharSet)
  | seq (first second : Pattern)
  | either (left right : Pattern)
  | many1 (body : Pattern)
deriving Inhabited

namespace Pattern

/-- Exactly the given text. -/
def text (s : String) : Pattern :=
  s.toList.foldr (fun c rest => .seq (.chars [(c.toNat, c.toNat)]) rest) .empty

/-- One character of the given text. -/
def anyOf (s : String) : Pattern := .chars (CharSet.anyOf s)

/-- The patterns one after the other. -/
def all : List Pattern → Pattern
  | [] => .empty
  | [p] => p
  | p :: ps => .seq p (all ps)

/-- One of the patterns. -/
def oneOf : List Pattern → Pattern
  | [] => .empty
  | [p] => p
  | p :: ps => .either p (oneOf ps)

/-- The pattern or nothing. -/
def optional (p : Pattern) : Pattern := .either p .empty

/-- The pattern any number of times. -/
def many (p : Pattern) : Pattern := .optional (.many1 p)

/-- The pattern `n` times. -/
def times (n : Nat) (p : Pattern) : Pattern := all (List.replicate n p)

end Pattern

/-- How a symbol shows in a tree. -/
inductive Visibility where
  /-- A node that stands for a rule or a token with a name. -/
  | named
  /-- A node that stands for a fixed text such as a bracket or a keyword. -/
  | anonymous
  /-- No node: its children take its place. -/
  | hidden
deriving BEq, Hashable, Inhabited

/-- A token of the lexicon. -/
structure Token where
  /-- The name its nodes carry; for a fixed text, that text. -/
  name : String
  pattern : Pattern
  visibility : Visibility := .anonymous
  /-- Where two tokens match the same text, a fixed text wins over a pattern. -/
  fixed : Bool := true
  /-- Whether no blanks may stand before the token. -/
  immediate : Bool := false
  /-- Decides first where two tokens match. -/
  priority : Int := 0
deriving Inhabited

namespace Token

/-- A token with one text, known by that text. -/
def ofText (s : String) : Token := { name := s, pattern := .text s }

/-- The rank by which a token is preferred after its priority. -/
def rank (t : Token) : Nat := (if t.fixed then 2 else 0) + (if t.immediate then 1 else 0)

end Token

end CallAtlas.Grammar
