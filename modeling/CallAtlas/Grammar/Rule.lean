import CallAtlas.Grammar.Pattern

/-!
# Grammars

A grammar names its tokens and its rules. A rule's body says how it is written; precedences and
groupings inside it decide between readings while a parser is built, weights decide between
readings of a text that only its end can tell apart.
-/

namespace CallAtlas.Grammar

/-- Which way equal precedences group. -/
inductive Grouping where
  | left
  | right
deriving BEq, Hashable, Inhabited

/-- The body of a rule. -/
inductive Rule where
  | empty
  /-- The token with the given text. -/
  | text (literal : String)
  /-- The token or rule with the given name. -/
  | ref (name : String)
  | seq (first second : Rule)
  | either (left right : Rule)
  | many1 (body : Rule)
  | ranked (precedence : Int) (grouping : Option Grouping) (body : Rule)
  | weighted (weight : Int) (body : Rule)
  /-- The role that the symbols of the body play in the rule. -/
  | field (name : String) (body : Rule)
  /-- The symbols of the body show under another name. -/
  | shown (name : String) (visibility : Visibility) (body : Rule)
deriving BEq, Hashable, Inhabited

/-- A fixed text stands for its token. -/
instance : Coe String Rule := ⟨.text⟩

namespace Rule

/-- The rules one after the other. -/
def all : List Rule → Rule
  | [] => .empty
  | [r] => r
  | r :: rs => .seq r (all rs)

/-- One of the rules. -/
def oneOf : List Rule → Rule
  | [] => .empty
  | [r] => r
  | r :: rs => .either r (oneOf rs)

/-- The rule or nothing. -/
def optional (r : Rule) : Rule := .either r .empty

/-- The rule any number of times. -/
def many (r : Rule) : Rule := .optional (.many1 r)

/-- The rule once or more, with separators between. -/
def separated (separator : String) (r : Rule) : Rule := .seq r (many (.seq separator r))

/-- The rule once or more, with commas between. -/
def commaSeparated (r : Rule) : Rule := separated "," r

/-- Raises or lowers the precedence of the rule. -/
def precedence (p : Int) (r : Rule) : Rule := .ranked p none r

/-- Readings of equal precedence group to the left. -/
def leftward (p : Int) (r : Rule) : Rule := .ranked p (some .left) r

/-- Readings of equal precedence group to the right. -/
def rightward (p : Int) (r : Rule) : Rule := .ranked p (some .right) r

end Rule

/-- How a rule enters the trees. -/
inductive RuleRole where
  /-- Its uses are nodes. -/
  | node
  /-- Its uses dissolve into their children. -/
  | hidden
  /-- It only gathers rules that can stand in the same places; its uses dissolve. -/
  | family
  /-- Its alternatives are written out wherever it is named. -/
  | inlined
  /-- One step of a repetition; its uses dissolve. -/
  | repetition
deriving BEq, Inhabited

/-- A rule with its name. -/
structure RuleEntry where
  name : String
  role : RuleRole
  body : Rule
  /-- The name its nodes carry, where it is not the rule's own. -/
  shownAs : Option String := none
deriving Inhabited

/-- A token that the layout of lines decides, and not a pattern. -/
structure LayoutToken where
  name : String
  visibility : Visibility
deriving Inhabited

/-- The description of a language from which its parser is built. -/
structure Description where
  tokens : Array Token
  /-- The tokens found by the layout, in the order of their signals. -/
  layout : Array LayoutToken
  /-- Tokens with patterns whose admissibility the layout must know, in the order of their
  signals after those of the layout's own tokens. -/
  watched : List String
  /-- What may stand between tokens. -/
  blanks : Pattern
  /-- Tokens that may stand between any two tokens and become nodes. -/
  extras : List String
  /-- The token of which keywords are special cases. -/
  word : String
  rules : List RuleEntry

end CallAtlas.Grammar
