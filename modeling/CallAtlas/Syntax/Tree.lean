import CallAtlas.Failure
import CallAtlas.Settings.Basic

/-!
# Accepted programs

A program is accepted if it is not too large, its tree not too deep, and nothing in the tree is wrong.
Which tree a text has is left to the grammar.
-/

namespace CallAtlas.Syntax

open Text

/-- A grammar gives every text a tree. -/
abbrev Grammar := Source → Option Node

/-- A program with its tree. -/
structure Tree where
  root : Node
  source : Source
deriving Inhabited

namespace Tree

/-- Why the tree of a program is refused, if it is: it is too deep, it has errors, or it holds what the
language does not allow. -/
def refusal (settings : ParsingSettings) (t : Tree) : Option Failure :=
  match t.root.deeperThan settings.maxDepth with
  | some line => some (.nestingTooDeep line settings.maxDepth)
  | none =>
    if t.root.hasError then
      some (.syntaxError ((t.root.firstError t.source).getD (.atNode t.root .invalid)))
    else (t.root.firstInvalid t.source).map .syntaxError

/-- The tree of a program that is accepted. -/
def parse (grammar : Grammar) (settings : ParsingSettings) (source : Source) :
    Except Failure Tree :=
  if source.size > settings.maxFileSize then
    .error (.inputTooLarge source.size settings.maxFileSize)
  else
    match grammar source with
    | none => .error .noTree
    | some root =>
      let tree : Tree := { root, source }
      match tree.refusal settings with
      | some failure => .error failure
      | none => .ok tree

end Tree

end CallAtlas.Syntax
