import CallAtlas.Syntax.Search
import CallAtlas.Text.Source

/-!
# Diagnostics

What is wrong with a program that is refused, and where. A program is refused for the errors in its
tree, and for what the grammar accepts but the language does not.
-/

namespace CallAtlas.Syntax

open Text

/-- What is wrong. -/
inductive Complaint where
  /-- A token had to be put in. -/
  | missing (kind : Kind)
  /-- Some text fits nowhere. -/
  | unexpected (snippet : String)
  /-- There is an error, but no node shows it. -/
  | invalid
  /-- A statement of the language's older version. -/
  | missingParentheses (keyword : String)
  /-- A block holds no statement. -/
  | expectedBlock
deriving DecidableEq, Inhabited, Repr

namespace Complaint

/-- The complaint in words. -/
def message : Complaint → String
  | missing kind => "missing \"" ++ kind.name ++ "\""
  | unexpected snippet => "unexpected \"" ++ snippet ++ "\""
  | invalid => "invalid syntax"
  | missingParentheses keyword => "missing parentheses in call to \"" ++ keyword ++ "\""
  | expectedBlock => "expected an indented block"

end Complaint

/-- What is wrong with a program, and where. Lines and columns are counted from one. -/
structure Diagnostic where
  complaint : Complaint
  line : Nat
  column : Nat
deriving DecidableEq, Inhabited, Repr

namespace Diagnostic

/-- The diagnostic in words. -/
def message (d : Diagnostic) : String := d.complaint.message

/-- The diagnostic in words, with the place. -/
def display (d : Diagnostic) : String :=
  d.message ++ " (line " ++ toString d.line ++ ", column " ++ toString d.column ++ ")"

/-- A diagnostic at the beginning of a node. -/
def atNode (n : Node) (complaint : Complaint) : Diagnostic :=
  ⟨complaint, n.start.row + 1, n.start.column + 1⟩

/-- A diagnostic at the first character after a place that is not blank. -/
def afterPlace (source : Source) (place : Nat) (complaint : Complaint) : Diagnostic :=
  let found := source.skipBlanks place
  ⟨complaint, source.rowOf found + 1, found - source.lineStart found + 1⟩

end Diagnostic

/-- The most characters of a program that a diagnostic quotes. -/
def snippetLimit : Nat := 24

/-- The beginning of a text, for a message. -/
def snippet (text : String) : String :=
  let line := trim (String.ofList (text.toList.takeWhile (· != '\n')))
  if line.length > snippetLimit then String.ofList (line.toList.take snippetLimit) ++ "..."
  else line

namespace Node

/-- The text of a node. -/
def text (n : Node) (source : Source) : String := source.slice n.start.byte n.stop.byte

mutual

/-- The first missing token, or the first error that contains none. A node is an error if its parent
lists it as one, and only nodes marked as having errors are looked into. -/
def firstError (source : Source) : Node → Option Diagnostic
  | node shape children =>
    let here := node shape children
    if shape.missing then some (.atNode here (.missing shape.listedKind))
    else
      match firstErrorAmong source children with
      | some d => some d
      | none =>
        if shape.listedKind = .error then
          some (.atNode here (.unexpected (snippet (here.text source))))
        else none

/-- The first error among some nodes. -/
def firstErrorAmong (source : Source) : List Node → Option Diagnostic
  | [] => none
  | n :: rest =>
    match (if n.hasError then n.firstError source else none) with
    | some d => some d
    | none => firstErrorAmong source rest

end

/-- Whether a block holds anything besides comments. -/
def hasStatement (block : Node) : Bool :=
  block.children.any fun c => c.listedNamed && c.listedKind != .comment

/-- What is wrong with a node by itself, though the grammar accepts it. -/
def invalidity (source : Source) (n : Node) : Option Diagnostic :=
  match n.kind with
  | .printStatement | .execStatement =>
    let keyword := match n.children with
      | token :: _ => token.text source
      | [] => "print"
    some (.atNode n (.missingParentheses keyword))
  | .block =>
    if n.hasStatement then none
    else some (.afterPlace source n.stop.byte .expectedBlock)
  | _ => none

/-- The first node that the grammar accepts but the language does not. -/
def firstInvalid (root : Node) (source : Source) : Option Diagnostic :=
  root.search fun n _ => n.invalidity source

/-- The line of the first node more than `limit` levels below the root. -/
def deeperThan (root : Node) (limit : Nat) : Option Nat :=
  root.search fun n depth => if depth > limit then some n.start.line else none

end Node

end CallAtlas.Syntax
