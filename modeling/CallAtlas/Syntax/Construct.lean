import CallAtlas.Syntax.Diagnostic

/-!
# Constructs

The constructs that the analyses look for: definitions of functions and classes, and calls.
-/

namespace CallAtlas.Syntax

open Text

/-- What a node is to the analyses. -/
inductive Construct where
  | function (name : Node) (isAsync : Bool)
  | classDefinition (name : Node) (superclasses : Option Node)
  | call (function : Node)
  | other
deriving Inhabited

/-- What a call calls. -/
inductive Callee where
  /-- A bare name. -/
  | name (name : String)
  /-- A member of an object, by the member's name. -/
  | member (name : String)
  /-- Anything that has to be worked out first. -/
  | computed
deriving DecidableEq, Inhabited, Repr

namespace Callee

/-- The name that surely is the callee's. -/
def directName : Callee → Option String
  | name n => some n
  | _ => none

/-- The name that may be the callee's. -/
def looseName : Callee → Option String
  | name n => some n
  | member n => some n
  | computed => none

end Callee

namespace Node

/-- What the node is to the analyses. -/
def construct (n : Node) : Construct :=
  match n.kind with
  | .functionDefinition =>
    match n.childWith .name with
    | some name => .function name (n.children.any (·.kind == .asyncWord))
    | none => .other
  | .classDefinition =>
    match n.childWith .name with
    | some name => .classDefinition name (n.childWith .superclasses)
    | none => .other
  | .call =>
    match n.childWith .function with
    | some function => .call function
    | none => .other
  | _ => .other

/-- What a call calls, by the node of its function. -/
def callee (function : Node) (source : Source) : Callee :=
  match function.kind with
  | .identifier => .name (function.text source)
  | .memberAccess =>
    match function.childWith .member with
    | some m => .member (m.text source)
    | none => .computed
  | _ => .computed

/-- The bare names among the base classes of a class. -/
def baseNames (superclasses : Node) (source : Source) : List String :=
  (superclasses.children.filter fun c => c.listedNamed && c.kind == .identifier).map
    (·.text source)

/-- The decorators that a node holds beside the definition that it decorates. -/
def decorators (parent : Option Node) : List Node :=
  match parent with
  | some p =>
    if p.kind == .decoratedDefinition then
      p.children.filter fun c => c.listedNamed && c.kind == .decorator
    else []
  | none => []

mutual

/-- The last token that is listed as something other than a comment, or the node itself. -/
def lastCodeToken : Node → Node
  | node shape children => lastCodeTokenAmong (node shape children) children

/-- The last such token of the last of some nodes that is not listed as a comment; `fallback` if there
is none. -/
def lastCodeTokenAmong (fallback : Node) : List Node → Node
  | [] => fallback
  | n :: rest =>
    if n.listedKind != .comment && rest.all (·.listedKind == .comment) then n.lastCodeToken
    else lastCodeTokenAmong fallback rest

end

end Node

end CallAtlas.Syntax
