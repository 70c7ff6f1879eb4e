import CallAtlas.Proofs.Dependencies.Walk
import CallAtlas.Proofs.Syntax.Alike

/-!
# The dependencies of trees that are alike

Trees that differ in comments and positions only add the same to a dependency graph, in the same order.
-/

namespace CallAtlas

open CallAtlas.Graph Syntax Text

variable {source source' : Source} {n n' : Node}

theorem Syntax.Node.Alike.definition?_eq (h : Node.Alike (Node.SameWord source source') n n') :
    n'.definition? source' = n.definition? source := by
  have hconstruct := h.construct
  rw [definition?, definition?]
  generalize n.construct = c, n'.construct = c' at hconstruct
  cases hconstruct with
  | function htext => simp only [htext]
  | classDefinition htext _ => simp only [htext]
  | call _ _ _ | other => rfl

namespace Dependencies

theorem mentionsOf_eq_of_alike (h : Node.Alike (Node.SameWord source source') n n')
    (scope : Option String) : mentionsOf source scope n = mentionsOf source' scope n' := by
  have hconstruct := h.construct
  rw [mentionsOf, mentionsOf]
  generalize n.construct = c, n'.construct = c' at hconstruct
  cases hconstruct with
  | function htext => simp only [htext]
  | classDefinition htext hbases =>
    cases hbases with
    | none => simp only [htext]
    | some hbases => simp only [htext, hbases]
  | call hcallee _ _ => simp only [hcallee]
  | other => rfl

theorem mentionsIn_comment (h : n.IsComment) (around : List Node) :
    mentionsIn source around n = [] := by
  rw [mentionsIn_eq, h.children, mentionsOf, h.construct]
  rfl

/-- Trees that are alike add the same inside definitions of the same name. -/
theorem mentionsIn_eq_of_alike (h : Node.Alike (Node.SameWord source source') n n') :
    ∀ {around around' : List Node}, innermost source' around' = innermost source around →
      mentionsIn source around n = mentionsIn source' around' n' := by
  induction n using Node.induct generalizing n' with
  | h shape cs ih =>
    intro around around' hscope
    have hinside : innermost source' (around' ++ [n']) =
        innermost source (around ++ [Node.node shape cs]) := by
      rw [innermost_concat, innermost_concat, h.definition?_eq, hscope]
    have hchildren : cs.flatMap (mentionsIn source (around ++ [.node shape cs])) =
        n'.children.flatMap (mentionsIn source' (around' ++ [n'])) :=
      h.children.flatMap_eq (fun c hc c' hcc' => ih c hc hcc' hinside)
        fun hc => mentionsIn_comment hc _
    rw [mentionsIn_eq, mentionsIn_eq, hscope, mentionsOf_eq_of_alike h, Node.children,
      hchildren]

end Dependencies

end CallAtlas
