import CallAtlas.Proofs.Extraction.Calls
import CallAtlas.Proofs.Syntax.Alike

/-!
# The definitions and calls of trees that are alike

In trees that differ in comments and positions only, the same definitions are found in the same order,
and corresponding definitions call the same functions.
-/

namespace CallAtlas

open CallAtlas.Graph Syntax Text

variable {source source' : Source} {n n' : Node} {cs cs' : List Node}

namespace Syntax.Node

theorem Alike.callsName_iff (h : Alike (SameWord source source') n n') (name : String) :
    n.CallsName source name ↔ n'.CallsName source' name := by
  have hconstruct := h.construct
  rw [CallsName, CallsName]
  generalize n.construct = c, n'.construct = c' at hconstruct
  cases hconstruct with
  | call _ hkind htext =>
    simp only [Construct.call.injEq, exists_eq_left', hkind]
    exact and_congr_right fun hidentifier => by rw [htext hidentifier]
  | function _ | classDefinition _ _ | other => simp

theorem Alike.definesFunction_eq (h : Alike (SameWord source source') n n') :
    n'.definesFunction = n.definesFunction := by
  have hconstruct := h.construct
  rw [definesFunction, definesFunction]
  generalize n.construct = c, n'.construct = c' at hconstruct
  cases hconstruct <;> rfl

/-- Something in the tree calls a function by its bare name. -/
def ContainsCall (source : Source) (n : Node) (name : String) : Prop :=
  ∃ m, m.CallsName source name ∧ Within m n

theorem containsCall_iff {name : String} : n.ContainsCall source name ↔
    n.CallsName source name ∨ ∃ c ∈ n.children, c.ContainsCall source name := by
  constructor
  · rintro ⟨m, hcall, hm⟩
    rcases within_iff.1 hm with rfl | ⟨c, hc, hm⟩
    · exact .inl hcall
    · exact .inr ⟨c, hc, m, hcall, hm⟩
  · rintro (hcall | ⟨c, hc, m, hcall, hm⟩)
    · exact ⟨n, hcall, within_iff.2 (.inl rfl)⟩
    · exact ⟨m, hcall, within_iff.2 (.inr ⟨c, hc, hm⟩)⟩

theorem IsComment.not_containsCall (h : n.IsComment) (name : String) :
    ¬ n.ContainsCall source name := by
  rw [containsCall_iff, h.children, CallsName, h.construct]
  simp

theorem Alike.containsCall_iff (h : Alike (SameWord source source') n n') (name : String) :
    n.ContainsCall source name ↔ n'.ContainsCall source' name := by
  induction n using induct generalizing n' with
  | h shape cs ih =>
    rw [Node.containsCall_iff, Node.containsCall_iff, h.callsName_iff]
    refine or_congr_right (h.children.exists_iff (fun c hc c' hcc' => ih c hc hcc') fun hc => ?_)
    exact hc.not_containsCall name

end Syntax.Node

namespace Extraction

variable {same : Node → Node → Prop}

/-- Two definitions are made by nodes that are alike, with decorators that are alike. -/
structure Definition.Alike (same : Node → Node → Prop) (source source' : Source)
    (d d' : Definition) : Prop where
  node : Node.Alike same d.node d'.node
  decorators : Node.AlikeAll same d.decorators d'.decorators
  record : ∃ name name' isAsync depth, name'.text source' = name.text source ∧
    d.record = recordOf source d.node name isAsync depth ∧
    d'.record = recordOf source' d'.node name' isAsync depth

theorem Definition.Alike.name_eq {d d' : Definition} (h : d.Alike same source source' d') :
    d'.record.name = d.record.name := by
  obtain ⟨name, name', isAsync, depth, htext, hd, hd'⟩ := h.record
  rw [hd, hd', recordOf, recordOf, htext]

theorem mem_calleesOf_iff_containsCall {known : CallSet} {d : Definition} {name : String} :
    name ∈ calleesOf source known d ↔ known.contains name = true ∧
      (d.node.ContainsCall source name ∨ ∃ c ∈ d.decorators, c.ContainsCall source name) := by
  rw [mem_calleesOf]
  refine and_congr_right fun _ => ?_
  constructor
  · rintro ⟨m, hcall, hm | ⟨c, hc, hm⟩⟩
    · exact .inl ⟨m, hcall, hm⟩
    · exact .inr ⟨c, hc, m, hcall, hm⟩
  · rintro (⟨m, hcall, hm⟩ | ⟨c, hc, m, hcall, hm⟩)
    · exact ⟨m, hcall, .inl hm⟩
    · exact ⟨m, hcall, .inr ⟨c, hc, hm⟩⟩

theorem Definition.Alike.calleesOf_eq
    (hsame : ∀ n n', same n n' → Node.SameWord source source' n n') {d d' : Definition}
    (h : d.Alike same source source' d') (known : CallSet) :
    calleesOf source' known d' = calleesOf source known d := by
  refine Std.ExtTreeSet.ext_mem fun name => ?_
  rw [mem_calleesOf_iff_containsCall, mem_calleesOf_iff_containsCall,
    (h.node.mono hsame).containsCall_iff name,
    h.decorators.exists_iff (fun c _ c' hc => (hc.mono hsame).containsCall_iff name)
      fun hc => hc.not_containsCall name]

theorem definitionsIn_comment (h : n.IsComment) (around : List Node) :
    definitionsIn source around n = [] := by
  rw [definitionsIn_eq, h.children, definitionAt, Node.nodeAt?_nil]
  simp only [h.construct]
  rfl

/-- In trees that are alike the same definitions are found, if as many definitions stand around them and
their parents hold the same decorators. -/
theorem forall₂_definitionsIn (hsame : ∀ n n', same n n' → Node.SameWord source source' n n') :
    ∀ {n n' : Node}, Node.Alike same n n' → ∀ {around around' : List Node},
      around'.countP Node.definesFunction = around.countP Node.definesFunction →
      Node.AlikeAll same (Node.decorators around.getLast?) (Node.decorators around'.getLast?) →
      List.Forall₂ (Definition.Alike same source source') (definitionsIn source around n)
        (definitionsIn source' around' n') := by
  intro n
  induction n using Node.induct with
  | h shape cs ih =>
    intro n' h around around' hdepth hdecorators
    have hword := h.mono hsame
    have hconstruct := hword.construct
    rw [definitionsIn_eq, definitionsIn_eq]
    refine List.rel_append ?_ (h.children.forall₂_flatMap (fun c hc c' hcc' => ?_) fun hc => ?_)
    · rw [definitionAt, definitionAt, Node.nodeAt?_nil, Node.nodeAt?_nil, Node.above_nil,
        Node.above_nil, List.append_nil, List.append_nil, hdepth]
      generalize hc : (Node.node shape cs).construct = c, hc' : n'.construct = c' at hconstruct
      cases hconstruct with
      | function htext =>
        simp only [hc, hc']
        exact .cons ⟨h, hdecorators, _, _, _, _, htext, rfl, rfl⟩ .nil
      | classDefinition _ _ | call _ _ _ | other =>
        simp only [hc, hc']
        exact .nil
    · refine ih c hc hcc' ?_ ?_
      · rw [List.countP_append, List.countP_append, hdepth, List.countP_singleton,
          List.countP_singleton, hword.definesFunction_eq]
      · rw [List.getLast?_concat, List.getLast?_concat]
        exact h.decorators hsame
    · exact definitionsIn_comment hc _

end Extraction

end CallAtlas
