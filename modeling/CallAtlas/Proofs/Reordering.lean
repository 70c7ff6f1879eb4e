import CallAtlas.Graph.Dot
import CallAtlas.Proofs.Dependencies.Alike
import CallAtlas.Proofs.Dependencies.Scopes
import CallAtlas.Proofs.Extraction.Alike
import CallAtlas.Proofs.Extraction.Duplicates
import CallAtlas.Proofs.Graph.Order

/-!
# The order of the statements does not count

A program whose statements stand in another order, at other places, has the same definitions in another
order, and mentions the same in another order. As long as no name has two definitions that could take
each other's place, its calls and its dependencies are the same.
-/

namespace CallAtlas

open CallAtlas.Graph Syntax Text

/-- The statements of two programs are the same, up to comments and positions, in any order. -/
structure Syntax.Tree.Rearranged (t t' : Tree) : Prop where
  /-- The root only holds the statements: it is no construct and no decorated definition. -/
  root : ∃ name, t.root.kind = .other name
  root' : ∃ name, t'.root.kind = .other name
  statements : ∃ moved, Node.AlikeAll (Node.SameWord t.source t'.source) t.root.children moved ∧
    moved.Perm t'.root.children

theorem Syntax.Node.construct_of_kind_other {n : Node} (h : ∃ name, n.kind = .other name) :
    n.construct = .other := by
  obtain ⟨name, hname⟩ := h
  rw [construct, hname]

theorem Syntax.Node.decorators_of_kind_other {n : Node} (h : ∃ name, n.kind = .other name) :
    decorators (some n) = [] := by
  obtain ⟨name, hname⟩ := h
  rw [decorators, hname]
  rfl

namespace Extraction

variable {t t' : Tree}

theorem definitions_of_kind_other (h : ∃ name, t.root.kind = .other name) :
    definitions t = t.root.children.flatMap (definitionsIn t.source [t.root]) := by
  have hin : definitions t = definitionsIn t.source [] t.root := definitions_eq t
  rw [hin, definitionsIn_eq, definitionAt, Node.nodeAt?_nil]
  simp only [Node.construct_of_kind_other h]
  rfl

/-- Rearranged programs have the same definitions, up to comments and positions, in some order. -/
theorem exists_definitions_perm (h : t.Rearranged t') : ∃ ds,
    List.Forall₂ (Definition.Alike (Node.SameWord t.source t'.source) t.source t'.source)
      (definitions t) ds ∧ ds.Perm (definitions t') := by
  obtain ⟨moved, halike, hperm⟩ := h.statements
  have hdepth (u : Tree) (hu : ∃ name, u.root.kind = .other name) :
      [u.root].countP Node.definesFunction = 0 := by
    rw [List.countP_singleton, Node.definesFunction, Node.construct_of_kind_other hu]
    rfl
  have hdecorators (u : Tree) (hu : ∃ name, u.root.kind = .other name) :
      Node.decorators [u.root].getLast? = [] := Node.decorators_of_kind_other hu
  refine ⟨moved.flatMap (definitionsIn t'.source [t'.root]), ?_, ?_⟩
  · rw [definitions_of_kind_other h.root]
    refine halike.forall₂_flatMap (fun c _ c' hc => ?_) fun hc => definitionsIn_comment hc _
    refine forall₂_definitionsIn (fun _ _ => id) hc ?_ ?_
    · rw [hdepth t h.root, hdepth t' h.root']
    · rw [hdecorators t h.root, hdecorators t' h.root']
      exact .nil
  · rw [definitions_of_kind_other h.root']
    exact hperm.flatMap_right _

/-- The names that are defined, each as often as it is defined. -/
theorem names_perm (h : t.Rearranged t') :
    ((definitions t).map (·.record.name)).Perm ((definitions t').map (·.record.name)) := by
  obtain ⟨ds, halike, hperm⟩ := exists_definitions_perm h
  have hnames : (definitions t).map (·.record.name) = ds.map (·.record.name) :=
    map_eq_of_forall₂ halike fun d d' hd => hd.name_eq.symm
  rw [hnames]
  exact hperm.map _

theorem known_eq_of_rearranged (h : t.Rearranged t') : known t = known t' := by
  have hfold (u : Tree) : known u =
      ((definitions u).map (·.record.name)).foldl CallSet.insertFunction .empty := by
    rw [known, List.foldl_map]
  rw [hfold, hfold]
  exact (names_perm h).foldl_eq' (fun _ _ _ _ c => c.insertFunction_comm _ _) _

/-- What is set for each definition of a program: its name and its callees. -/
def assignments (t : Tree) : List (String × NameSet) :=
  (definitions t).map fun d => (d.record.name, calleesOf t.source (known t) d)

theorem assignAll_resolved (t : Tree) (calls : CallSet) :
    assignAll (resolved t) calls =
      (assignments t).foldl (fun calls a => calls.setCallees a.1 a.2) calls := by
  rw [assignAll, resolved, assignments, List.foldl_map, List.foldl_map]

theorem assignments_perm (h : t.Rearranged t') : (assignments t).Perm (assignments t') := by
  obtain ⟨ds, halike, hperm⟩ := exists_definitions_perm h
  have hsame : assignments t =
      ds.map fun d => (d.record.name, calleesOf t'.source (known t') d) := by
    refine map_eq_of_forall₂ halike fun d d' hd => ?_
    rw [hd.name_eq, known_eq_of_rearranged h, hd.calleesOf_eq fun _ _ => id]
  rw [hsame]
  exact hperm.map _

/-- Where each name has one definition the calls may be set in any order. -/
theorem assignAll_of_rearranged (h : t.Rearranged t')
    (hnodup : ((resolved t).map (·.1.name)).Nodup) :
    assignAll (resolved t) (known t) = assignAll (resolved t') (known t') := by
  rw [assignAll_resolved, assignAll_resolved, known_eq_of_rearranged h]
  have hnames : ((assignments t).map Prod.fst).Nodup := by
    rw [names_resolved] at hnodup
    rwa [assignments, List.map_map]
  refine (assignments_perm h).foldl_eq' (fun a ha b hb calls => ?_) _
  by_cases hname : a.1 = b.1
  · rw [List.inj_on_of_nodup_map hnames ha hb hname]
  · exact calls.setCallees_comm hname a.2 b.2

theorem exists_ofTree_of_rearranged (h : t.Rearranged t')
    (hunique : ∀ p q name, t.Defines p name → t.Defines q name → p = q)
    (policy : DuplicatePolicy) : ∃ e e', ofTree policy t = .ok e ∧ ofTree policy t' = .ok e' ∧
      e.calls = e'.calls := by
  have hnodup : ((resolved t).map (·.1.name)).Nodup := nodup_resolved_iff.2 hunique
  have hnodup' : ((resolved t').map (·.1.name)).Nodup := by
    rw [names_resolved] at hnodup ⊢
    exact (names_perm h).nodup_iff.1 hnodup
  exact ⟨_, _, ofTree_of_assignCalls (assignCalls_of_nodup policy hnodup _),
    ofTree_of_assignCalls (assignCalls_of_nodup policy hnodup' _), assignAll_of_rearranged h hnodup⟩

end Extraction

namespace Dependencies

variable {t t' : Tree}

theorem mentions_of_kind_other (h : ∃ name, t.root.kind = .other name) :
    mentions t = t.root.children.flatMap (mentionsIn t.source [t.root]) := by
  rw [mentions, mentionsIn_eq, mentionsOf, Node.construct_of_kind_other h]
  rfl

theorem mentions_perm (h : t.Rearranged t') : (mentions t).Perm (mentions t') := by
  obtain ⟨moved, halike, hperm⟩ := h.statements
  have hscope (u : Tree) (hu : ∃ name, u.root.kind = .other name) :
      innermost u.source [u.root] = none := by
    rw [innermost, List.filterMap_cons, Node.definition?, Node.construct_of_kind_other hu]
    rfl
  have hsame : mentions t = moved.flatMap (mentionsIn t'.source [t'.root]) := by
    rw [mentions_of_kind_other h.root]
    refine halike.flatMap_eq (fun c _ c' hc => mentionsIn_eq_of_alike hc ?_)
      fun hc => mentionsIn_comment hc _
    rw [hscope t h.root, hscope t' h.root']
  rw [hsame, mentions_of_kind_other h.root']
  exact hperm.flatMap_right _

theorem node_mem_mentions {name : String} {kind : NameKind} :
    .node name kind ∈ mentions t ↔ ∃ p, t.DefinesAs p name kind := by
  rw [mem_mentions]
  simp only [node_mem_mentionsOf, Tree.DefinesAs]

/-- No name is defined in two ways if none is both a function and a class. -/
theorem unambiguous_mentions_iff : DependencyGraph.Unambiguous (mentions t) ↔
    ∀ p q name, t.DefinesAs p name .function → ¬ t.DefinesAs q name .classDefinition := by
  have hplace {m : Mention} (hm : m ∈ mentions t) {name : String} {kind : NameKind}
      (hkind : m.definition? name = some kind) :
      kind ≠ .referenced ∧ ∃ p, t.DefinesAs p name kind := by
    obtain ⟨rfl, hreferenced⟩ := Mention.definition?_eq_some_iff.1 hkind
    exact ⟨hreferenced, node_mem_mentions.1 hm⟩
  constructor
  · intro h p q name hp hq
    have hkinds := h _ (node_mem_mentions.2 ⟨p, hp⟩) _ (node_mem_mentions.2 ⟨q, hq⟩) name _ _
      (Mention.definition?_eq_some_iff.2 ⟨rfl, nofun⟩)
      (Mention.definition?_eq_some_iff.2 ⟨rfl, nofun⟩)
    cases hkinds
  · intro h m hm m' hm' name kind kind' hkind hkind'
    obtain ⟨hne, p, hp⟩ := hplace hm hkind
    obtain ⟨hne', q, hq⟩ := hplace hm' hkind'
    cases kind with
    | function =>
      cases kind' with
      | function => rfl
      | classDefinition => exact absurd hq (h p q name hp)
      | referenced => exact absurd rfl hne'
    | classDefinition =>
      cases kind' with
      | function => exact absurd hp (h q p name hq)
      | classDefinition => rfl
      | referenced => exact absurd rfl hne'
    | referenced => exact absurd rfl hne

theorem ofTree_of_rearranged (h : t.Rearranged t')
    (hkinds : ∀ p q name, t.DefinesAs p name .function → ¬ t.DefinesAs q name .classDefinition) :
    ofTree t = ofTree t' := by
  rw [ofTree_eq_build, ofTree_eq_build]
  exact DependencyGraph.build_perm (mentions_perm h) (unambiguous_mentions_iff.2 hkinds)

end Dependencies

/-- The order of the statements of a program does not count. If each function has one definition, the
calls are the same under every policy, and so are the call graph and its text. If no name is both a
function and a class, the dependency graph is the same. -/
theorem order_ignored {t t' : Tree} (h : t.Rearranged t') :
    ((∀ p q name, t.Defines p name → t.Defines q name → p = q) → ∀ policy, ∃ e e',
      Extraction.ofTree policy t = .ok e ∧ Extraction.ofTree policy t' = .ok e' ∧
      e.calls = e'.calls ∧ CallGraph.ofCallSet e.calls = CallGraph.ofCallSet e'.calls ∧
      ∀ style, (CallGraph.ofCallSet e.calls).toDot style =
        (CallGraph.ofCallSet e'.calls).toDot style) ∧
    ((∀ p q name, t.DefinesAs p name .function → ¬ t.DefinesAs q name .classDefinition) →
      Dependencies.ofTree t = Dependencies.ofTree t') := by
  refine ⟨fun hunique policy => ?_, Dependencies.ofTree_of_rearranged h⟩
  obtain ⟨e, e', he, he', hcalls⟩ := Extraction.exists_ofTree_of_rearranged h hunique policy
  exact ⟨e, e', he, he', hcalls, by rw [hcalls], fun style => by rw [hcalls]⟩

/-- A function on a line, `def x(): y()` for names of one letter, that begins at a byte. Words and signs
without a part of their own are left out. -/
def lineFunction (row byte : Nat) : Node :=
  let place (column : Nat) : Text.Position := ⟨byte + column, row, column⟩
  let leaf (kind : Kind) (field : Field) (start stop : Nat) : Node :=
    .node { kind, named := true, field := some field, start := place start, stop := place stop } []
  let inner (kind : Kind) (start stop : Nat) (children : List Node) : Node :=
    .node { kind, named := true, start := place start, stop := place stop } children
  inner .functionDefinition 0 12
    [leaf .identifier .name 4 5,
      inner .block 9 12
        [inner .call 9 12
          [leaf .identifier .function 9 10,
            leaf (.other "argument_list") (.other "arguments") 10 12]]]

/-- The tree of two such functions. -/
def twoFunctions (text : String) : Tree where
  source := .ofText text
  root := .node { kind := .other "module", named := true, start := ⟨0, 0, 0⟩, stop := ⟨25, 1, 12⟩ }
    [lineFunction 0 0, lineFunction 1 13]

theorem alike_lineFunction {source source' : Source} {row byte row' byte' : Nat}
    (hname : source'.slice (byte' + 4) (byte' + 5) = source.slice (byte + 4) (byte + 5))
    (hcallee : source'.slice (byte' + 9) (byte' + 10) = source.slice (byte + 9) (byte + 10)) :
    Node.Alike (Node.SameWord source source') (lineFunction row byte)
      (lineFunction row' byte') := by
  refine .node ⟨rfl, rfl, rfl, rfl, nofun⟩ (.keep ?_ (.keep ?_ .nil))
  · exact .node ⟨rfl, rfl, rfl, rfl, fun _ => hname⟩ .nil
  · refine .node ⟨rfl, rfl, rfl, rfl, nofun⟩ (.keep (.node ⟨rfl, rfl, rfl, rfl, nofun⟩ ?_) .nil)
    refine .keep (.node ⟨rfl, rfl, rfl, rfl, fun _ => hcallee⟩ .nil) (.keep ?_ .nil)
    exact .node ⟨rfl, rfl, rfl, rfl, nofun⟩ .nil

/-- A function before one that it calls and that calls it. -/
def forwards : Tree := twoFunctions "def f(): g()\ndef g(): f()"

/-- The same functions the other way round. -/
def backwards : Tree := twoFunctions "def g(): f()\ndef f(): g()"

theorem rearranged_forwards : forwards.Rearranged backwards where
  root := ⟨_, rfl⟩
  root' := ⟨_, rfl⟩
  statements := ⟨[lineFunction 1 13, lineFunction 0 0],
    .keep (alike_lineFunction rfl rfl) (.keep (alike_lineFunction rfl rfl) .nil), .swap _ _ _⟩

theorem order_ignored_forwards : forwards.Rearranged backwards ∧
    (∀ p q name, forwards.Defines p name → forwards.Defines q name → p = q) ∧
    (∀ p q name, forwards.DefinesAs p name .function →
      ¬ forwards.DefinesAs q name .classDefinition) ∧
    (∃ e e', Extraction.ofTree .reject forwards = .ok e ∧
      Extraction.ofTree .reject backwards = .ok e' ∧ e.calls = e'.calls) ∧
    Dependencies.ofTree forwards = Dependencies.ofTree backwards := by
  have hunique : ∀ p q name, forwards.Defines p name → forwards.Defines q name → p = q := by
    have hnames : (Extraction.definitions forwards).map (·.record.name) = ["f", "g"] := by rfl
    rw [← Extraction.nodup_resolved_iff, Extraction.names_resolved, hnames]
    decide
  have hkinds : ∀ p q name, forwards.DefinesAs p name .function →
      ¬ forwards.DefinesAs q name .classDefinition := by
    have hmentions : Dependencies.mentions forwards =
      [.node "f" .function, .edge "f" "g", .node "g" .function, .edge "g" "f"] := by rfl
    rw [← Dependencies.unambiguous_mentions_iff, hmentions]
    simp [DependencyGraph.Unambiguous, Mention.definition?]
  obtain ⟨hcalls, hdependencies⟩ := order_ignored rearranged_forwards
  obtain ⟨e, e', he, he', heq, -⟩ := hcalls hunique .reject
  exact ⟨rearranged_forwards, hunique, hkinds, ⟨e, e', he, he', heq⟩, hdependencies hkinds⟩

end CallAtlas
