import CallAtlas.Proofs.Dependencies.Walk

/-!
# The dependency graph is exact

The graph of a program holds the names that it defines, what its definitions call by a bare name or by
the name of a member, and the bases of its classes, no more and no fewer. A name that is defined has the
kind of its first definition.
-/

namespace CallAtlas

open CallAtlas.Graph Syntax Text

namespace Syntax.Node

/-- A node calls something by its bare name or by its name as a member. -/
def CallsLoosely (source : Source) (n : Node) (name : String) : Prop :=
  ∃ function, n.construct = .call function ∧
    (function.kind = .identifier ∧ function.text source = name ∨
      function.kind = .memberAccess ∧
        ∃ member, function.childWith .member = some member ∧ member.text source = name)

/-- A node defines a class and lists a name among its bases. -/
def HasBase (source : Source) (n : Node) (base name : String) : Prop :=
  ∃ identifier superclasses, n.construct = .classDefinition identifier (some superclasses) ∧
    identifier.text source = name ∧
    ∃ c ∈ superclasses.children, c.listedNamed = true ∧ c.kind = .identifier ∧ c.text source = base

/-- Of the nodes around a place the innermost one that is a definition has a name. -/
def InnermostAround (source : Source) (root : Node) (p : Place) (name : String) : Prop :=
  ∃ k < p.length,
    (∃ d kind, root.nodeAt? (p.take k) = some d ∧ d.definition? source = some (name, kind)) ∧
    ∀ j, k < j → j < p.length → ∀ m, root.nodeAt? (p.take j) = some m → m.definition? source = none

theorem looseName_callee_eq_some_iff {source : Source} {function : Node} {name : String} :
    (function.callee source).looseName = some name ↔
      function.kind = .identifier ∧ function.text source = name ∨
      function.kind = .memberAccess ∧
        ∃ member, function.childWith .member = some member ∧ member.text source = name := by
  rw [callee]
  split
  · rename_i hkind
    simp [hkind, Callee.looseName]
  · rename_i hkind
    cases function.childWith .member <;> simp [hkind, Callee.looseName]
  · rename_i hidentifier hmember
    constructor
    · exact nofun
    · rintro (⟨h, -⟩ | ⟨h, -⟩)
      · exact absurd h hidentifier
      · exact absurd h hmember

theorem mem_baseNames {source : Source} {superclasses : Node} {base : String} :
    base ∈ superclasses.baseNames source ↔
      ∃ c ∈ superclasses.children, c.listedNamed = true ∧ c.kind = .identifier ∧
        c.text source = base := by
  simp [baseNames, and_assoc]

end Syntax.Node

namespace Dependencies

/-! ## The innermost definition -/

/-- The last of the first numbers to give something gives what comes last. -/
theorem getLast?_filterMap_range {α : Type} (f : Nat → Option α) (n : Nat) (a : α) :
    ((List.range n).filterMap f).getLast? = some a ↔
      ∃ k < n, f k = some a ∧ ∀ j, k < j → j < n → f j = none := by
  induction n with
  | zero => simp
  | succ n ih =>
    rw [List.range_succ, List.filterMap_append, List.getLast?_append]
    cases hn : f n with
    | some b =>
      simp only [List.filterMap_cons, hn, List.filterMap_nil, List.getLast?_singleton,
        Option.some_or, Option.some.injEq]
      constructor
      · rintro rfl
        exact ⟨n, by omega, hn, by omega⟩
      · rintro ⟨k, hk, hka, hlast⟩
        obtain rfl | hkn := Nat.eq_or_lt_of_le (Nat.le_of_lt_succ hk)
        · exact Option.some.inj (hn.symm.trans hka)
        · rw [hlast n hkn (by omega)] at hn
          cases hn
    | none =>
      simp only [List.filterMap_cons, hn, List.filterMap_nil, List.getLast?_nil, Option.none_or, ih]
      constructor
      · rintro ⟨k, hk, hka, hlast⟩
        refine ⟨k, by omega, hka, fun j hkj hj => ?_⟩
        obtain rfl | hjn := Nat.eq_or_lt_of_le (Nat.le_of_lt_succ hj)
        · exact hn
        · exact hlast j hkj hjn
      · rintro ⟨k, hk, hka, hlast⟩
        refine ⟨k, ?_, hka, fun j hkj hj => hlast j hkj (by omega)⟩
        by_contra hkn
        obtain rfl : k = n := by omega
        rw [hn] at hka
        cases hka

theorem innermost_above_eq_some_iff {source : Source} {root : Node} {p : Place} {name : String} :
    innermost source (root.above p) = some name ↔ Node.InnermostAround source root p name := by
  rw [innermost, Node.above, List.filterMap_filterMap, getLast?_filterMap_range,
    Node.InnermostAround]
  simp only [Option.bind_eq_some_iff, Option.map_eq_some_iff, Option.bind_eq_none_iff,
    Option.map_eq_none_iff]
  refine exists_congr fun k => and_congr_right fun _ => and_congr_left fun _ => ?_
  constructor
  · rintro ⟨d, hd, ⟨_, kind⟩, hdefinition, rfl⟩
    exact ⟨d, kind, hd, hdefinition⟩
  · rintro ⟨d, kind, hd, hdefinition⟩
    exact ⟨d, hd, _, hdefinition, rfl⟩

/-! ## What is added at a place -/

section Place

variable {source : Source} {scope : Option String} {m : Node}

theorem node_mem_mentionsOf {name : String} {kind : NameKind} :
    .node name kind ∈ mentionsOf source scope m ↔ m.definition? source = some (name, kind) := by
  rw [mentionsOf, Node.definition?]
  cases m.construct with
  | function identifier isAsync => simp [eq_comm]
  | classDefinition identifier superclasses => simp [eq_comm]
  | call function => simp [Option.bind_eq_some_iff]
  | other => simp

theorem edge_mem_mentionsOf {s n : String} :
    .edge s n ∈ mentionsOf source scope m ↔
      m.HasBase source s n ∨ scope = some s ∧ m.CallsLoosely source n := by
  rw [mentionsOf, Node.HasBase, Node.CallsLoosely]
  cases m.construct with
  | function identifier isAsync => simp
  | classDefinition identifier superclasses =>
    cases superclasses with
    | none => simp
    | some superclasses => simp [Node.mem_baseNames, and_comm]
  | call function =>
    simp [← Node.looseName_callee_eq_some_iff, Option.bind_eq_some_iff]
  | other => simp

/-- The kind that a node gives a name, if it defines the name. -/
def kindBy (source : Source) (name : String) (m : Node) : Option NameKind :=
  (m.definition? source).bind fun d => if d.1 = name then some d.2 else none

theorem kindBy_eq_some_iff {name : String} {kind : NameKind} :
    kindBy source name m = some kind ↔ m.definition? source = some (name, kind) := by
  rw [kindBy, Option.bind_eq_some_iff]
  constructor
  · rintro ⟨⟨n, k⟩, hd, h⟩
    split at h
    · rename_i hn
      obtain rfl : n = name := hn
      rw [hd, ← Option.some.inj h]
    · cases h
  · intro hd
    exact ⟨_, hd, by simp⟩

theorem definedKind_mentionsOf (name : String) :
    DependencyGraph.definedKind (mentionsOf source scope m) name = kindBy source name m := by
  rw [mentionsOf, kindBy, Node.definition?, DependencyGraph.definedKind]
  cases m.construct with
  | function identifier isAsync => simp [Mention.definition?]
  | classDefinition identifier superclasses =>
    have hbases (bases : List String) : (bases.map fun base =>
        Mention.edge base (identifier.text source)).findSome? (·.definition? name) = none := by
      simp [Mention.definition?]
    rw [List.findSome?_cons, hbases]
    by_cases hn : identifier.text source = name <;> simp [Mention.definition?, hn]
  | call function =>
    -- a call adds an edge, which defines nothing
    rw [List.findSome?_eq_none_iff.2]
    · rfl
    · simp only [Option.mem_toList, Option.bind_eq_some_iff, Option.map_eq_some_iff]
      rintro _ ⟨caller, -, callee, -, rfl⟩
      rfl
  | other => simp

end Place

/-! ## What is added in a program -/

/-- What is added to the graph of a program. -/
def mentions (t : Tree) : List Mention := mentionsIn t.source [] t.root

theorem mem_mentions {t : Tree} {x : Mention} : x ∈ mentions t ↔
    ∃ p m, t.root.nodeAt? p = some m ∧
      x ∈ mentionsOf t.source (innermost t.source (t.root.above p)) m := by
  rw [mentions, mentionsIn, List.mem_flatMap]
  constructor
  · rintro ⟨p, hp, hx⟩
    obtain ⟨m, hm⟩ := Node.mem_places.1 hp
    rw [mentionsAt, hm, List.nil_append] at hx
    exact ⟨p, m, hm, hx⟩
  · rintro ⟨p, m, hm, hx⟩
    refine ⟨p, Node.mem_places.2 ⟨m, hm⟩, ?_⟩
    rw [mentionsAt, hm, List.nil_append]
    exact hx

theorem mem_edges_ofTree {t : Tree} {s n : String} : ⟨s, n⟩ ∈ (ofTree t).edges ↔
    (∃ p m, t.root.nodeAt? p = some m ∧ m.HasBase t.source s n) ∨
    ∃ p m, t.root.nodeAt? p = some m ∧ m.CallsLoosely t.source n ∧
      Node.InnermostAround t.source t.root p s := by
  rw [ofTree_eq_build, DependencyGraph.mem_edges_build]
  refine mem_mentions.trans ?_
  simp only [edge_mem_mentionsOf, innermost_above_eq_some_iff]
  constructor
  · rintro ⟨p, m, hm, hbase | ⟨hscope, hcall⟩⟩
    · exact .inl ⟨p, m, hm, hbase⟩
    · exact .inr ⟨p, m, hm, hcall, hscope⟩
  · rintro (⟨p, m, hm, hbase⟩ | ⟨p, m, hm, hcall, hscope⟩)
    · exact ⟨p, m, hm, .inl hbase⟩
    · exact ⟨p, m, hm, .inr ⟨hscope, hcall⟩⟩

/-- The kind that a place gives a name. -/
def kindAt (t : Tree) (name : String) (p : Place) : Option NameKind :=
  (t.root.nodeAt? p).bind (kindBy t.source name)

theorem kindAt_eq_some_iff {t : Tree} {name : String} {kind : NameKind} {p : Place} :
    kindAt t name p = some kind ↔
      ∃ m, t.root.nodeAt? p = some m ∧ m.definition? t.source = some (name, kind) := by
  rw [kindAt, Option.bind_eq_some_iff]
  simp only [kindBy_eq_some_iff]

theorem findSome?_flatMap {α β γ : Type} (l : List α) (f : α → List β) (g : β → Option γ) :
    (l.flatMap f).findSome? g = l.findSome? fun a => (f a).findSome? g := by
  induction l with
  | nil => rfl
  | cons a l ih =>
    rw [List.flatMap_cons, List.findSome?_append, List.findSome?_cons, ih]
    cases (f a).findSome? g <;> rfl

theorem definedKind_mentions (t : Tree) (name : String) :
    DependencyGraph.definedKind (mentions t) name = t.root.places.findSome? (kindAt t name) := by
  rw [DependencyGraph.definedKind, mentions, mentionsIn, findSome?_flatMap]
  congr 1
  funext p
  rw [mentionsAt, kindAt]
  cases t.root.nodeAt? p with
  | none => rfl
  | some m => exact definedKind_mentionsOf name

/-- The first definition of a name. -/
theorem definedKind_mentions_eq_some_iff {t : Tree} {name : String} {kind : NameKind} :
    DependencyGraph.definedKind (mentions t) name = some kind ↔
      ∃ p m, t.root.nodeAt? p = some m ∧ m.definition? t.source = some (name, kind) ∧
        IsLeast {q | ∃ k other, t.root.nodeAt? q = some k ∧
          k.definition? t.source = some (name, other)} p := by
  have hplace (q : Place) : kindAt t name q ≠ none ↔ ∃ k other, t.root.nodeAt? q = some k ∧
      k.definition? t.source = some (name, other) := by
    rw [Option.ne_none_iff_exists']
    simp only [kindAt_eq_some_iff]
    exact exists_comm
  rw [definedKind_mentions, Node.findSome?_places_eq_some_iff]
  · simp only [hplace, kindAt_eq_some_iff]
    constructor
    · rintro ⟨p, ⟨m, hm, hd⟩, hleast⟩
      exact ⟨p, m, hm, hd, hleast⟩
    · rintro ⟨p, m, hm, hd, hleast⟩
      exact ⟨p, ⟨m, hm, hd⟩, hleast⟩
  · intro p hp
    obtain ⟨m, -, hm, -⟩ := (hplace p).1 hp
    exact Node.mem_places.2 ⟨m, hm⟩

theorem definedKind_mentions_eq_none_iff {t : Tree} {name : String} :
    DependencyGraph.definedKind (mentions t) name = none ↔
      ∀ p m kind, t.root.nodeAt? p = some m → m.definition? t.source ≠ some (name, kind) := by
  rw [definedKind_mentions, List.findSome?_eq_none_iff]
  constructor
  · intro h p m kind hm hd
    have hp := h p (Node.mem_places.2 ⟨m, hm⟩)
    rw [kindAt_eq_some_iff.2 ⟨m, hm, hd⟩] at hp
    cases hp
  · intro h p _
    rw [Option.eq_none_iff_forall_ne_some]
    intro kind hkind
    obtain ⟨m, hm, hd⟩ := kindAt_eq_some_iff.1 hkind
    exact h p m kind hm hd

theorem mem_nodes_ofTree {t : Tree} {n : String} : n ∈ (ofTree t).nodes ↔
    (∃ p m kind, t.root.nodeAt? p = some m ∧ m.definition? t.source = some (n, kind)) ∨
    ∃ e ∈ (ofTree t).edges, e.source = n ∨ e.target = n := by
  rw [ofTree_eq_build, DependencyGraph.mem_nodes_build]
  constructor
  · rintro ⟨x, hx, hn⟩
    cases x with
    | node name kind =>
      obtain rfl : name = n := by simpa [Mention.names] using hn
      obtain ⟨p, m, hm, hmem⟩ := mem_mentions.1 hx
      exact .inl ⟨p, m, kind, hm, node_mem_mentionsOf.1 hmem⟩
    | edge source target =>
      refine .inr ⟨⟨source, target⟩, (DependencyGraph.mem_edges_build _ _).2 hx, ?_⟩
      simpa [Mention.names] using hn
  · rintro (⟨p, m, kind, hm, hd⟩ | ⟨e, he, hn⟩)
    · refine ⟨.node n kind, mem_mentions.2 ⟨p, m, hm, node_mem_mentionsOf.2 hd⟩, ?_⟩
      simp [Mention.names]
    · refine ⟨.edge e.source e.target, (DependencyGraph.mem_edges_build _ _).1 he, ?_⟩
      simpa [Mention.names] using hn

/-! ## Exactness -/

/-- The graph says what stands in the tree of the program and nothing else. -/
structure Exact (t : Tree) (g : DependencyGraph) : Prop where
  /-- A base leads to its class, and the innermost definition around a call to what it calls. -/
  edges : ∀ s n, ⟨s, n⟩ ∈ g.edges ↔
    (∃ p m, t.root.nodeAt? p = some m ∧ m.HasBase t.source s n) ∨
    ∃ p m, t.root.nodeAt? p = some m ∧ m.CallsLoosely t.source n ∧
      Node.InnermostAround t.source t.root p s
  nodes : ∀ n, n ∈ g.nodes ↔
    (∃ p m kind, t.root.nodeAt? p = some m ∧ m.definition? t.source = some (n, kind)) ∨
    ∃ e ∈ g.edges, e.source = n ∨ e.target = n
  /-- The first definition of a name gives it its kind. -/
  defined : ∀ n kind, kind ≠ .referenced → (g.kindOf? n = some kind ↔
    ∃ p m, t.root.nodeAt? p = some m ∧ m.definition? t.source = some (n, kind) ∧
      IsLeast {q | ∃ k other, t.root.nodeAt? q = some k ∧
        k.definition? t.source = some (n, other)} p)
  referenced : ∀ n, g.kindOf? n = some .referenced ↔ n ∈ g.nodes ∧
    ∀ p m kind, t.root.nodeAt? p = some m → m.definition? t.source ≠ some (n, kind)

/-- The dependency graph of a program has an edge from each bare name among the bases of a class to the
class and from the innermost definition around each call to what it calls, if that has a name, and no
other. Its nodes are the names that are defined and the ends of these edges. The first definition of a
name, function or class, says what the name stands for. -/
theorem dependencies_exact (t : Tree) : Exact t (ofTree t) where
  edges _ _ := mem_edges_ofTree
  nodes _ := mem_nodes_ofTree
  defined n kind hkind := by
    rw [ofTree_eq_build, DependencyGraph.kindOf?_build, ← definedKind_mentions_eq_some_iff, mentions]
    have hreferenced : ¬ (some NameKind.referenced = some kind) :=
      fun h => hkind (Option.some.inj h).symm
    cases DependencyGraph.definedKind (mentionsIn t.source [] t.root) n with
    | some _ => rfl
    | none => split <;> simp [hreferenced]
  referenced n := by
    rw [← definedKind_mentions_eq_none_iff, ofTree_eq_build]
    exact DependencyGraph.kindOf?_build_eq_referenced_iff _ n

end Dependencies

end CallAtlas
