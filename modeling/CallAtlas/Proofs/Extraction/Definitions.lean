import CallAtlas.Extraction
import CallAtlas.Proofs.Syntax.Place
import Mathlib.Data.List.Forall2

/-!
# The definitions that are found

The first walk through a tree finds a definition at each place where a function is defined, in the order
of the places. Its depth is the number of definitions around it, and its decorators are those of the
node that holds it.
-/

namespace CallAtlas.Syntax.Node

/-- Whether the node defines a function. -/
def definesFunction (n : Node) : Bool :=
  match n.construct with
  | .function .. => true
  | _ => false

/-- A node decorates the definition at a place. -/
def Decorates (root : Node) (p : Place) (decorator : Node) : Prop :=
  ∃ q i parent, p = q ++ [i] ∧ root.nodeAt? q = some parent ∧
    parent.kind = .decoratedDefinition ∧ decorator ∈ parent.children ∧
    decorator.listedNamed = true ∧ decorator.kind = .decorator

theorem mem_decorators_iff {root m d : Node} {p : Place} (hp : root.nodeAt? p = some m) :
    d ∈ decorators (root.above p).getLast? ↔ Decorates root p d := by
  rcases List.eq_nil_or_concat p with rfl | ⟨q, i, rfl⟩
  · simp [above_nil, decorators, Decorates]
  · rw [List.concat_eq_append] at hp ⊢
    obtain ⟨parent, hparent⟩ := nodeAt?_of_append hp
    rw [above_concat, hparent, Option.toList_some, List.getLast?_concat, decorators]
    constructor
    · intro hd
      split at hd
      · rename_i hkind
        obtain ⟨hmem, hnamed⟩ := List.mem_filter.1 hd
        simp only [Bool.and_eq_true, beq_iff_eq] at hkind hnamed
        exact ⟨q, i, parent, rfl, hparent, hkind, hmem, hnamed⟩
      · cases hd
    · rintro ⟨q', i', parent', heq, hparent', hkind, hmem, hnamed⟩
      obtain ⟨rfl, -⟩ := List.append_inj' heq rfl
      obtain rfl := Option.some.inj (hparent.symm.trans hparent')
      simp [hkind, hmem, hnamed]

end CallAtlas.Syntax.Node

namespace CallAtlas.Extraction

open Syntax Text

/-- A record describes the definition at a place. -/
def Records (t : Tree) (p : Place) (r : FunctionRecord) : Prop :=
  ∃ definition identifier isAsync, t.root.nodeAt? p = some definition ∧
    definition.construct = .function identifier isAsync ∧
    r.name = identifier.text t.source ∧ r.isAsync = isAsync ∧
    r.depth = (t.root.above p).countP Node.definesFunction

/-! ## The first walk -/

/-- The definition at a place of a tree. `around` are the nodes around the tree, from the outermost
inwards. -/
def definitionAt (source : Source) (around : List Node) (n : Node) (p : Place) :
    Option Definition :=
  match n.nodeAt? p with
  | none => none
  | some m =>
    match m.construct with
    | .function name isAsync =>
      some
        { node := m
          decorators := Node.decorators (around ++ n.above p).getLast?
          record := recordOf source m name isAsync
            ((around ++ n.above p).countP Node.definesFunction) }
    | _ => none

theorem definitionAt_cons {source : Source} {around : List Node} {n c : Node} {i : Nat}
    (h : n.children[i]? = some c) (p : Place) :
    definitionAt source around n (i :: p) = definitionAt source (around ++ [n]) c p := by
  rw [definitionAt, definitionAt, Node.nodeAt?_cons h, Node.above_cons h, List.append_cons]

/-- What a walk finds in a tree. -/
def definitionsIn (source : Source) (around : List Node) (n : Node) : List Definition :=
  n.places.filterMap (definitionAt source around n)

theorem definitionsIn_eq (source : Source) (around : List Node) (n : Node) :
    definitionsIn source around n = (definitionAt source around n []).toList ++
      n.children.flatMap (definitionsIn source (around ++ [n])) :=
  Node.filterMap_places fun _ _ hc p => definitionAt_cons hc p

theorem collectAll_toList {source : Source} {depth : Nat} {parent : Node} {around : List Node}
    {cs : List Node}
    (h : ∀ c ∈ cs, ∀ found, (collect source depth (some parent) c found).toList =
      found.toList ++ definitionsIn source around c)
    (found : Array Definition) :
    (collectAll source depth parent cs found).toList =
      found.toList ++ cs.flatMap (definitionsIn source around) := by
  induction cs generalizing found with
  | nil => simp [collectAll]
  | cons c cs ih =>
    rw [collectAll, ih (fun d hd => h d (by simp [hd])), h c (by simp), List.flatMap_cons,
      List.append_assoc]

theorem collect_toList (source : Source) (n : Node) : ∀ around found,
    (collect source (around.countP Node.definesFunction) around.getLast? n found).toList =
      found.toList ++ definitionsIn source around n := by
  induction n using Node.induct with
  | h shape children ih =>
    intro around found
    -- The children have one more node around them, which counts if it defines a function.
    have hchildren : ∀ found', (collectAll source
        ((around ++ [Node.node shape children]).countP Node.definesFunction)
        (.node shape children) children found').toList =
        found'.toList ++ children.flatMap
          (definitionsIn source (around ++ [Node.node shape children])) := by
      refine collectAll_toList fun c hc found' => ?_
      have hinside := ih c hc (around ++ [.node shape children]) found'
      rwa [List.getLast?_concat] at hinside
    rw [definitionsIn_eq, definitionAt, Node.nodeAt?_nil, Node.above_nil, List.append_nil, collect]
    rw [List.countP_append, List.countP_singleton, Node.definesFunction] at hchildren
    cases hc : (Node.node shape children).construct with
    | function name isAsync =>
      simp only [hc, if_true] at hchildren ⊢
      rw [hchildren, Array.toList_push, List.append_assoc]
      rfl
    | classDefinition _ _ | call _ | other =>
      simp only [hc, Bool.false_eq_true, if_false, Nat.add_zero] at hchildren ⊢
      exact hchildren found

/-! ## The definitions of a program -/

/-- The definition at a place of a program. -/
def definitionOf (t : Tree) (p : Place) : Option Definition := definitionAt t.source [] t.root p

theorem definitions_eq (t : Tree) : definitions t = t.root.places.filterMap (definitionOf t) := by
  have hall := collect_toList t.source t.root [] #[]
  simp only [List.countP_nil, List.getLast?_nil, List.nil_append] at hall
  exact hall

/-- The definition that a node makes at a place. -/
def definitionBy (t : Tree) (p : Place) (m name : Node) (isAsync : Bool) : Definition where
  node := m
  decorators := Node.decorators (t.root.above p).getLast?
  record := recordOf t.source m name isAsync ((t.root.above p).countP Node.definesFunction)

@[simp] theorem name_definitionBy (t : Tree) (p : Place) (m name : Node) (isAsync : Bool) :
    (definitionBy t p m name isAsync).record.name = name.text t.source := by
  rw [definitionBy, recordOf]

section Place

variable {t : Tree} {p : Place}

theorem definitionOf_of_construct {m name : Node} {isAsync : Bool}
    (hm : t.root.nodeAt? p = some m) (hc : m.construct = .function name isAsync) :
    definitionOf t p = some (definitionBy t p m name isAsync) := by
  simp only [definitionOf, definitionAt, hm, hc, List.nil_append, definitionBy]

theorem exists_of_definitionOf {d : Definition} (h : definitionOf t p = some d) :
    ∃ m name isAsync, t.root.nodeAt? p = some m ∧ m.construct = .function name isAsync ∧
      d = definitionBy t p m name isAsync := by
  cases hm : t.root.nodeAt? p with
  | none =>
    rw [definitionOf, definitionAt, hm] at h
    cases h
  | some m =>
    cases hc : m.construct with
    | function name isAsync =>
      rw [definitionOf_of_construct hm hc] at h
      exact ⟨m, name, isAsync, rfl, hc, (Option.some.inj h).symm⟩
    | classDefinition _ _ | call _ | other => simp [definitionOf, definitionAt, hm, hc] at h

theorem definitionOf_isSome_iff : (definitionOf t p).isSome = true ↔
    ∃ definition identifier isAsync, t.root.nodeAt? p = some definition ∧
      definition.construct = .function identifier isAsync := by
  rw [Option.isSome_iff_exists]
  constructor
  · rintro ⟨d, hd⟩
    obtain ⟨m, name, isAsync, hm, hc, -⟩ := exists_of_definitionOf hd
    exact ⟨m, name, isAsync, hm, hc⟩
  · rintro ⟨m, name, isAsync, hm, hc⟩
    exact ⟨_, definitionOf_of_construct hm hc⟩

theorem records_of_definitionOf {d : Definition} (h : definitionOf t p = some d) :
    Records t p d.record := by
  obtain ⟨m, name, isAsync, hm, hc, rfl⟩ := exists_of_definitionOf h
  exact ⟨m, name, isAsync, hm, hc, name_definitionBy .., rfl, rfl⟩

end Place

theorem forall₂_filterMap {α β : Type} (f : α → Option β) (l : List α) :
    List.Forall₂ (fun a b => f a = some b) (l.filter fun a => (f a).isSome) (l.filterMap f) := by
  induction l with
  | nil => exact .nil
  | cons a l ih =>
    cases h : f a with
    | none => simpa [h] using ih
    | some b => simpa [h] using ih

/-- The places where functions are defined. -/
def placesOfDefinitions (t : Tree) : List Place :=
  t.root.places.filter fun p => (definitionOf t p).isSome

theorem placesOfDefinitions_ascending (t : Tree) :
    (placesOfDefinitions t).Pairwise (· < ·) :=
  t.root.places_ascending.filter _

theorem mem_placesOfDefinitions {t : Tree} {p : Place} : p ∈ placesOfDefinitions t ↔
    ∃ definition identifier isAsync, t.root.nodeAt? p = some definition ∧
      definition.construct = .function identifier isAsync := by
  rw [placesOfDefinitions, List.mem_filter, definitionOf_isSome_iff, Node.mem_places]
  constructor
  · exact And.right
  · rintro ⟨m, name, isAsync, hm, hc⟩
    exact ⟨⟨m, hm⟩, m, name, isAsync, hm, hc⟩

theorem forall₂_definitions (t : Tree) :
    List.Forall₂ (fun p d => definitionOf t p = some d) (placesOfDefinitions t) (definitions t) := by
  rw [definitions_eq]
  exact forall₂_filterMap (definitionOf t) _

/-- There is one record for each definition of a function, in the order of the text. -/
theorem exists_places_records (t : Tree) : ∃ places : List Place, places.Pairwise (· < ·) ∧
    (∀ p, p ∈ places ↔ ∃ definition identifier isAsync, t.root.nodeAt? p = some definition ∧
      definition.construct = .function identifier isAsync) ∧
    List.Forall₂ (Records t) places ((definitions t).map (·.record)) := by
  refine ⟨placesOfDefinitions t, placesOfDefinitions_ascending t,
    fun p => mem_placesOfDefinitions, ?_⟩
  rw [List.forall₂_map_right_iff]
  exact (forall₂_definitions t).imp fun _ _ h => records_of_definitionOf h

end CallAtlas.Extraction
