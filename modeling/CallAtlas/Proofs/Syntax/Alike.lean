import CallAtlas.Proofs.Syntax.Place
import CallAtlas.Syntax.Construct
import Mathlib.Data.List.Forall2

/-!
# Trees that differ in comments and positions

`Alike` compares two trees node by node: each pair of nodes is the same in some respect, and their
children correspond in their order, where the second tree may lack comments of the first one. A comment
is a leaf that plays no part in its parent. Two trees whose nodes have the same kinds, fields and words
have the same constructs, callees and bases, wherever their nodes stand. When comments are taken out of a
tree and all else stays, the last token that is no comment ends where it did.
-/

namespace CallAtlas.Syntax

open Text

/-- Corresponding elements of two lists give the same list if each pair gives the same. -/
theorem map_eq_of_forall₂ {α β γ : Type} {r : α → β → Prop} {l : List α} {l' : List β}
    (h : List.Forall₂ r l l') {f : α → γ} {f' : β → γ} (hr : ∀ a b, r a b → f a = f' b) :
    l.map f = l'.map f' := by
  rw [← List.forall₂_eq_eq_eq, List.forall₂_map_left_iff, List.forall₂_map_right_iff]
  exact h.imp hr

namespace Node

/-- The node is a comment, for itself and in the list of its parent. -/
structure IsComment (n : Node) : Prop where
  kind : n.kind = .comment
  listedKind : n.listedKind = .comment
  children : n.children = []
  field : n.shape.field = none

mutual

/-- The nodes of two trees are pairwise the same in some respect, except for comments that the second
tree lacks. -/
inductive Alike (same : Node → Node → Prop) : Node → Node → Prop
  | node {n n' : Node} : same n n' → AlikeAll same n.children n'.children → Alike same n n'

/-- The nodes of some trees and some others are pairwise the same in some respect, except for comments
that the others lack. -/
inductive AlikeAll (same : Node → Node → Prop) : List Node → List Node → Prop
  | nil : AlikeAll same [] []
  | keep {c c' : Node} {cs cs' : List Node} :
      Alike same c c' → AlikeAll same cs cs' → AlikeAll same (c :: cs) (c' :: cs')
  | drop {c : Node} {cs cs' : List Node} :
      IsComment c → AlikeAll same cs cs' → AlikeAll same (c :: cs) cs'

end

/-- The text of the node says what something is called. -/
def IsWord (n : Node) : Prop :=
  n.kind = .identifier ∨ n.shape.field = some .name ∨ n.shape.field = some .member

/-- Two nodes are the same but for their positions and their children. Of their texts only words
count. -/
structure SameWord (source source' : Source) (n n' : Node) : Prop where
  kind : n'.kind = n.kind
  listedKind : n'.listedKind = n.listedKind
  listedNamed : n'.listedNamed = n.listedNamed
  field : n'.shape.field = n.shape.field
  text : n.IsWord → n'.text source' = n.text source

/-! ## Corresponding children -/

section

variable {same same' : Node → Node → Prop} {n n' : Node} {cs cs' : List Node}

theorem Alike.self (h : Alike same n n') : same n n' := by
  cases h with
  | node h _ => exact h

theorem Alike.children (h : Alike same n n') : AlikeAll same n.children n'.children := by
  cases h with
  | node _ h => exact h

theorem AlikeAll.mono (h : AlikeAll same cs cs')
    (hcs : ∀ c ∈ cs, ∀ c', Alike same c c' → Alike same' c c') : AlikeAll same' cs cs' := by
  induction cs generalizing cs' with
  | nil =>
    cases h
    exact .nil
  | cons c cs ih =>
    have hrest := fun cs' h => @ih cs' h fun d hd => hcs d (by simp [hd])
    cases h with
    | keep hc h => exact .keep (hcs c (by simp) _ hc) (hrest _ h)
    | drop hc h => exact .drop hc (hrest _ h)

theorem Alike.mono (hsame : ∀ n n', same n n' → same' n n') (h : Alike same n n') :
    Alike same' n n' := by
  induction n using induct generalizing n' with
  | h shape cs ih =>
    exact .node (hsame _ _ h.self) (h.children.mono fun c hc c' => ih c hc)

theorem alikeAll_of_forall₂ (h : List.Forall₂ (Alike same) cs cs') : AlikeAll same cs cs' := by
  induction h with
  | nil => exact .nil
  | cons hc _ ih => exact .keep hc ih

theorem alikeAll_refl (h : ∀ c ∈ cs, Alike same c c) : AlikeAll same cs cs := by
  induction cs with
  | nil => exact .nil
  | cons c cs ih => exact .keep (h c (by simp)) (ih fun d hd => h d (by simp [hd]))

theorem Alike.refl (hsame : ∀ n, same n n) (n : Node) : Alike same n n := by
  induction n using induct with
  | h shape cs ih => exact .node (hsame _) (alikeAll_refl ih)

/-- Children found by a test that no comment passes correspond. -/
theorem AlikeAll.filter (h : AlikeAll same cs cs') {test : Node → Bool}
    (hsame : ∀ {c c' : Node}, same c c' → test c' = test c)
    (hcomment : ∀ {c : Node}, IsComment c → test c = false) :
    List.Forall₂ (fun c c' => Alike same c c' ∧ test c = true)
      (cs.filter test) (cs'.filter test) := by
  induction cs generalizing cs' with
  | nil =>
    cases h
    exact .nil
  | cons c cs ih =>
    cases h with
    | keep hc h =>
      rw [List.filter_cons, List.filter_cons, hsame hc.self]
      split
      · rename_i htest
        exact .cons ⟨hc, htest⟩ (ih h)
      · exact ih h
    | drop hc h =>
      rw [List.filter_cons_of_neg (by simp [hcomment hc])]
      exact ih h

/-- What holds of one of some trees, none of them a comment, holds of one of the others. -/
theorem AlikeAll.exists_iff (h : AlikeAll same cs cs') {p p' : Node → Prop}
    (hcs : ∀ c ∈ cs, ∀ c', Alike same c c' → (p c ↔ p' c'))
    (hcomment : ∀ {c : Node}, IsComment c → ¬ p c) : (∃ c ∈ cs, p c) ↔ ∃ c' ∈ cs', p' c' := by
  induction cs generalizing cs' with
  | nil =>
    cases h
    simp
  | cons c cs ih =>
    have hrest := fun cs' h => @ih cs' h fun d hd => hcs d (by simp [hd])
    cases h with
    | keep hc h =>
      rw [List.exists_mem_cons_iff, List.exists_mem_cons_iff, hcs c (by simp) _ hc, hrest _ h]
    | drop hc h => rw [List.exists_mem_cons_iff, hrest _ h, or_iff_right (hcomment hc)]

/-- What walks find in some trees, and nothing of it in a comment, corresponds to what they find in the
others. -/
theorem AlikeAll.forall₂_flatMap {α β : Type} {r : α → β → Prop} (h : AlikeAll same cs cs')
    {f : Node → List α} {f' : Node → List β}
    (hcs : ∀ c ∈ cs, ∀ c', Alike same c c' → List.Forall₂ r (f c) (f' c'))
    (hcomment : ∀ {c : Node}, IsComment c → f c = []) :
    List.Forall₂ r (cs.flatMap f) (cs'.flatMap f') := by
  induction cs generalizing cs' with
  | nil =>
    cases h
    exact .nil
  | cons c cs ih =>
    have hrest := fun cs' h => @ih cs' h fun d hd => hcs d (by simp [hd])
    cases h with
    | keep hc h => exact List.rel_append (hcs c (by simp) _ hc) (hrest _ h)
    | drop hc h =>
      rw [List.flatMap_cons, hcomment hc]
      exact hrest _ h

/-- Walks that find nothing in a comment and the same elsewhere find the same altogether. -/
theorem AlikeAll.flatMap_eq {α : Type} (h : AlikeAll same cs cs') {f f' : Node → List α}
    (hcs : ∀ c ∈ cs, ∀ c', Alike same c c' → f c = f' c')
    (hcomment : ∀ {c : Node}, IsComment c → f c = []) : cs.flatMap f = cs'.flatMap f' := by
  rw [← List.forall₂_eq_eq_eq]
  refine h.forall₂_flatMap (fun c hc c' hcc' => ?_) hcomment
  rw [List.forall₂_eq_eq_eq]
  exact hcs c hc c' hcc'

end

end Node

/-! ## Constructs -/

/-- Two constructs with the same names, in two sources. -/
inductive Construct.Alike (source source' : Source) : Construct → Construct → Prop
  | function {name name' : Node} {isAsync : Bool} : name'.text source' = name.text source →
      Alike source source' (.function name isAsync) (.function name' isAsync)
  | classDefinition {name name' : Node} {superclasses superclasses' : Option Node} :
      name'.text source' = name.text source →
      Option.Rel (fun s s' => s'.baseNames source' = s.baseNames source) superclasses
        superclasses' →
      Alike source source' (.classDefinition name superclasses)
        (.classDefinition name' superclasses')
  | call {function function' : Node} : function'.callee source' = function.callee source →
      function'.kind = function.kind →
      (function.kind = .identifier → function'.text source' = function.text source) →
      Alike source source' (.call function) (.call function')
  | other : Alike source source' .other .other

namespace Node

section

variable {source source' : Source} {n n' : Node} {cs cs' : List Node}

theorem Alike.childWith (h : Alike (SameWord source source') n n') (f : Field) :
    Option.Rel (fun c c' => Alike (SameWord source source') c c' ∧ c.shape.field = some f)
      (n.childWith f) (n'.childWith f) := by
  have hfound : List.Forall₂ _ (n.children.filter fun c => c.shape.field == some f)
      (n'.children.filter fun c => c.shape.field == some f) :=
    h.children.filter (fun hc => by rw [hc.field]) fun hc => by rw [hc.field]; rfl
  rw [Node.childWith, Node.childWith, ← List.head?_filter, ← List.head?_filter]
  generalize n.children.filter _ = found, n'.children.filter _ = found' at hfound
  cases hfound with
  | nil => exact .none
  | cons hc _ => exact .some ⟨hc.1, beq_iff_eq.1 hc.2⟩

theorem Alike.isAsync_eq (h : Alike (SameWord source source') n n') :
    (n'.children.any (·.kind == .asyncWord)) = n.children.any (·.kind == .asyncWord) := by
  rw [Bool.eq_iff_iff, List.any_eq_true, List.any_eq_true]
  refine (h.children.exists_iff (fun c _ c' hc => ?_) fun hc => ?_).symm
  · rw [hc.self.kind]
  · rw [hc.kind]
    exact nofun

theorem Alike.baseNames_eq (h : Alike (SameWord source source') n n') :
    n'.baseNames source' = n.baseNames source := by
  have hbases : List.Forall₂ _
      (n.children.filter fun c => c.listedNamed && c.kind == .identifier)
      (n'.children.filter fun c => c.listedNamed && c.kind == .identifier) :=
    h.children.filter (fun hc => by rw [hc.listedNamed, hc.kind])
      fun hc => by rw [hc.kind]; exact Bool.and_false _
  refine (map_eq_of_forall₂ hbases fun c c' hc => ?_).symm
  have hword := (Bool.and_eq_true_iff.1 hc.2).2
  exact (hc.1.self.text (.inl (beq_iff_eq.1 hword))).symm

theorem Alike.callee_eq (h : Alike (SameWord source source') n n') :
    n'.callee source' = n.callee source := by
  have hmember := h.childWith .member
  rw [callee, callee, h.self.kind]
  generalize n.childWith .member = member, n'.childWith .member = member' at hmember
  split
  · rename_i hkind
    rw [h.self.text (.inl hkind)]
  · cases hmember with
    | none => rfl
    | some hmember => simp only [hmember.1.self.text (.inr (.inr hmember.2))]
  · rfl

theorem Alike.construct (h : Alike (SameWord source source') n n') :
    n.construct.Alike source source' n'.construct := by
  have hname := h.childWith .name
  have hsuperclasses := h.childWith .superclasses
  have hfunction := h.childWith .function
  rw [Node.construct, Node.construct, h.self.kind, h.isAsync_eq]
  generalize n.childWith .name = name, n'.childWith .name = name' at hname
  generalize n.childWith .superclasses = superclasses,
    n'.childWith .superclasses = superclasses' at hsuperclasses
  generalize n.childWith .function = function, n'.childWith .function = function' at hfunction
  split
  · cases hname with
    | none => exact .other
    | some hname => exact .function (hname.1.self.text (.inr (.inl hname.2)))
  · cases hname with
    | none => exact .other
    | some hname =>
      refine .classDefinition (hname.1.self.text (.inr (.inl hname.2))) ?_
      cases hsuperclasses with
      | none => exact .none
      | some h => exact .some h.1.baseNames_eq
  · cases hfunction with
    | none => exact .other
    | some h => exact .call h.1.callee_eq h.1.self.kind fun hkind => h.1.self.text (.inl hkind)
  · exact .other

theorem Alike.decorators {same : Node → Node → Prop} {parent parent' : Node}
    (hsame : ∀ n n', same n n' → SameWord source source' n n') (h : Alike same parent parent') :
    AlikeAll same (decorators (some parent)) (decorators (some parent')) := by
  rw [Node.decorators, Node.decorators, (hsame _ _ h.self).kind]
  split
  · refine alikeAll_of_forall₂ ((h.children.filter (fun hc => ?_) fun hc => ?_).imp
      fun _ _ => And.left)
    · rw [(hsame _ _ hc).listedNamed, (hsame _ _ hc).kind]
    · rw [hc.kind]
      exact Bool.and_false _
  · exact .nil

theorem IsComment.construct (h : n.IsComment) : n.construct = .other := by
  rw [Node.construct, h.kind]

end

/-! ## Taking comments out -/

/-- Two nodes are the same but for their children. -/
def SameShape (n n' : Node) : Prop := n'.shape = n.shape

/-- The first tree becomes the second one when some of its comments are taken out. -/
abbrev Thinned : Node → Node → Prop := Alike SameShape

/-- Some trees become others when some of the comments among and in them are taken out. -/
abbrev ThinnedAll : List Node → List Node → Prop := AlikeAll SameShape

section

variable {n n' : Node} {cs cs' : List Node}

theorem SameShape.sameWord {source : Source} (h : SameShape n n') : SameWord source source n n' where
  kind := congrArg Shape.kind h
  listedKind := congrArg Shape.listedKind h
  listedNamed := congrArg Shape.listedNamed h
  field := congrArg Shape.field h
  text _ := by rw [Node.text, Node.text, start, stop, start, stop, h]

theorem Thinned.sameWord (h : Thinned n n') (source : Source) :
    Alike (SameWord source source) n n' :=
  h.mono fun _ _ => SameShape.sameWord

theorem Thinned.refl (n : Node) : Thinned n n := Alike.refl (fun _ => Eq.refl (shape _)) n

theorem ThinnedAll.all_comments (h : ThinnedAll cs cs') :
    cs'.all (·.listedKind == .comment) = cs.all (·.listedKind == .comment) := by
  induction cs generalizing cs' with
  | nil =>
    cases h
    rfl
  | cons c cs ih =>
    cases h with
    | keep hc h =>
      rw [List.all_cons, List.all_cons, listedKind, listedKind, hc.self, ih h]
    | drop hc h => simp [hc.listedKind, ih h]

theorem ThinnedAll.stop_lastCodeTokenAmong (h : ThinnedAll cs cs') {fallback fallback' : Node}
    (hfallback : fallback'.stop = fallback.stop)
    (hcs : ∀ c ∈ cs, ∀ c', Thinned c c' → c'.lastCodeToken.stop = c.lastCodeToken.stop) :
    (lastCodeTokenAmong fallback' cs').stop = (lastCodeTokenAmong fallback cs).stop := by
  induction cs generalizing cs' with
  | nil =>
    cases h
    exact hfallback
  | cons c cs ih =>
    have hrest := fun cs' h => @ih cs' h fun d hd => hcs d (by simp [hd])
    cases h with
    | keep hc h =>
      rw [lastCodeTokenAmong, lastCodeTokenAmong, ThinnedAll.all_comments h, listedKind, listedKind,
        hc.self]
      split
      · exact hcs c (by simp) _ hc
      · exact hrest _ h
    | drop hc h =>
      rw [lastCodeTokenAmong, hc.listedKind]
      exact hrest _ h

/-- Comments do not count for the end of the last token. -/
theorem Thinned.stop_lastCodeToken (h : Thinned n n') :
    n'.lastCodeToken.stop = n.lastCodeToken.stop := by
  induction n using induct generalizing n' with
  | h shape cs ih =>
    obtain ⟨shape', cs'⟩ := n'
    rw [lastCodeToken, lastCodeToken]
    exact ThinnedAll.stop_lastCodeTokenAmong h.children (congrArg Shape.stop h.self)
      fun c hc c' => ih c hc

end

end Node

end CallAtlas.Syntax
