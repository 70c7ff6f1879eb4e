import CallAtlas.Proofs.Dependencies.Alike
import CallAtlas.Proofs.Extraction.Alike
import CallAtlas.Proofs.Extraction.Duplicates

/-!
# Comments do not count

None of the three walks through a tree finds anything in a comment, and what they find elsewhere does
not depend on the comments around. So a program with fewer comments in its tree has the same functions,
the same calls and the same dependencies, as long as the parents of the comments list them as comments.
-/

namespace CallAtlas

open CallAtlas.Graph Syntax Text

namespace Extraction

/-- What counts of a definition: its record and its callees. -/
def entry (source : Source) (known : CallSet) (d : Definition) : FunctionRecord × NameSet :=
  (d.record, calleesOf source known d)

theorem recordOf_of_thinned {source : Source} {n n' name name' : Node} (h : n.Thinned n')
    (hname : name'.text source = name.text source) (isAsync : Bool) (depth : Nat) :
    recordOf source n' name' isAsync depth = recordOf source n name isAsync depth := by
  have hstart : n'.start = n.start := congrArg Shape.start h.self
  simp only [recordOf, lastRow, linesOf, hname, hstart, Node.Thinned.stop_lastCodeToken h]

theorem entry_of_thinned {source : Source} {d d' : Definition}
    (h : d.Alike Node.SameShape source source d') (known : CallSet) :
    entry source known d' = entry source known d := by
  obtain ⟨name, name', isAsync, depth, htext, hd, hd'⟩ := h.record
  rw [entry, entry, h.calleesOf_eq (fun _ _ => Node.SameShape.sameWord), hd, hd',
    recordOf_of_thinned h.node htext]

/-- The extraction of a program is given by the records and the callees of its definitions. -/
theorem ofTree_of_entries {t t' : Tree} (hsource : t'.source = t.source)
    (h : ∀ known, (definitions t').map (entry t.source known) =
      (definitions t).map (entry t.source known)) (policy : DuplicatePolicy) :
    ofTree policy t' = ofTree policy t := by
  have hrecords : (definitions t').map (·.record) = (definitions t).map (·.record) := by
    have hmap := congrArg (List.map Prod.fst) (h .empty)
    rwa [List.map_map, List.map_map] at hmap
  have hknown : known t' = known t := by
    have hfold (u : Tree) : known u =
        ((definitions u).map (·.record)).foldl (fun c r => c.insertFunction r.name) .empty := by
      rw [known, List.foldl_map]
    rw [hfold, hfold, hrecords]
  have hresolved : resolved t' = resolved t := by
    rw [resolved, resolved, hknown, hsource]
    exact h (known t)
  rw [ofTree_eq, ofTree_eq, hresolved, hknown, hrecords, hsource]

theorem ofTree_of_thinned {t : Tree} {root : Node} (h : t.root.Thinned root)
    (policy : DuplicatePolicy) : ofTree policy { t with root } = ofTree policy t := by
  have hsource : ({ t with root } : Tree).source = t.source := rfl
  refine ofTree_of_entries hsource (fun known => ?_) policy
  have halike : List.Forall₂ (Definition.Alike Node.SameShape t.source t.source) (definitions t)
      (definitions { t with root }) := by
    rw [definitions_eq, definitions_eq]
    exact forall₂_definitionsIn (fun _ _ => Node.SameShape.sameWord) h rfl .nil
  exact (map_eq_of_forall₂ halike fun d d' hd => (entry_of_thinned hd known).symm).symm

end Extraction

theorem Dependencies.ofTree_of_thinned {t : Tree} {root : Node} (h : t.root.Thinned root) :
    ofTree { t with root } = ofTree t := by
  rw [ofTree_eq_build, ofTree_eq_build,
    mentionsIn_eq_of_alike (Node.Thinned.sameWord h t.source) rfl]

/-- Taking any comments out of the tree of a program, be it accepted or refused for a repeated name,
leaves its functions with their lines and texts, its calls, and its dependencies as they are. -/
theorem comments_ignored {t : Tree} {root : Node} (h : t.root.Thinned root)
    (policy : DuplicatePolicy) :
    Extraction.ofTree policy { t with root } = Extraction.ofTree policy t ∧
      Dependencies.ofTree { t with root } = Dependencies.ofTree t :=
  ⟨Extraction.ofTree_of_thinned h policy, Dependencies.ofTree_of_thinned h⟩

/-! ## A comment that counts -/

/-- A comment on the second line of a function. -/
def secondLine (listedKind : Kind) : Node :=
  .node { kind := .comment, named := true, listedKind, start := ⟨16, 1, 0⟩, stop := ⟨25, 1, 9⟩ } []

/-- The tree of a function with its body on the first line, which goes on with some comments on the
second one. Words and signs without a part of their own are left out. -/
def continuedProgram (comments : List Node) : Tree where
  source := .ofText "def f(): pass \\\n# comment\n"
  root :=
    let inner (kind : Kind) (start stop : Text.Position) (children : List Node) : Node :=
      .node { kind, named := true, start, stop } children
    inner (.other "module") ⟨0, 0, 0⟩ ⟨26, 2, 0⟩
      [inner .functionDefinition ⟨0, 0, 0⟩ ⟨25, 1, 9⟩
        [.node { kind := .identifier, named := true, field := some .name, start := ⟨4, 0, 4⟩,
                 stop := ⟨5, 0, 5⟩ } [],
          inner .block ⟨9, 0, 9⟩ ⟨25, 1, 9⟩
            (inner (.other "pass_statement") ⟨9, 0, 9⟩ ⟨13, 0, 13⟩
                [inner (.other "pass") ⟨9, 0, 9⟩ ⟨13, 0, 13⟩ []] ::
              .node { kind := .other "line_continuation", named := true, listedKind := .block,
                      start := ⟨14, 0, 14⟩, stop := ⟨16, 1, 0⟩ } [] ::
              comments)]]

theorem comments_ignored_continuedProgram :
    (continuedProgram [secondLine .comment]).root.Thinned (continuedProgram []).root ∧
      Extraction.ofTree .reject (continuedProgram []) =
        Extraction.ofTree .reject (continuedProgram [secondLine .comment]) ∧
      Dependencies.ofTree (continuedProgram []) =
        Dependencies.ofTree (continuedProgram [secondLine .comment]) := by
  have hcomment : (secondLine .comment).IsComment := ⟨rfl, rfl, rfl, rfl⟩
  have hbody : Node.ThinnedAll [secondLine .comment] [] := .drop hcomment .nil
  have h : (continuedProgram [secondLine .comment]).root.Thinned (continuedProgram []).root :=
    .node rfl (.keep (.node rfl (.keep (Node.Thinned.refl _) (.keep (.node rfl
      (.keep (Node.Thinned.refl _) (.keep (Node.Thinned.refl _) hbody))) .nil))) .nil)
  exact ⟨h, comments_ignored h .reject⟩

/-- A comment that its parent lists under another name is not passed over: here it moves the end of the
function to its own line. -/
theorem listed_comment_moves_end : (secondLine .block).kind = .comment ∧
    (secondLine .block).children = [] ∧ (secondLine .block).shape.field = none ∧
    ∃ e e', Extraction.ofTree .lastWins (continuedProgram [secondLine .block]) = .ok e ∧
      Extraction.ofTree .lastWins (continuedProgram []) = .ok e' ∧
      e.functions.map (·.endLine) = [2] ∧ e'.functions.map (·.endLine) = [1] := by
  have hpolicy : DuplicatePolicy.lastWins ≠ .reject := nofun
  obtain ⟨calls, hcalls, -⟩ :=
    Extraction.assignCalls_exact hpolicy (continuedProgram [secondLine .block])
  obtain ⟨calls', hcalls', -⟩ := Extraction.assignCalls_exact hpolicy (continuedProgram [])
  exact ⟨rfl, rfl, rfl, _, _, Extraction.ofTree_of_assignCalls hcalls,
    Extraction.ofTree_of_assignCalls hcalls', rfl, rfl⟩

end CallAtlas
