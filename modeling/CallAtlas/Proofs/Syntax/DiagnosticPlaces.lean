import CallAtlas.Proofs.Syntax.Errors
import CallAtlas.Proofs.Text.Places

/-!
# Where diagnostics point

The line and the column of a diagnostic are those of a place in the source, wherever the diagnostic was
made: that of a node, or the first character after an empty block that is not blank.
-/

namespace CallAtlas.Syntax

open Text

/-- The positions of the nodes agree with the source. -/
def Node.Placed (root : Node) (source : Source) : Prop :=
  ∀ m, Within m root → source.Locates m.start ∧ source.Locates m.stop

/-- What a diagnostic says of its place. It points at a place of the source; if it asks for an indented
block, the place is that of the first character that is not blank at or behind the end of the first node
that is forbidden, a block without statements, or the end of the source. -/
structure Diagnostic.Placed (d : Diagnostic) (root : Node) (source : Source) (place : Nat) : Prop where
  pointsAt : source.PointsAt d.line d.column place
  afterBlock : d.message = "expected an indented block" → ∃ p m, root.nodeAt? p = some m ∧
    m.kind = .block ∧ IsLeast {q | ∃ k, root.nodeAt? q = some k ∧ k.Forbidden} p ∧
    source.FirstNotBlank m.stop.byte place

section

variable {root m : Node} {source : Source} {d : Diagnostic} {complaint : Complaint}

@[simp] theorem Diagnostic.complaint_atNode (m : Node) (complaint : Complaint) :
    (atNode m complaint).complaint = complaint := rfl

theorem Diagnostic.placed_atNode (h : root.Placed source) (hm : Node.Within m root)
    (hcomplaint : complaint ≠ .expectedBlock) :
    (atNode m complaint).Placed root source m.start.byte where
  pointsAt := (h m hm).1.pointsAt
  afterBlock hmessage :=
    absurd ((Complaint.message_eq_expectedBlock_iff complaint).1 hmessage) hcomplaint

theorem Node.complaint_ne_of_ownError (h : m.ownError listedKind source = some d) :
    d = .atNode m d.complaint ∧ d.complaint ≠ .expectedBlock := by
  rw [ownError] at h
  split at h
  · cases h
    exact ⟨rfl, by simp⟩
  · obtain ⟨-, heq⟩ := Option.ite_none_right_eq_some.1 h
    cases heq
    exact ⟨rfl, by simp⟩

/-- The diagnostic of a tree with errors is that of a node. -/
theorem Diagnostic.placed_of_hasError (h : root.Placed source) :
    ∃ place, ((root.firstError source).getD (.atNode root .invalid)).Placed root source place := by
  cases hfirst : root.firstError source with
  | none => exact ⟨_, placed_atNode h ⟨[], rfl⟩ (by simp)⟩
  | some d =>
    obtain ⟨m, hm, hown⟩ := Node.exists_ownError hfirst
    obtain ⟨hd, hcomplaint⟩ := Node.complaint_ne_of_ownError hown
    rw [Option.getD_some, hd]
    exact ⟨_, placed_atNode h hm hcomplaint⟩

/-- The diagnostic of a forbidden node is that of the node or of what comes after it. -/
theorem Diagnostic.placed_of_names (h : root.Placed source) {p : Place}
    (hm : root.nodeAt? p = some m) (hnames : d.Names source m)
    (hleast : IsLeast {q | ∃ k, root.nodeAt? q = some k ∧ k.Forbidden} p) :
    ∃ place, d.Placed root source place := by
  rw [Names] at hnames
  split at hnames
  · rename_i hblock
    have hplace := Source.firstNotBlank_skipBlanks (h m ⟨p, hm⟩).2.between
    refine ⟨source.skipBlanks m.stop.byte, ?_, fun _ => ⟨p, m, hm, hblock, hleast, hplace⟩⟩
    rw [hnames]
    exact Source.pointsAt_of_isValid hplace.isValid
  · rw [hnames]
    exact ⟨_, placed_atNode h ⟨p, hm⟩ (by simp)⟩

end

namespace Tree

/-- Every diagnostic of a refused program points at a place of the source, if the positions of the nodes
agree with the source; one that asks for an indented block points at what stands where the block should
be. -/
theorem diagnostic_placed {grammar : Grammar} {settings : ParsingSettings} {source : Source}
    {root : Node} {d : Diagnostic} (h : grammar source = some root) (hplaced : root.Placed source)
    (hparse : parse grammar settings source = .error (.syntaxError d)) :
    ∃ place, d.Placed root source place := by
  have hfault := fault_of_parse h hparse
  cases hmark : root.hasError with
  | true =>
    rw [fault, if_pos hmark, Option.some.injEq, Failure.syntaxError.injEq] at hfault
    rw [← hfault]
    exact Diagnostic.placed_of_hasError hplaced
  | false =>
    obtain ⟨p, m, hm, hnames, hleast⟩ := names_of_fault hmark hfault
    exact Diagnostic.placed_of_names hplaced hm hnames hleast

/-- The program `def é():` with a comment in place of its block, two lines below. -/
def commentedOut : Tree where
  source := .ofText "def é():\n\n  # é\n"
  root :=
    let word (text : String) (start stop : Position) : Node :=
      .node { kind := .other text, named := false, start, stop } []
    let inner (kind : Kind) (field : Option Field) (start stop : Position) (children : List Node) :
        Node := .node { kind, named := true, field, start, stop } children
    inner (.other "module") none ⟨0, 0, 0⟩ ⟨18, 3, 0⟩
      [inner .functionDefinition none ⟨0, 0, 0⟩ ⟨9, 0, 9⟩
        [word "def" ⟨0, 0, 0⟩ ⟨3, 0, 3⟩,
          inner .identifier (some .name) ⟨4, 0, 4⟩ ⟨6, 0, 6⟩ [],
          inner (.other "parameters") (some (.other "parameters")) ⟨6, 0, 6⟩ ⟨8, 0, 8⟩
            [word "(" ⟨6, 0, 6⟩ ⟨7, 0, 7⟩, word ")" ⟨7, 0, 7⟩ ⟨8, 0, 8⟩],
          word ":" ⟨8, 0, 8⟩ ⟨9, 0, 9⟩,
          inner .block (some (.other "body")) ⟨9, 0, 9⟩ ⟨9, 0, 9⟩ []],
        inner .comment none ⟨13, 2, 2⟩ ⟨17, 2, 6⟩ []]

theorem placed_commentedOut : commentedOut.root.Placed commentedOut.source := by
  have hplaced : ∀ m ∈ commentedOut.root.preorder,
      commentedOut.source.Locates m.start ∧ commentedOut.source.Locates m.stop := by decide
  simpa only [Node.Placed, Node.mem_preorder] using hplaced

/-- The block is asked for where the comment begins, behind an empty line and letters of two bytes. -/
theorem diagnostic_placed_commentedOut : commentedOut.root.Placed commentedOut.source ∧
    parse (fun _ => some commentedOut.root) {} commentedOut.source =
      .error (.syntaxError ⟨.expectedBlock, 3, 3⟩) ∧
    Diagnostic.Placed ⟨.expectedBlock, 3, 3⟩ commentedOut.root commentedOut.source 13 := by
  have hparse : parse (fun _ => some commentedOut.root) {} commentedOut.source =
      .error (.syntaxError ⟨.expectedBlock, 3, 3⟩) := by
    have hsize : ¬ commentedOut.source.size > ({} : ParsingSettings).maxFileSize := by decide
    have hrefusal : commentedOut.refusal {} = some (.syntaxError ⟨.expectedBlock, 3, 3⟩) := by
      decide +kernel
    rw [parse, if_neg hsize]
    dsimp only
    rw [hrefusal]
  have hgrammar : (fun _ => some commentedOut.root : Grammar) commentedOut.source =
      some commentedOut.root := rfl
  obtain ⟨place, hplace⟩ := diagnostic_placed hgrammar placed_commentedOut hparse
  have hbyte : place = 13 := hplace.pointsAt.offset.trans (by decide +kernel)
  exact ⟨placed_commentedOut, hparse, hbyte ▸ hplace⟩

end Tree

end CallAtlas.Syntax
