import CallAtlas.Dependencies
import CallAtlas.Extraction
import CallAtlas.Proofs.Syntax.Search

/-!
# Which programs are accepted

A program is refused for its size, for the depth of its tree, for the errors in the tree and for what
the language forbids, in this order, and for nothing else. The limits decide only whether the tree is
looked at: two runs that get past them end in the same way.
-/

namespace CallAtlas.Syntax

open Text

/-! ## What the language forbids -/

/-- The node is a statement of the language's older version, or a block that lists nothing but comments
under a name. -/
def Node.Forbidden (n : Node) : Prop :=
  n.kind = .printStatement ∨ n.kind = .execStatement ∨
    n.kind = .block ∧ ∀ c ∈ n.children, c.listedNamed = true → c.listedKind = .comment

/-- The diagnostic for an old statement: its keyword, and where it begins. -/
def Diagnostic.ofOldStatement (source : Source) (n : Node) : Diagnostic :=
  .atNode n (.missingParentheses ((n.children.head?.map (·.text source)).getD "print"))

/-- The diagnostic says what is wrong with a forbidden node. An empty block is reported at the first
character after it that is not blank. -/
def Diagnostic.Names (d : Diagnostic) (source : Source) (n : Node) : Prop :=
  if n.kind = .block then d = .afterPlace source n.stop.byte .expectedBlock
  else d = .ofOldStatement source n

namespace Node

theorem hasStatement_eq_false_iff (n : Node) : n.hasStatement = false ↔
    ∀ c ∈ n.children, c.listedNamed = true → c.listedKind = .comment := by
  simp [hasStatement]

theorem invalidity_eq (source : Source) (n : Node) : n.invalidity source =
    if n.kind = .printStatement ∨ n.kind = .execStatement then some (.ofOldStatement source n)
    else if n.kind = .block ∧ n.hasStatement = false then
      some (.afterPlace source n.stop.byte .expectedBlock)
    else none := by
  rw [invalidity, Diagnostic.ofOldStatement]
  split
  · rename_i hkind
    rw [if_pos (.inl hkind)]
    cases n.children <;> simp
  · rename_i hkind
    rw [if_pos (.inr hkind)]
    cases n.children <;> simp
  · rename_i hkind
    have hnew : ¬ (n.kind = .printStatement ∨ n.kind = .execStatement) := by simp [hkind]
    rw [if_neg hnew]
    cases n.hasStatement <;> simp [hkind]
  · rename_i hprint hexec hblock
    rw [if_neg (not_or.2 ⟨hprint, hexec⟩), if_neg fun h => hblock h.1]

theorem invalidity_ne_none_iff (source : Source) (n : Node) :
    n.invalidity source ≠ none ↔ n.Forbidden := by
  rw [invalidity_eq, Forbidden, ← hasStatement_eq_false_iff, ← or_assoc]
  split
  · rename_i hold
    simp [hold]
  · rename_i hold
    rw [or_iff_right hold]
    split
    · rename_i hblock
      simp [hblock]
    · rename_i hblock
      simp [hblock]

theorem names_of_invalidity {source : Source} {n : Node} {d : Diagnostic}
    (h : n.invalidity source = some d) : d.Names source n := by
  rw [invalidity_eq] at h
  rw [Diagnostic.Names]
  split at h
  · rename_i hold
    have hkind : n.kind ≠ .block := by
      rcases hold with hkind | hkind <;> simp [hkind]
    rw [if_neg hkind]
    exact (Option.some.inj h).symm
  · split at h
    · rename_i hblock
      rw [if_pos hblock.1]
      exact (Option.some.inj h).symm
    · cases h

/-! ## The two searches -/

section Searches

variable {root : Node}

theorem deeperThan_eq_none_iff {limit : Nat} :
    root.deeperThan limit = none ↔ ∀ p m, root.nodeAt? p = some m → p.length ≤ limit := by
  rw [deeperThan, search_eq_none_iff]
  simp

theorem line_of_deeperThan {limit line : Nat} (h : root.deeperThan limit = some line) :
    ∃ p m, root.nodeAt? p = some m ∧ line = m.start.row + 1 ∧
      IsLeast {q | limit < q.length ∧ ∃ k, root.nodeAt? q = some k} p := by
  rw [deeperThan, search_eq_some_iff] at h
  obtain ⟨p, m, hm, hline, hleast⟩ := h
  refine ⟨p, m, hm, ?_, ?_⟩
  · split at hline
    · exact (Option.some.inj hline).symm
    · cases hline
  · convert hleast using 3 with q
    simp [and_comm]

theorem firstInvalid_eq_none_iff {source : Source} :
    root.firstInvalid source = none ↔ ∀ p m, root.nodeAt? p = some m → ¬ m.Forbidden := by
  rw [firstInvalid, search_eq_none_iff]
  simp only [← invalidity_ne_none_iff source, not_not]

theorem names_of_firstInvalid {source : Source} {d : Diagnostic}
    (h : root.firstInvalid source = some d) :
    ∃ p m, root.nodeAt? p = some m ∧ d.Names source m ∧
      IsLeast {q | ∃ k, root.nodeAt? q = some k ∧ k.Forbidden} p := by
  rw [firstInvalid, search_eq_some_iff] at h
  obtain ⟨p, m, hm, hd, hleast⟩ := h
  simp only [invalidity_ne_none_iff] at hleast
  exact ⟨p, m, hm, names_of_invalidity hd, hleast⟩

end Searches

end Node

/-! ## The verdict -/

namespace Tree

/-- A verdict on a program with a tree is the one that the settings ask for. -/
structure Judged (settings : ParsingSettings) (source : Source) (root : Node)
    (verdict : Except Failure Tree) : Prop where
  /-- The size is judged first. -/
  tooLarge : ∀ size limit, verdict = .error (.inputTooLarge size limit) ↔
    size = source.text.utf8ByteSize ∧ limit = settings.maxFileSize ∧ limit < size
  tooDeep : source.text.utf8ByteSize ≤ settings.maxFileSize →
    ((∃ line limit, verdict = .error (.nestingTooDeep line limit)) ↔
      ∃ p m, root.nodeAt? p = some m ∧ settings.maxDepth < p.length)
  /-- The line is that of the first node that is too deep. -/
  tooDeepLine : ∀ line limit, verdict = .error (.nestingTooDeep line limit) →
    limit = settings.maxDepth ∧ ∃ p m, root.nodeAt? p = some m ∧ line = m.start.row + 1 ∧
      IsLeast {q | settings.maxDepth < q.length ∧ ∃ k, root.nodeAt? q = some k} p
  wrong : source.text.utf8ByteSize ≤ settings.maxFileSize →
    (∀ p m, root.nodeAt? p = some m → p.length ≤ settings.maxDepth) →
    ((∃ d, verdict = .error (.syntaxError d)) ↔
      root.hasError = true ∨ ∃ p m, root.nodeAt? p = some m ∧ m.Forbidden)
  /-- Without errors in the tree the first forbidden node is named. -/
  wrongNode : ∀ d, verdict = .error (.syntaxError d) → root.hasError = false →
    ∃ p m, root.nodeAt? p = some m ∧ d.Names source m ∧
      IsLeast {q | ∃ k, root.nodeAt? q = some k ∧ k.Forbidden} p
  accepted : ∀ tree, verdict = .ok tree ↔ tree = { root, source } ∧
    source.text.utf8ByteSize ≤ settings.maxFileSize ∧
    (∀ p m, root.nodeAt? p = some m → p.length ≤ settings.maxDepth) ∧
    root.hasError = false ∧ ∀ p m, root.nodeAt? p = some m → ¬ m.Forbidden

/-- The program is refused for one of its limits. -/
def BeyondLimits (verdict : Except Failure Tree) : Prop :=
  (∃ size limit, verdict = .error (.inputTooLarge size limit)) ∨
    ∃ line limit, verdict = .error (.nestingTooDeep line limit)

section Parse

variable {grammar : Grammar} {source : Source} {root : Node}

/-- What is wrong with a tree, whatever the limits are. -/
def fault (source : Source) (root : Node) : Option Failure :=
  if root.hasError then
    some (.syntaxError ((root.firstError source).getD (.atNode root .invalid)))
  else (root.firstInvalid source).map .syntaxError

theorem fault_eq_none_iff : fault source root = none ↔
    root.hasError = false ∧ ∀ p m, root.nodeAt? p = some m → ¬ m.Forbidden := by
  rw [fault]
  split
  · rename_i herror
    simp [herror]
  · rename_i herror
    rw [Option.map_eq_none_iff, Node.firstInvalid_eq_none_iff]
    simp [herror]

theorem exists_syntaxError_of_fault {failure : Failure} (h : fault source root = some failure) :
    ∃ d, failure = .syntaxError d := by
  rw [fault] at h
  split at h
  · exact ⟨_, (Option.some.inj h).symm⟩
  · obtain ⟨d, -, hd⟩ := Option.map_eq_some_iff.1 h
    exact ⟨d, hd.symm⟩

theorem names_of_fault {d : Diagnostic} (herror : root.hasError = false)
    (h : fault source root = some (.syntaxError d)) :
    ∃ p m, root.nodeAt? p = some m ∧ d.Names source m ∧
      IsLeast {q | ∃ k, root.nodeAt? q = some k ∧ k.Forbidden} p := by
  rw [fault, herror] at h
  obtain ⟨e, he, hed⟩ := Option.map_eq_some_iff.1 h
  obtain rfl := Failure.syntaxError.inj hed
  exact Node.names_of_firstInvalid he

/-- The three ways in which a program with a tree can fare: the limits, and then what is wrong with the
tree. -/
theorem parse_eq (h : grammar source = some root) (settings : ParsingSettings) :
    parse grammar settings source =
      if settings.maxFileSize < source.text.utf8ByteSize then
        .error (.inputTooLarge source.text.utf8ByteSize settings.maxFileSize)
      else
        match root.deeperThan settings.maxDepth with
        | some line => .error (.nestingTooDeep line settings.maxDepth)
        | none =>
          match fault source root with
          | some failure => .error failure
          | none => .ok { root, source } := by
  have hsize : source.size = source.text.utf8ByteSize := by
    rw [Source.size, source.bytes_eq]
    rfl
  rw [parse, hsize, h]
  simp only [refusal, fault, gt_iff_lt]
  cases root.deeperThan settings.maxDepth <;> rfl

section Rules

variable {settings : ParsingSettings}

theorem Judged.ofTooLarge (hsize : settings.maxFileSize < source.text.utf8ByteSize) :
    Judged settings source root
      (.error (.inputTooLarge source.text.utf8ByteSize settings.maxFileSize)) where
  tooLarge size limit := by
    constructor
    · intro h
      cases h
      exact ⟨rfl, rfl, hsize⟩
    · rintro ⟨rfl, rfl, -⟩
      rfl
  tooDeep hfits := absurd hsize (Nat.not_lt.2 hfits)
  tooDeepLine := nofun
  wrong hfits := absurd hsize (Nat.not_lt.2 hfits)
  wrongNode := nofun
  accepted tree := ⟨nofun, fun ⟨_, hfits, _⟩ => absurd hsize (Nat.not_lt.2 hfits)⟩

variable (hfits : source.text.utf8ByteSize ≤ settings.maxFileSize)
include hfits

theorem tooLarge_iff_of_fits {verdict : Except Failure Tree} {size limit : Nat}
    (h : verdict ≠ .error (.inputTooLarge size limit)) :
    verdict = .error (.inputTooLarge size limit) ↔
      size = source.text.utf8ByteSize ∧ limit = settings.maxFileSize ∧ limit < size := by
  refine iff_of_false h ?_
  rintro ⟨rfl, rfl, hsize⟩
  exact absurd hsize (Nat.not_lt.2 hfits)

theorem Judged.ofTooDeep {line : Nat} (hline : root.deeperThan settings.maxDepth = some line) :
    Judged settings source root (.error (.nestingTooDeep line settings.maxDepth)) := by
  obtain ⟨p, m, hm, hrow, hleast⟩ := Node.line_of_deeperThan hline
  have hdeep : ¬ ∀ p m, root.nodeAt? p = some m → p.length ≤ settings.maxDepth :=
    fun hshallow => absurd hleast.1.1 (Nat.not_lt.2 (hshallow p m hm))
  refine ⟨?_, ?_, ?_, ?_, nofun, ?_⟩
  · exact fun _ _ => tooLarge_iff_of_fits hfits nofun
  · intro _
    exact ⟨fun _ => ⟨p, m, hm, hleast.1.1⟩, fun _ => ⟨_, _, rfl⟩⟩
  · intro line' limit h
    cases h
    exact ⟨rfl, p, m, hm, hrow, hleast⟩
  · exact fun _ hshallow => absurd hshallow hdeep
  · exact fun tree => ⟨nofun, fun ⟨_, _, hshallow, _⟩ => absurd hshallow hdeep⟩

variable (hshallow : ∀ p m, root.nodeAt? p = some m → p.length ≤ settings.maxDepth)

omit hfits in
include hshallow in
theorem tooDeep_iff_of_shallow {verdict : Except Failure Tree}
    (h : ¬ ∃ line limit, verdict = .error (.nestingTooDeep line limit)) :
    (∃ line limit, verdict = .error (.nestingTooDeep line limit)) ↔
      ∃ p m, root.nodeAt? p = some m ∧ settings.maxDepth < p.length := by
  refine iff_of_false h ?_
  rintro ⟨p, m, hm, hdeep⟩
  exact absurd hdeep (Nat.not_lt.2 (hshallow p m hm))

include hshallow

theorem Judged.ofFault {d : Diagnostic} (hd : fault source root = some (.syntaxError d)) :
    Judged settings source root (.error (.syntaxError d)) := by
  have hfault : ¬ (root.hasError = false ∧ ∀ p m, root.nodeAt? p = some m → ¬ m.Forbidden) := by
    intro hclean
    rw [fault_eq_none_iff.2 hclean] at hd
    cases hd
  refine ⟨?_, ?_, nofun, ?_, ?_, ?_⟩
  · exact fun _ _ => tooLarge_iff_of_fits hfits nofun
  · exact fun _ => tooDeep_iff_of_shallow hshallow nofun
  · intro _ _
    refine ⟨fun _ => ?_, fun _ => ⟨d, rfl⟩⟩
    by_contra hclean
    rw [not_or, Bool.not_eq_true] at hclean
    exact hfault ⟨hclean.1, fun p m hm hm' => hclean.2 ⟨p, m, hm, hm'⟩⟩
  · intro d' h herror
    cases h
    exact names_of_fault herror hd
  · exact fun tree => ⟨nofun, fun ⟨_, _, _, hclean⟩ => absurd hclean hfault⟩

theorem Judged.ofAccepted (hfault : fault source root = none) :
    Judged settings source root (.ok { root, source }) := by
  rw [fault_eq_none_iff] at hfault
  obtain ⟨herror, hallowed⟩ := hfault
  refine ⟨?_, ?_, nofun, ?_, nofun, ?_⟩
  · exact fun _ _ => tooLarge_iff_of_fits hfits nofun
  · exact fun _ => tooDeep_iff_of_shallow hshallow nofun
  · intro _ _
    refine ⟨nofun, ?_⟩
    rintro (h | ⟨p, m, hm, hm'⟩)
    · rw [herror] at h
      cases h
    · exact absurd hm' (hallowed p m hm)
  · intro tree
    refine ⟨fun h => ?_, fun ⟨h, _⟩ => h ▸ rfl⟩
    cases h
    exact ⟨rfl, hfits, hshallow, herror, hallowed⟩

end Rules

theorem judged_parse (h : grammar source = some root) (settings : ParsingSettings) :
    Judged settings source root (parse grammar settings source) := by
  rw [parse_eq h]
  split
  · rename_i hsize
    exact .ofTooLarge hsize
  · rename_i hsize
    have hfits := Nat.not_lt.1 hsize
    cases hline : root.deeperThan settings.maxDepth with
    | some line => exact .ofTooDeep hfits hline
    | none =>
      have hshallow := Node.deeperThan_eq_none_iff.1 hline
      cases hfault : fault source root with
      | some failure =>
        obtain ⟨d, rfl⟩ := exists_syntaxError_of_fault hfault
        exact .ofFault hfits hshallow hfault
      | none => exact .ofAccepted hfits hshallow hfault

/-- A verdict that no limit decides is decided by the tree. -/
theorem parse_eq_of_not_beyondLimits (h : grammar source = some root) {settings : ParsingSettings}
    (hlimits : ¬ BeyondLimits (parse grammar settings source)) :
    parse grammar settings source =
      match fault source root with
      | some failure => .error failure
      | none => .ok { root, source } := by
  rw [parse_eq h] at hlimits ⊢
  split
  · rename_i hsize
    rw [if_pos hsize] at hlimits
    exact absurd (.inl ⟨_, _, rfl⟩) hlimits
  · rename_i hsize
    rw [if_neg hsize] at hlimits
    cases hline : root.deeperThan settings.maxDepth with
    | some line =>
      rw [hline] at hlimits
      exact absurd (.inr ⟨_, _, rfl⟩) hlimits
    | none => rfl

/-- A program with a tree is refused for its size, then for a node that is too deep, then for errors and
forbidden nodes, and for nothing else; the first such node says where. Two runs under different limits
end in the same way unless a limit ends one of them, so that raising the limits changes nothing for an
accepted program. -/
theorem parse_accepts_exactly (h : grammar source = some root) :
    (∀ settings, Judged settings source root (parse grammar settings source)) ∧
    (∀ settings others, ¬ BeyondLimits (parse grammar settings source) →
      ¬ BeyondLimits (parse grammar others source) →
      parse grammar others source = parse grammar settings source) ∧
    (∀ settings raised tree, settings.maxFileSize ≤ raised.maxFileSize →
      settings.maxDepth ≤ raised.maxDepth → settings.duplicatePolicy = raised.duplicatePolicy →
      parse grammar settings source = .ok tree →
      parse grammar raised source = .ok tree ∧
      Extraction.ofSource grammar raised source = Extraction.ofSource grammar settings source ∧
      Dependencies.ofSource grammar raised source =
        Dependencies.ofSource grammar settings source) := by
  refine ⟨judged_parse h, ?_, ?_⟩
  · intro settings others hsettings hothers
    rw [parse_eq_of_not_beyondLimits h hsettings, parse_eq_of_not_beyondLimits h hothers]
  · intro settings raised tree hsize hdepth hpolicy haccepted
    obtain ⟨htree, hfits, hshallow, hclean⟩ := ((judged_parse h settings).accepted tree).1 haccepted
    have hraised : parse grammar raised source = .ok tree := by
      refine ((judged_parse h raised).accepted tree).2 ⟨htree, hfits.trans hsize, ?_, hclean⟩
      exact fun p m hm => (hshallow p m hm).trans hdepth
    refine ⟨hraised, ?_, ?_⟩
    · rw [Extraction.ofSource, Extraction.ofSource, haccepted, hraised, hpolicy]
    · rw [Dependencies.ofSource, Dependencies.ofSource, haccepted, hraised]

/-- The tree of `print 1`. -/
def oldProgram : Tree where
  source := .ofText "print 1"
  root :=
    let leaf (kind : Kind) (named : Bool) (start stop : Nat) : Node :=
      .node { kind, named, start := ⟨start, 0, start⟩, stop := ⟨stop, 0, stop⟩ } []
    let inner (kind : Kind) (children : List Node) : Node :=
      .node { kind, named := true, start := .origin, stop := ⟨7, 0, 7⟩ } children
    inner (.other "module")
      [inner .printStatement [leaf (.other "print") false 0 5, leaf (.other "integer") true 6 7]]

theorem parse_accepts_exactly_oldProgram :
    (fun _ => some oldProgram.root : Grammar) oldProgram.source = some oldProgram.root ∧
    Judged {} oldProgram.source oldProgram.root
      (parse (fun _ => some oldProgram.root) {} oldProgram.source) :=
  ⟨rfl, (parse_accepts_exactly rfl).1 {}⟩

end Parse

end Tree

end CallAtlas.Syntax
