import CallAtlas.Proofs.Dot.Dependencies
import CallAtlas.Proofs.Dot.Lossless
import CallAtlas.Proofs.Dot.Tokens
import Mathlib

/-!
# Sentences of DOT

The grammar of DOT, over tokens, and which graphs are written as sentences of it. In a sentence the sign
of equality is followed by a name, so that a keyword cannot stand for a value. All values are written
between quotation marks but the shape, which stands without them where it has the form of a word. So a
graph is written as a sentence if and only if its shape is no keyword.
-/

namespace CallAtlas

open CallAtlas.Graph

namespace Dot

/-- The parts of a graph. -/
inductive Phrase where
  | statements
  | statement
  /-- A node with the port at which an edge meets it. -/
  | node
  | subgraph
  /-- What an edge may begin and end with. -/
  | vertex
  /-- The other ends of some edges in a row. -/
  | targets
  /-- Lists of attributes between brackets, one after another. -/
  | attributes
  /-- Attributes with their values. -/
  | assignments
deriving DecidableEq

/-- The sign between the ends of an edge. -/
def edgeSign (directed : Bool) : Token := if directed then .arrow else .line

/-- The grammar of the parts. Whether the graph is directed decides how its edges are written. -/
inductive Derives (directed : Bool) : Phrase → List Token → Prop where
  | noStatements : Derives directed .statements []
  | addStatement {s stop rest : List Token} (hstop : stop = [] ∨ stop = [.semicolon]) :
    Derives directed .statement s → Derives directed .statements rest →
    Derives directed .statements (s ++ stop ++ rest)
  | assignment (a b : Name) : Derives directed .statement [.name a, .equals, .name b]
  | defaults {as : List Token} (k : Keyword) (hk : k ∈ [.graph, .node, .edge]) (hne : as ≠ []) :
    Derives directed .attributes as → Derives directed .statement (.keyword k :: as)
  | nodeStatement {n as : List Token} : Derives directed .node n →
    Derives directed .attributes as → Derives directed .statement (n ++ as)
  | edgeStatement {v ts as : List Token} : Derives directed .vertex v →
    Derives directed .targets ts → Derives directed .attributes as →
    Derives directed .statement (v ++ ts ++ as)
  | subgraphStatement {s : List Token} : Derives directed .subgraph s →
    Derives directed .statement s
  | node (a : Name) (ports : List Name) (hports : ports.length ≤ 2) :
    Derives directed .node (.name a :: ports.flatMap fun port => [.colon, .name port])
  | block {ts : List Token} : Derives directed .statements ts →
    Derives directed .subgraph (.openBrace :: ts ++ [.closeBrace])
  | subgraph {ts : List Token} (a : Option Name) : Derives directed .statements ts →
    Derives directed .subgraph
      (.keyword .subgraph :: (a.map .name).toList ++ .openBrace :: ts ++ [.closeBrace])
  | nodeVertex {n : List Token} : Derives directed .node n → Derives directed .vertex n
  | subgraphVertex {s : List Token} : Derives directed .subgraph s → Derives directed .vertex s
  | lastTarget {v : List Token} : Derives directed .vertex v →
    Derives directed .targets (edgeSign directed :: v)
  | addTarget {v ts : List Token} : Derives directed .vertex v → Derives directed .targets ts →
    Derives directed .targets (edgeSign directed :: v ++ ts)
  | noAttributes : Derives directed .attributes []
  | addAttributes {as rest : List Token} : Derives directed .assignments as →
    Derives directed .attributes rest →
    Derives directed .attributes (.openBracket :: as ++ .closeBracket :: rest)
  | noAssignments : Derives directed .assignments []
  | addAssignment {stop rest : List Token} (a b : Name)
    (hstop : stop = [] ∨ stop = [.comma] ∨ stop = [.semicolon]) : Derives directed .assignments rest →
    Derives directed .assignments ([.name a, .equals, .name b] ++ stop ++ rest)

/-- The tokens of a graph: what it is, perhaps its name, and its statements. -/
inductive IsGraph : List Token → Prop where
  | graph {ts : List Token} (strict directed : Bool) (a : Option Name) :
    Derives directed .statements ts →
    IsGraph ((if strict then [.keyword .strict] else []) ++
      .keyword (if directed then .digraph else .graph) :: (a.map .name).toList ++
      .openBrace :: ts ++ [.closeBrace])

/-- A text is a sentence of DOT. -/
def Sentence (text : String) : Prop := ∃ ts, tokens text.toList = some ts ∧ IsGraph ts

/-! ## Values are names -/

/-- Each sign of equality has a name behind it. -/
def ValuesNamed : List Token → Prop
  | [] => True
  | .equals :: rest => (∃ a, rest.head? = some (.name a)) ∧ ValuesNamed rest
  | _ :: rest => ValuesNamed rest

theorem valuesNamed_append {as bs : List Token} (ha : ValuesNamed as) (hb : ValuesNamed bs) :
    ValuesNamed (as ++ bs) := by
  fun_induction ValuesNamed as with
  | case1 => exact hb
  | case2 rest ih =>
    obtain ⟨⟨a, hhead⟩, hrest⟩ := ha
    exact ⟨⟨a, by simp [List.head?_append, hhead]⟩, ih hrest⟩
  | case3 t rest ht ih =>
    rw [List.cons_append, ValuesNamed.eq_def]
    split <;> simp_all

theorem valuesNamed_cons {t : Token} {ts : List Token} (ht : t ≠ .equals) (h : ValuesNamed ts) :
    ValuesNamed (t :: ts) := by
  rw [ValuesNamed]
  · exact h
  · exact ht

theorem valuesNamed_right (as : List Token) {bs : List Token} (h : ValuesNamed (as ++ bs)) :
    ValuesNamed bs := by
  induction as with
  | nil => exact h
  | cons t as ih =>
    rw [List.cons_append, ValuesNamed.eq_def] at h
    split at h
    · contradiction
    · rename_i heq
      cases heq
      exact ih h.2
    · rename_i heq
      cases heq
      exact ih h

theorem valuesNamed_assignment (a b : Name) : ValuesNamed [.name a, .equals, .name b] :=
  ⟨⟨b, rfl⟩, trivial⟩

theorem valuesNamed_of_forall {ts : List Token} (h : ∀ t ∈ ts, t ≠ .equals) : ValuesNamed ts := by
  induction ts with
  | nil => trivial
  | cons t ts ih =>
    exact valuesNamed_cons (h t List.mem_cons_self) (ih fun u hu => h u (List.mem_cons_of_mem t hu))

/-- No rule brings in a sign of equality without a name behind it. -/
theorem valuesNamed_of_derives {directed : Bool} {phrase : Phrase} {ts : List Token}
    (h : Derives directed phrase ts) : ValuesNamed ts := by
  have hsign : edgeSign directed ≠ .equals := by cases directed <;> nofun
  have hclose : ValuesNamed [.closeBrace] := valuesNamed_of_forall (by simp)
  induction h with
  | noStatements | noAttributes | noAssignments => trivial
  | @addStatement _ stop _ hstop _ _ ihs ihrest =>
    have hstop : ValuesNamed stop :=
      valuesNamed_of_forall (by rcases hstop with rfl | rfl <;> simp)
    exact valuesNamed_append (valuesNamed_append ihs hstop) ihrest
  | assignment a b => exact valuesNamed_assignment a b
  | defaults k _ _ _ ih => exact valuesNamed_cons nofun ih
  | nodeStatement _ _ ihn ihas => exact valuesNamed_append ihn ihas
  | edgeStatement _ _ _ ihv ihts ihas => exact valuesNamed_append (valuesNamed_append ihv ihts) ihas
  | subgraphStatement _ ih | nodeVertex _ ih | subgraphVertex _ ih => exact ih
  | node a ports _ =>
    refine valuesNamed_cons nofun (valuesNamed_of_forall fun t ht => ?_)
    obtain ⟨port, -, ht⟩ := List.mem_flatMap.1 ht
    rcases List.mem_pair.1 ht with rfl | rfl <;> nofun
  | block _ ih => exact valuesNamed_cons nofun (valuesNamed_append ih hclose)
  | subgraph a _ ih =>
    have hname : ValuesNamed (a.map Token.name).toList :=
      valuesNamed_of_forall (by cases a <;> simp)
    exact valuesNamed_append (valuesNamed_cons nofun (valuesNamed_append hname
      (valuesNamed_cons nofun ih))) hclose
  | lastTarget _ ih => exact valuesNamed_cons hsign ih
  | addTarget _ _ ihv ihts => exact valuesNamed_cons hsign (valuesNamed_append ihv ihts)
  | addAttributes _ _ ihas ihrest =>
    exact valuesNamed_cons nofun (valuesNamed_append ihas (valuesNamed_cons nofun ihrest))
  | @addAssignment stop _ a b hstop _ ih =>
    have hstop : ValuesNamed stop :=
      valuesNamed_of_forall (by rcases hstop with rfl | rfl | rfl <;> simp)
    exact valuesNamed_append (valuesNamed_append (valuesNamed_assignment a b) hstop) ih

theorem valuesNamed_of_isGraph {ts : List Token} (h : IsGraph ts) : ValuesNamed ts := by
  obtain ⟨strict, directed, a, hts⟩ := h
  have hstrict : ValuesNamed (if strict then [.keyword .strict] else []) :=
    valuesNamed_of_forall (by cases strict <;> simp)
  have hname : ValuesNamed (a.map Token.name).toList :=
    valuesNamed_of_forall (by cases a <;> simp)
  have hclose : ValuesNamed [.closeBrace] := valuesNamed_of_forall (by simp)
  exact valuesNamed_append (valuesNamed_append (valuesNamed_append hstrict
    (valuesNamed_cons nofun hname)) (valuesNamed_cons nofun (valuesNamed_of_derives hts))) hclose

/-! ## What is written -/

/-- A text that is a keyword if it stands without quotation marks. -/
def IsKeyword (s : String) : Prop := ∃ k, keyword? s.toList = some k

/-- A word that is a name: letters, digits and underscores, with no digit at the beginning, and not a
keyword in upper or lower case. -/
structure IsIdentifier (cs : List Char) : Prop where
  ne_nil : cs ≠ []
  head : ∀ c ∈ cs.head?, c.isDigit = false
  chars : ∀ c ∈ cs, c.isAlpha = true ∨ c.isDigit = true ∨ c = '_'
  noKeyword : keyword? cs = none

theorem isAlpha_of_toLower {c : Char} (h : c.toLower.isAlpha = true) : c.isAlpha = true := by
  rw [Char.toLower] at h
  split at h
  · rename_i hupper
    simp only [Char.isAlpha, Char.isUpper, Bool.or_eq_true, decide_eq_true_eq]
    exact .inl hupper
  · exact h

theorem isDigit_of_isAlpha {c : Char} (h : c.isAlpha = true) : c.isDigit = false := by
  rw [← Bool.not_eq_true]
  simp only [Char.isAlpha, Char.isUpper, Char.isLower, Char.isDigit, Bool.or_eq_true,
    Bool.and_eq_true, decide_eq_true_eq, ge_iff_le, UInt32.le_iff_toNat_le] at h ⊢
  rintro ⟨-, hnine⟩
  rcases h with ⟨hletter, -⟩ | ⟨hletter, -⟩ <;> exact absurd (Nat.le_trans hletter hnine) (by decide)

/-- Keywords consist of letters, so that they have the form of a word. -/
theorem isPlain_of_isKeyword {s : String} (h : IsKeyword s) : isPlain s = true := by
  obtain ⟨k, hk⟩ := h
  obtain ⟨word, hword, hletters, hne⟩ : ∃ word : List Char, s.toList.map Char.toLower = word ∧
      word.all Char.isAlpha = true ∧ word ≠ [] := by
    rw [keyword?] at hk
    split at hk
    case h_7 => cases hk
    all_goals
      rename_i hlower
      have hword := congrArg String.toList hlower
      rw [String.toList_ofList] at hword
      exact ⟨_, hword, by decide⟩
  obtain ⟨c, cs, hcs⟩ := List.exists_cons_of_ne_nil (l := s.toList) fun hnil => by
    rw [hnil] at hword
    exact hne hword.symm
  have halpha : ∀ d ∈ c :: cs, d.isAlpha = true := fun d hd =>
    isAlpha_of_toLower (List.all_eq_true.1 hletters _ (hword ▸ List.mem_map_of_mem (hcs ▸ hd)))
  refine (isPlain_iff s).2 ⟨c, cs, hcs, ?_, fun d hd => ?_⟩
  · exact isDigit_of_isAlpha (halpha c List.mem_cons_self)
  · simp [isNameChar, Char.isAlphanum, halpha d hd]

theorem isIdentifier_of_isPlain {s : String} (h : isPlain s = true)
    (hkeyword : keyword? s.toList = none) : IsIdentifier s.toList := by
  obtain ⟨c, cs, hcs, hdigit, hall⟩ := (isPlain_iff s).1 h
  refine ⟨by simp [hcs], by simpa [hcs] using hdigit, fun d hd => ?_, hkeyword⟩
  have hd := hall d (hcs ▸ hd)
  simpa [isNameChar, Char.isAlphanum, or_assoc] using hd

/-- A value is a name if it is not a keyword, and a word only if it is an identifier. -/
theorem valueToken_of_not_isKeyword {s : String} (h : ¬ IsKeyword s) :
    ∃ a, valueToken s = .name a ∧ ∀ cs, a = .word cs → IsIdentifier cs := by
  have hnone : keyword? s.toList = none := by
    cases hk : keyword? s.toList with
    | none => rfl
    | some k => exact absurd ⟨k, hk⟩ h
  rw [valueToken]
  split
  · rename_i hs
    refine ⟨.word s.toList, by rw [wordToken, hnone], fun cs hcs => ?_⟩
    cases hcs
    exact isIdentifier_of_isPlain hs hnone
  · exact ⟨_, rfl, fun cs hcs => by cases hcs⟩

theorem valueToken_of_isKeyword {s : String} (h : IsKeyword s) :
    ∃ k, valueToken s = .keyword k := by
  obtain ⟨k, hk⟩ := id h
  exact ⟨k, by rw [valueToken, if_pos (isPlain_of_isKeyword h), wordToken, hk]⟩

theorem derives_statements (statements : List Statement) :
    Derives true .statements (statements.flatMap Statement.tokens) := by
  induction statements with
  | nil => exact .noStatements
  | cons s statements ih =>
    rw [List.flatMap_cons]
    have hnode (name : String) : Derives true .node [quotedToken name] := .node _ [] (by simp)
    match s with
    | .node name none =>
      exact .addStatement (.inr rfl) (.nodeStatement (hnode name) .noAttributes) ih
    | .node name (some colour) =>
      exact .addStatement (.inr rfl) (.nodeStatement (hnode name)
        (.addAttributes (.addAssignment _ _ (.inl rfl) .noAssignments) .noAttributes)) ih
    | .edge source target =>
      exact .addStatement (.inr rfl) (.edgeStatement (.nodeVertex (hnode source))
        (.lastTarget (.nodeVertex (hnode target))) .noAttributes) ih

/-- A graph whose shape is a name is a sentence. -/
theorem isGraph_tokensOf {style : GraphStyle} {a : Name} (h : valueToken style.nodeShape = .name a)
    (statements : List Statement) : IsGraph (tokensOf style statements) := by
  have hdefaults : Derives true .attributes [.openBracket,
      .name (.word "shape".toList), .equals, .name a, .comma,
      .name (.word "style".toList), .equals, quotedToken style.nodeStyle, .comma,
      .name (.word "fillcolor".toList), .equals, quotedToken style.fillColor, .closeBracket] :=
    .addAttributes (.addAssignment _ _ (.inr (.inl rfl)) (.addAssignment _ _ (.inr (.inl rfl))
      (.addAssignment _ _ (.inl rfl) .noAssignments))) .noAttributes
  have hrankdir : Derives true .statement
      [.name (.word "rankdir".toList), .equals, quotedToken style.rankdir] := .assignment _ _
  have hstatements := Derives.addStatement (.inr rfl) hrankdir (.addStatement (.inr rfl)
    (.defaults .node (by decide) (List.cons_ne_nil _ _) hdefaults) (derives_statements statements))
  rw [tokensOf, headerTokens, h]
  exact .graph false true (some _) hstatements

/-- A graph whose shape is a keyword is none. -/
theorem not_isGraph_tokensOf {style : GraphStyle} {k : Keyword}
    (h : valueToken style.nodeShape = .keyword k) (statements : List Statement) :
    ¬ IsGraph (tokensOf style statements) := by
  intro hgraph
  have hnamed := valuesNamed_of_isGraph hgraph
  rw [tokensOf, headerTokens, h] at hnamed
  -- the sign of equality behind the word for the shape is the eleventh token
  have hshape : ValuesNamed (.equals :: .keyword k :: _) :=
    valuesNamed_right [_, _, _, _, _, _, _, _, _, _] hnamed
  obtain ⟨⟨a, ha⟩, -⟩ := hshape
  cases ha

theorem isIdentifier_of_valueToken {s : String} {cs : List Char}
    (h : valueToken s = .name (.word cs)) : IsIdentifier cs := by
  by_cases hs : IsKeyword s
  · obtain ⟨k, hk⟩ := valueToken_of_isKeyword hs
    cases hk.symm.trans h
  · obtain ⟨a, ha, hword⟩ := valueToken_of_not_isKeyword hs
    exact hword cs (Token.name.inj (ha.symm.trans h))

/-- All words that are written as names are identifiers. -/
theorem isIdentifier_of_mem_tokensOf {style : GraphStyle} {statements : List Statement}
    {cs : List Char} (h : .name (.word cs) ∈ tokensOf style statements) : IsIdentifier cs := by
  have hfixed (s : String) (hplain : isPlain s = true) (hname : keyword? s.toList = none)
      (hcs : cs = s.toList) : IsIdentifier cs := hcs ▸ isIdentifier_of_isPlain hplain hname
  simp only [tokensOf, List.mem_append, List.mem_flatMap, List.mem_singleton] at h
  rcases h with (h | ⟨s, -, hs⟩) | h
  · simp only [headerTokens, quotedToken, List.mem_cons, Token.name.injEq, Name.word.injEq,
      reduceCtorEq, false_or, or_false, List.not_mem_nil] at h
    rcases h with h | h | h | h | h
    · exact hfixed "rankdir" (by decide) (by decide) h
    · exact hfixed "shape" (by decide) (by decide) h
    · exact isIdentifier_of_valueToken h.symm
    · exact hfixed "style" (by decide) (by decide) h
    · exact hfixed "fillcolor" (by decide) (by decide) h
  · rcases s with ⟨name, _ | colour⟩ | ⟨source, target⟩ <;>
      simp only [Statement.tokens, quotedToken, List.mem_cons, Token.name.injEq, Name.word.injEq,
        reduceCtorEq, false_or, or_false, List.not_mem_nil] at hs
    exact hfixed "fillcolor" (by decide) (by decide) hs
  · cases h

/-- How the text of a graph reads in DOT. -/
structure Written (style : GraphStyle) (statements : List Statement) (text : String) : Prop where
  /-- Each quotation mark ends the text that it was meant to end. -/
  tokens : tokens text.toList = some (tokensOf style statements)
  /-- What stands without quotation marks and is no keyword is an identifier. -/
  identifiers : ∀ cs, .name (.word cs) ∈ tokensOf style statements → IsIdentifier cs
  sentence : Sentence text ↔ ¬ IsKeyword style.nodeShape

theorem sentence_linesOf_iff (style : GraphStyle) (statements : List Statement) :
    Sentence (assemble (linesOf style statements)) ↔ ¬ IsKeyword style.nodeShape := by
  constructor
  · rintro ⟨ts, hts, hgraph⟩ hkeyword
    obtain rfl := Option.some.inj ((tokens_linesOf style statements).symm.trans hts)
    obtain ⟨k, hk⟩ := valueToken_of_isKeyword hkeyword
    exact not_isGraph_tokensOf hk statements hgraph
  · intro hkeyword
    obtain ⟨a, ha, -⟩ := valueToken_of_not_isKeyword hkeyword
    exact ⟨_, tokens_linesOf style statements, isGraph_tokensOf ha statements⟩

theorem written_linesOf (style : GraphStyle) (statements : List Statement) :
    Written style statements (assemble (linesOf style statements)) where
  tokens := tokens_linesOf style statements
  identifiers _ := isIdentifier_of_mem_tokensOf
  sentence := sentence_linesOf_iff style statements

end Dot

namespace Graph

/-- Whatever names and settings there are, the texts of call graphs and of dependency graphs have the
tokens that were meant, and what they have for names without quotation marks are identifiers. They are
sentences of DOT unless the shape of the nodes is a keyword, which is written like a name, and only
then. -/
theorem toDot_sentence_iff (style : GraphStyle) (g : CallGraph) (d : DependencyGraph) :
    Dot.Written style g.statements (g.toDot style) ∧
      Dot.Written style (d.statements style) (d.toDot style) := by
  constructor
  · rw [CallGraph.toDot, CallGraph.dotLines_eq]
    exact Dot.written_linesOf style g.statements
  · rw [DependencyGraph.toDot, DependencyGraph.dotLines_eq]
    exact Dot.written_linesOf style (d.statements style)

/-- A graph without nodes whose nodes should have the shape `node` is no sentence. -/
theorem toDot_keyword_shape : Dot.isPlain "node" = true ∧
    ¬ Dot.Sentence ((CallGraph.build []).toDot { nodeShape := "node" }) := by
  refine ⟨by decide, ?_⟩
  rw [CallGraph.toDot, CallGraph.dotLines_eq, Dot.sentence_linesOf_iff, not_not]
  exact ⟨.node, by decide⟩

end Graph

end CallAtlas
