import CallAtlas.Grammar.Recognizer

/-!
# Parse tables

A parse table is all that a parser needs to know about a language. It is worked out from the
language's description.
-/

namespace CallAtlas.Grammar

/-- How a symbol shows in a tree. -/
structure Face where
  name : String
  visibility : Visibility
deriving BEq, Inhabited

/-- What the node of a production shows: the faces of children that are shown under another name and
the fields of children, by their position among the children that are not extras. -/
structure Showing where
  faces : Array (Option ShownName)
  fields : Array (Option String)
deriving Inhabited

/-- A parser state with how it finds its tokens. -/
structure TableState where
  actions : Array (List Action)
  gotos : Array Nat
  /-- Where the recognizer starts. -/
  reading : Nat
  /-- What the layout is told: its own tokens that the state expects, then the watched ones. -/
  signals : Bits
deriving Inhabited

/-- All that a parser needs to know about a language. -/
structure ParseTable where
  /-- How many tokens have patterns. The tokens of the layout follow them. -/
  lexiconSize : Nat
  /-- The token that stands for the end of the text. It is the last one. -/
  endToken : Nat
  /-- The token of which keywords are special cases. -/
  word : Nat
  alphabet : Alphabet
  tokens : Recognizer
  keywords : Recognizer
  /-- State 0 is that of a recovering parser, state 1 begins a text. -/
  states : Array TableState
  tokenFaces : Array Face
  ruleFaces : Array Face
  showings : Array Showing
deriving Inhabited

namespace ParseTable

/-- How the node of a production shows its children. A field that a hidden child hands on is found
inside that child. -/
def showingOf (d : Display) : Showing :=
  let own := d.fields.filter fun (_, _, inside) => !inside
  let width := own.foldl (fun n (_, i, _) => max n (i + 1)) 0
  { faces := d.names.toArray
    fields := own.foldl (fun a (name, i, _) => a.set! i (some name)) (Array.replicate width none) }

/-- The table of a described language. -/
def ofDescription (d : Description) : ParseTable :=
  let lexiconSize := d.tokens.size
  let tokenCount := lexiconSize + d.layout.size + 1
  let endToken := tokenCount - 1
  let tokenNamed (name : String) : Nat := (d.tokens.findIdx? (·.name == name)).getD 0
  let extras := d.extras.map tokenNamed
  let word := tokenNamed d.word
  let nonterminals := d.nonterminals
  let items := Items.build nonterminals lexiconSize tokenCount
  let canonical := items.states lexiconSize extras 100000
  let lexicon := Lexicon.build d.tokens d.blanks
  let overlaps := Overlaps.build lexicon (followingTokens items lexiconSize extras)
  let keywords := keywordsOf lexicon overlaps word canonical
  let watched := d.watched.map tokenNamed
  let around : Surroundings :=
    { lexiconSize, nonterminals, overlaps, word, keywords, watched := .ofList watched,
      beside := tokensBeside canonical tokenCount }
  let canonical := canonical.set! 0 (recovering around tokenCount (canonical.getD 0 default))
  let merged := Compaction.bypass nonterminals (Compaction.merge around tokenCount canonical)
  let states := Compaction.arrange (Compaction.prune merged)
  let (sets, used) := around.lookups endToken states
  let (tokens, starts) := Recognizer.build lexicon endToken sets
  let (keywordTokens, _) := Recognizer.build lexicon endToken #[keywords]
  let signalled := (List.range d.layout.size).map (lexiconSize + ·) ++ watched
  { lexiconSize, endToken, word
    alphabet := lexicon.alphabet
    tokens, keywords := keywordTokens
    states := (states.zip used).map fun (s, n) =>
      { actions := s.actions, gotos := s.gotos, reading := starts.getD n 0
        signals := signalled.zipIdx.foldl (fun b (t, i) =>
          if s.expects.has t then b.insert i else b) .empty }
    tokenFaces := d.tokens.map (fun t => ⟨t.name, t.visibility⟩) ++
      d.layout.map (fun t => ⟨t.name, t.visibility⟩) ++ #[⟨"end", .hidden⟩]
    ruleFaces := nonterminals.map fun v =>
      { name := v.shownAs.getD v.name
        visibility := if v.isNode || v.shownAs.isSome then .named else .hidden }
    showings := items.displays.map showingOf }

end ParseTable

end CallAtlas.Grammar
