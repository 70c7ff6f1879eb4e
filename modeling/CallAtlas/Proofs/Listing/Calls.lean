import CallAtlas.Proofs.Extraction.Closed
import CallAtlas.Proofs.Extraction.Duplicates
import CallAtlas.Proofs.Listing.Data
import CallAtlas.Proofs.Text.Lines
import CallAtlas.Proofs.Text.Names
import Mathlib.Data.Bool.AllAny

/-!
# The listing of calls

As text, each function has a line with its callees. Since no name holds a blank, a comma or a
parenthesis, the functions with their callees are read back from the lines, the case of no callees
included.
-/

namespace CallAtlas

open CallAtlas.Graph Syntax Text Extraction

namespace Listing

/-- What the line of a function says before its line feed. -/
def callText (name : String) (callees : List String) : String :=
  name ++ " -> " ++ enumeration callees

/-- The function and the callees of a line: the word before the first space, and what stands between
the commas behind the arrow. -/
def readCall (line : String) : String × List String :=
  let name := line.toList.takeWhile (· ≠ ' ')
  let callees := line.toList.drop (name.length + " -> ".length)
  (String.ofList name,
    if callees = nothing.toList then []
    else ((callees.filter (· ≠ ' ')).splitOn ',').map String.ofList)

/-- A listing shows a call set: it has a line for each function, in ascending order, and the functions
with their callees are read back from the lines. -/
structure ShowsCalls (c : CallSet) (listing : String) : Prop where
  lines : lines listing = c.entries.map fun (name, callees) => callText name callees
  ascending : (c.entries.map Prod.fst).Pairwise (· < ·)
  read : (Text.lines listing).map readCall = c.entries
  whole : CallSet.ofEntries ((Text.lines listing).map readCall) = c

/-! ## The callees of a line -/

section Callees

variable {callees : List String}

theorem toList_enumeration (hne : callees ≠ []) :
    (enumeration callees).toList = [',', ' '].intercalate (callees.map String.toList) := by
  rw [enumeration, if_neg (by simpa using hne), String.toList_intercalate]
  rfl

theorem filter_intercalate {ls : List (List Char)} (h : ∀ l ∈ ls, ' ' ∉ l) :
    ([',', ' '].intercalate ls).filter (· ≠ ' ') = [','].intercalate ls := by
  have hfilter {l : List Char} (hl : ' ' ∉ l) : l.filter (· ≠ ' ') = l :=
    List.filter_eq_self.2 fun c hc => by
      rw [decide_eq_true_eq]
      rintro rfl
      exact hl hc
  rcases List.eq_nil_or_concat' ls with rfl | ⟨ls, last, rfl⟩
  · rfl
  · rw [intercalate_concat, intercalate_concat, List.filter_append, hfilter (h last (by simp)),
      List.filter_flatMap]
    congr 1
    refine List.flatMap_congr fun l hl => ?_
    rw [List.filter_append, hfilter (h l (List.mem_append_left _ hl))]
    rfl

/-- No listing of names looks like that of none: a name does not begin with a parenthesis. -/
theorem enumeration_ne_nothing (hne : callees ≠ []) (h : ∀ n ∈ callees, isName n = true) :
    (enumeration callees).toList ≠ nothing.toList := by
  obtain ⟨n, ns, rfl⟩ := List.exists_cons_of_ne_nil hne
  have hn := h n List.mem_cons_self
  obtain ⟨c, cs, hc⟩ := List.exists_cons_of_ne_nil (ne_nil_of_isName hn)
  have hfirst : ((enumeration (n :: ns)).toList).head? = some c := by
    rw [toList_enumeration hne, List.map_cons, hc]
    cases ns with
    | nil => rfl
    | cons n' ns => rfl
  intro heq
  rw [heq] at hfirst
  cases hfirst
  exact not_mem_of_isName hn (d := '(') (by decide +kernel) (hc ▸ List.mem_cons_self)

theorem toList_callText (name : String) (callees : List String) :
    (callText name callees).toList =
      name.toList ++ " -> ".toList ++ (enumeration callees).toList := by
  rw [callText, String.toList_append, String.toList_append]

/-- The function and its callees are read back from their line. -/
theorem readCall_callText {name : String} (hname : isName name = true)
    (h : ∀ n ∈ callees, isName n = true) : readCall (callText name callees) = (name, callees) := by
  have hspace {n : String} (hn : isName n = true) : ' ' ∉ n.toList :=
    not_mem_of_isName hn (by decide +kernel)
  have hword : (callText name callees).toList.takeWhile (· ≠ ' ') = name.toList := by
    rw [toList_callText, List.append_assoc, List.takeWhile_append_of_pos]
    · exact List.append_nil _
    · intro c hc
      rw [decide_eq_true_eq]
      rintro rfl
      exact hspace hname hc
  have hbehind : (callText name callees).toList.drop (name.toList.length + " -> ".length) =
      (enumeration callees).toList := by
    rw [toList_callText]
    exact List.drop_left' (by rw [List.length_append]; rfl)
  rw [readCall]
  simp only [hword, hbehind, String.ofList_toList]
  rcases eq_or_ne callees [] with rfl | hne
  · rfl
  · have hmem {l : List Char} (hl : l ∈ callees.map String.toList) : ∃ n, isName n = true ∧
        n.toList = l := by
      obtain ⟨n, hn, rfl⟩ := List.mem_map.1 hl
      exact ⟨n, h n hn, rfl⟩
    have hcommas : ∀ l ∈ callees.map String.toList, ',' ∉ l := by
      intro l hl
      obtain ⟨n, hn, rfl⟩ := hmem hl
      exact not_mem_of_isName hn (by decide +kernel)
    have hspaces : ∀ l ∈ callees.map String.toList, ' ' ∉ l := by
      intro l hl
      obtain ⟨n, hn, rfl⟩ := hmem hl
      exact hspace hn
    have htexts : (callees.map String.toList).map String.ofList = callees := by
      rw [List.map_map]
      exact List.map_id'' (fun _ => String.ofList_toList) callees
    rw [if_neg (enumeration_ne_nothing hne h), toList_enumeration hne, filter_intercalate hspaces,
      List.splitOn_intercalate _ hcommas (by simpa using hne), htexts]

/-! ## The lines of a listing -/

theorem isBlank_callText {name : String} (hname : isName name = true)
    (h : ∀ n ∈ callees, isName n = true) :
    ∀ c ∈ (callText name callees).toList, c = ' ' ∨ isBlank c = false := by
  intro c hc
  have hsigns {l : List Char} (hall : (l.all fun c => c = ' ' ∨ isBlank c = false) = true)
      (hmem : c ∈ l) : c = ' ' ∨ isBlank c = false := List.all_iff_forall_prop.1 hall c hmem
  rw [toList_callText, List.mem_append, List.mem_append] at hc
  rcases hc with (hc | hc) | hc
  · exact .inr (isBlank_of_mem_isName hname hc)
  · exact hsigns (by decide) hc
  · rcases eq_or_ne callees [] with rfl | hne
    · exact hsigns (by decide) hc
    · rw [toList_enumeration hne] at hc
      rcases mem_of_mem_intercalate hc with hc | ⟨l, hl, hc⟩
      · exact hsigns (by decide) hc
      · obtain ⟨n, hn, rfl⟩ := List.mem_map.1 hl
        exact .inr (isBlank_of_mem_isName (h n hn) hc)

/-- A line ends with the last character of a name or with a parenthesis. -/
theorem exists_callText_concat (name : String) (h : ∀ n ∈ callees, isName n = true) :
    ∃ cs c, (callText name callees).toList = cs ++ [c] ∧ isBlank c = false := by
  rw [toList_callText]
  rcases List.eq_nil_or_concat' callees with rfl | ⟨ns, n, rfl⟩
  · exact ⟨name.toList ++ " -> (none".toList, ')', by simp [enumeration, nothing], rfl⟩
  · have hn := h n (by simp)
    obtain ⟨cs, c, hcs⟩ := (List.eq_nil_or_concat' n.toList).resolve_left (ne_nil_of_isName hn)
    have hne : ns ++ [n] ≠ [] := List.append_ne_nil_of_right_ne_nil _ (List.cons_ne_nil _ _)
    refine ⟨name.toList ++ " -> ".toList ++ ((ns.map String.toList).flatMap (· ++ [',', ' ']) ++ cs), c,
      ?_, isBlank_of_mem_isName hn (hcs ▸ List.mem_append_right _ List.mem_cons_self)⟩
    rw [toList_enumeration hne, List.map_append, List.map_singleton, intercalate_concat, hcs]
    simp only [List.append_assoc]

end Callees

/-! ## Whole listings -/

theorem calls_eq (e : Extraction) : calls .text e = trimEnd (String.ofList (unlines
    (e.calls.entries.map fun (name, callees) => (callText name callees).toList))) := by
  rw [calls, CallSet.entries, List.map_map]
  refine congrArg trimEnd (String.toList_inj.1 ?_)
  rw [String.toList_join, String.toList_ofList, unlines, List.flatMap_map, List.flatMap_map]
  exact List.flatMap_congr fun entry _ => String.toList_append

theorem showsCalls {e : Extraction} (h : ∀ entry ∈ e.calls.entries, isName entry.1 = true ∧
    ∀ n ∈ entry.2, isName n = true) : ShowsCalls e.calls (calls .text e) := by
  have hlines : Text.lines (calls .text e) =
      e.calls.entries.map fun (name, callees) => callText name callees := by
    rw [calls_eq, lines_trimEnd_unlines]
    · rw [List.map_map]
      exact List.map_congr_left fun entry _ => String.ofList_toList
    · intro l hl
      obtain ⟨entry, hentry, rfl⟩ := List.mem_map.1 hl
      have hblank := isBlank_callText (h entry hentry).1 (h entry hentry).2
      exact ⟨fun hmem => (hblank _ hmem).elim nofun nofun, fun hmem => (hblank _ hmem).elim nofun nofun⟩
    · intro l hl
      obtain ⟨entry, hentry, rfl⟩ := List.mem_map.1 hl
      exact exists_callText_concat entry.1 (h entry hentry).2
  have hread : (Text.lines (calls .text e)).map readCall = e.calls.entries := by
    rw [hlines, List.map_map]
    refine (List.map_congr_left fun entry hentry => ?_).trans (List.map_id _)
    exact readCall_callText (h entry hentry).1 (h entry hentry).2
  exact {
    lines := hlines
    ascending := by
      rw [CallSet.entries, List.map_map, List.pairwise_map]
      exact Std.ExtTreeMap.ordered_keys_toList.imp fun h => (compare_eq_lt_iff _ _).1 h
    read := hread
    whole := by rw [hread, CallSet.ofEntries_entries] }

/-- The call set of a program holds no names but those of its functions. -/
theorem isName_of_entry {policy : DuplicatePolicy} {t : Tree} {e : Extraction}
    (he : ofTree policy t = .ok e) (hnames : ∀ r ∈ e.functions, isName r.name = true)
    {entry : String × List String} (h : entry ∈ e.calls.entries) :
    isName entry.1 = true ∧ ∀ n ∈ entry.2, isName n = true := by
  obtain ⟨hclosed, hrecords⟩ := calls_of_ofTree he
  have hname {n : String} (hn : n ∈ e.calls.names) : isName n = true := by
    obtain ⟨r, hr, rfl⟩ := (hrecords n).1 hn
    exact hnames r hr
  obtain ⟨⟨name, callees⟩, hmem, rfl⟩ := List.mem_map.1 h
  have hcallees : e.calls.callees? name = some callees :=
    Std.ExtTreeMap.mem_toList_iff_getElem?_eq_some.1 hmem
  constructor
  · refine hname ((e.calls.mem_names name).2 ?_)
    by_contra hmissing
    rw [(e.calls.callees?_eq_none_iff name).2 hmissing] at hcallees
    cases hcallees
  · exact fun n hn => hname (hclosed name callees hcallees n (Std.ExtTreeSet.mem_toList.1 hn))

/-- The listings of the calls and of the functions of a program lose nothing. From the lines of text the
call set is read back, if the functions have names; from the data any call set, and any records whose
numbers have 64 bits. -/
theorem listings_lose_nothing :
    (∀ policy t e, ofTree policy t = .ok e → (∀ r ∈ e.functions, isName r.name = true) →
      ShowsCalls e.calls (calls .text e)) ∧
    ∀ e, (Json.parse (calls .json e)).bind CallSet.ofJson? = some e.calls ∧
      ShowsRecords e.functions (functions true .json e) (functions false .json e) := by
  refine ⟨fun policy t e he hnames => showsCalls fun entry hentry => ?_, fun e => ⟨?_, showsRecords e⟩⟩
  · exact isName_of_entry he hnames hentry
  · rw [parse_calls, Option.bind_some, CallSet.ofJson?_toJson]

theorem listings_lose_nothing_recursiveProgram : ∃ e, ofTree .lastWins recursiveProgram = .ok e ∧
    (∀ r ∈ e.functions, isName r.name = true) ∧ (∀ r ∈ e.functions, r.HasWords) ∧
    ShowsCalls e.calls (calls .text e) ∧
    (Json.parse (calls .json e)).bind CallSet.ofJson? = some e.calls ∧
    ∃ items, Json.parse (functions true .json e) = some (.array items) ∧
      items.mapM FunctionRecord.ofJson? = some e.functions := by
  obtain ⟨calls, hcalls, -⟩ := assignCalls_exact (nofun : DuplicatePolicy.lastWins ≠ .reject)
    recursiveProgram
  have he := ofTree_of_assignCalls hcalls
  have hnames : ∀ r ∈ (definitions recursiveProgram).map (·.record), isName r.name = true := by
    decide +kernel
  have hwords : ∀ r ∈ (definitions recursiveProgram).map (·.record), r.HasWords := by
    have hnumbers : ∀ r ∈ (definitions recursiveProgram).map (·.record),
        r.startLine < UInt64.size ∧ r.endLine < UInt64.size ∧ r.depth < UInt64.size := by
      decide +kernel
    exact fun r hr => ⟨(hnumbers r hr).1, (hnumbers r hr).2.1, (hnumbers r hr).2.2⟩
  obtain ⟨hread, hshown⟩ := listings_lose_nothing.2 (withCalls recursiveProgram calls)
  obtain ⟨items, hitems, -, hrecords⟩ := hshown.shown
  exact ⟨_, he, hnames, hwords, listings_lose_nothing.1 _ _ _ he hnames, hread, items, hitems,
    hrecords hwords⟩

end Listing

end CallAtlas
