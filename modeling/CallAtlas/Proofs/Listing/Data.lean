import CallAtlas.Listing.Report
import CallAtlas.Proofs.Graph.CallSets
import CallAtlas.Proofs.Json.RoundTrip

/-!
# Data are read back

A call set and the records of functions are read back from the values that describe them, and so from
these in writing. Without sources a record is described by the same members but the one of its source.
-/

namespace CallAtlas

open CallAtlas.Graph

/-! ## Call sets -/

namespace Graph.CallSet

/-- The functions with their callees, all in ascending order. -/
def entries (c : CallSet) : List (String × List String) :=
  c.toList.map fun (name, callees) => (name, callees.toList)

/-- The call set of some functions with their callees. -/
def ofEntries (entries : List (String × List String)) : CallSet :=
  ⟨entries.foldl (fun m (name, callees) => m.insert name (.ofList callees)) ∅⟩

theorem ofList_toList (s : NameSet) : Std.ExtTreeSet.ofList s.toList = s := by
  refine Std.ExtTreeSet.ext_mem fun n => ?_
  rw [Std.ExtTreeSet.mem_ofList, List.contains_iff_mem, Std.ExtTreeSet.mem_toList]

theorem ofList_toList_map (m : Std.ExtTreeMap String NameSet) :
    Std.ExtTreeMap.ofList m.toList = m := by
  refine Std.ExtTreeMap.ext_getElem? fun name => ?_
  cases h : m[name]? with
  | some callees =>
    exact Std.ExtTreeMap.getElem?_ofList_of_mem Std.ReflCmp.compare_self
      Std.ExtTreeMap.distinct_keys_toList (Std.ExtTreeMap.mem_toList_iff_getElem?_eq_some.2 h)
  | none =>
    refine Std.ExtTreeMap.getElem?_ofList_of_contains_eq_false ?_
    rw [Std.ExtTreeMap.map_fst_toList_eq_keys, List.contains_eq_mem, decide_eq_false_iff_not,
      Std.ExtTreeMap.mem_keys, Std.ExtTreeMap.mem_iff_isSome_getElem?, h]
    exact Bool.false_ne_true

/-- A call set is known by its functions with their callees. -/
theorem ofEntries_entries (c : CallSet) : ofEntries c.entries = c := by
  rw [ofEntries, entries, List.foldl_map]
  simp only [ofList_toList]
  refine congrArg mk ?_
  rw [toList, ← Std.ExtTreeMap.ofList_eq_foldl, ofList_toList_map]

end Graph.CallSet

/-! ## Values -/

theorem mapM_map_eq_some {α β γ : Type} {f : α → β} {read : β → Option γ} {g : α → γ} {l : List α}
    (h : ∀ a ∈ l, read (f a) = some (g a)) : (l.map f).mapM read = some (l.map g) := by
  induction l with
  | nil => rfl
  | cons a l ih =>
    rw [List.map_cons, List.mapM_cons, h a List.mem_cons_self,
      ih fun b hb => h b (List.mem_cons_of_mem a hb)]
    rfl

namespace Json

theorem strings?_strings (ss : List String) : strings? (strings ss) = some ss := by
  have hread : (ss.map Json.string).mapM string? = some (ss.map id) :=
    mapM_map_eq_some fun s _ => rfl
  rwa [List.map_id] at hread

theorem natural?_natural {n : Nat} (h : n < UInt64.size) : natural? (natural n) = some n := by
  have hvalue : digitsValue (Nat.toDigits 10 n) = n := Nat.ofDigitChars_ten_toDigits
  have hdigits : (Nat.toDigits 10 n).all Char.isDigit = true :=
    List.all_eq_true.2 fun c hc => Nat.isDigit_of_mem_toDigits (by decide) (by decide) hc
  have hne : (Nat.toDigits 10 n).isEmpty = false := by
    simp [Nat.toDigits_ne_nil]
  rw [natural, natural?, Nat.toString_eq_repr, Nat.toList_repr]
  simp only [hvalue, hdigits, hne, h]
  rfl

/-- The value without the members of a name. -/
def without (name : String) : Json → Json
  | object members => object (members.filter (·.1 != name))
  | j => j

end Json

theorem Graph.CallSet.ofJson?_toJson (c : CallSet) : CallSet.ofJson? c.toJson = some c := by
  rw [CallSet.toJson, CallSet.ofJson?, Json.object?]
  simp only [Option.bind_eq_bind, Option.bind_some]
  rw [mapM_map_eq_some (g := fun entry => (entry.1, entry.2.toList)) fun entry _ =>
    congrArg (Option.map (entry.1, ·)) (Json.strings?_strings entry.2.toList)]
  exact congrArg some (ofEntries_entries c)

theorem Graph.CallSet.hasNaturals_toJson (c : CallSet) : c.toJson.HasNaturals :=
  .object fun m hm => by
    obtain ⟨entry, -, rfl⟩ := List.mem_map.1 hm
    exact .strings _

/-! ## Records -/

/-- The numbers of a record are numbers of 64 bits. -/
structure FunctionRecord.HasWords (r : FunctionRecord) : Prop where
  startLine : r.startLine < UInt64.size
  endLine : r.endLine < UInt64.size
  depth : r.depth < UInt64.size

namespace Listing

variable {r : FunctionRecord}

theorem hasNaturals_functionJson (includeSource : Bool) (r : FunctionRecord) :
    (functionJson includeSource r).HasNaturals := by
  refine .object ?_
  simp only [List.forall_mem_append, List.forall_mem_cons]
  refine ⟨⟨.string _, .natural _, .natural _, .bool _, .natural _, nofun⟩, ?_⟩
  cases includeSource with
  | false => nofun
  | true => exact List.forall_mem_singleton.2 (.string _)

theorem ofJson?_functionJson (h : r.HasWords) :
    FunctionRecord.ofJson? (functionJson true r) = some r := by
  have hname : (functionJson true r).field? 6 0 "name" = some (.string r.name) := rfl
  have hstart : (functionJson true r).field? 6 1 "start_line" = some (.natural r.startLine) := rfl
  have hend : (functionJson true r).field? 6 2 "end_line" = some (.natural r.endLine) := rfl
  have hsource : (functionJson true r).field? 6 3 "source_text" = some (.string r.sourceText) := rfl
  have hasync : (functionJson true r).field? 6 4 "is_async" = some (.bool r.isAsync) := rfl
  have hdepth : (functionJson true r).field? 6 5 "depth" = some (.natural r.depth) := rfl
  simp only [FunctionRecord.ofJson?, hname, hstart, hend, hsource, hasync, hdepth, Json.string?,
    Json.bool?, Json.natural?_natural h.startLine, Json.natural?_natural h.endLine,
    Json.natural?_natural h.depth, Option.bind_eq_bind, Option.bind_some]
  rfl

theorem without_functionJson (r : FunctionRecord) :
    (functionJson true r).without "source_text" = functionJson false r := by
  rfl

/-! ## Listings -/

theorem parse_calls (e : Extraction) : Json.parse (calls .json e) = some e.calls.toJson :=
  Json.parse_pretty e.calls.hasNaturals_toJson

theorem parse_functions (includeSource : Bool) (e : Extraction) :
    Json.parse (functions includeSource .json e) =
      some (.array (e.functions.map (functionJson includeSource))) :=
  Json.parse_pretty (.array fun j hj => by
    obtain ⟨r, -, rfl⟩ := List.mem_map.1 hj
    exact hasNaturals_functionJson includeSource r)

/-- A listing of records as data gives the records back, and `short` is the listing of the same objects
without their sources. -/
structure ShowsRecords (rs : List FunctionRecord) (listing short : String) : Prop where
  shown : ∃ items, Json.parse listing = some (.array items) ∧
    Json.parse short = some (.array (items.map (·.without "source_text"))) ∧
    ((∀ r ∈ rs, r.HasWords) → items.mapM FunctionRecord.ofJson? = some rs)

theorem showsRecords (e : Extraction) :
    ShowsRecords e.functions (functions true .json e) (functions false .json e) where
  shown := by
    refine ⟨_, parse_functions true e, ?_, fun h => ?_⟩
    · rw [parse_functions, List.map_map]
      exact congrArg (some ∘ Json.array) (List.map_congr_left fun r _ => (without_functionJson r).symm)
    · have hread : (e.functions.map (functionJson true)).mapM FunctionRecord.ofJson? =
          some (e.functions.map id) := mapM_map_eq_some fun r hr => ofJson?_functionJson (h r hr)
      rwa [List.map_id] at hread

end Listing

end CallAtlas
