import CallAtlas.Proofs.Files
import Mathlib.Data.String.Basic

/-!
# Paths below a directory

The names in a path of a directory, a slash and another path are those of the directory and then those
of the other path. A name behind other names leads into the directory to which the others lead, and only
where there is such a directory. `below` are the files as they are seen by someone who works in a
directory.
-/

namespace CallAtlas.Files

open String (utf8Len)

variable {files files' : Files} {p q place : Place} {name directory path rest : String}
  {names : List String}

/-! ## The names in a path -/

/-- Splitting at slashes goes on where `l` has been split, `m` is the part that has begun, and `r` is
still to come. -/
theorem splitOnAux_slash (l m r : List Char) (done : List String) :
    String.splitOnAux (String.ofList (l ++ m ++ r)) "/" ⟨utf8Len l⟩ ⟨utf8Len (l ++ m)⟩ 0 done =
      done.reverse ++ (List.splitOnPPrepend (· == '/') r m.reverse).map String.ofList := by
  induction r generalizing l m done with
  | nil =>
    have hend := (String.atEnd_of_valid (l ++ m) []).2 rfl
    have hpart := String.extract_of_valid l m []
    rw [← String.utf8Len_append] at hpart
    rw [String.splitOnAux, if_pos hend]
    simp only [hpart, List.splitOnPPrepend_nil, List.reverse_reverse, List.reverse_cons,
      List.map_cons, List.map_nil]
  | cons c r ih =>
    have hend := mt (String.atEnd_of_valid (l ++ m) (c :: r)).1 (List.cons_ne_nil c r)
    have hget : String.Pos.Raw.get (String.ofList (l ++ m ++ c :: r)) ⟨utf8Len (l ++ m)⟩ = c :=
      String.get_of_valid (l ++ m) (c :: r)
    have hnext := String.next_of_valid (l ++ m) c r
    have hpart := String.extract_of_valid l m (c :: r)
    rw [← String.utf8Len_append] at hpart
    have hslash : String.Pos.Raw.get "/" 0 = '/' := by decide
    have hlast : String.Pos.Raw.next "/" 0 = ⟨1⟩ := by decide
    have hdone : String.Pos.Raw.atEnd "/" ⟨1⟩ = true := by decide
    rw [String.splitOnAux, if_neg hend]
    by_cases hc : c = '/'
    · subst hc
      have hback : (⟨utf8Len (l ++ m) + '/'.utf8Size⟩ : String.Pos.Raw).unoffsetBy ⟨1⟩ =
        ⟨utf8Len (l ++ m)⟩ := rfl
      have hrest := ih (l ++ m ++ ['/']) [] (String.ofList m :: done)
      simp only [hget, hslash, hlast, hnext, hdone, hback, hpart, beq_self_eq_true, if_true,
        List.splitOnPPrepend_cons_eq_if]
      simpa [Nat.add_assoc] using hrest
    · have hstay : (⟨utf8Len (l ++ m)⟩ : String.Pos.Raw).unoffsetBy 0 = ⟨utf8Len (l ++ m)⟩ := rfl
      have hrest := ih l (m ++ [c]) done
      simp only [hget, hslash, hnext, hstay, beq_iff_eq, hc, if_false,
        List.splitOnPPrepend_cons_eq_if]
      simpa [Nat.add_assoc] using hrest

theorem splitOn_slash (path : String) :
    path.splitOn "/" = (path.toList.splitOnP (· == '/')).map String.ofList := by
  have hsplit := splitOnAux_slash [] [] path.toList []
  rw [String.splitOn, if_neg (by decide)]
  simpa using hsplit

/-- A name by itself is a path. -/
theorem namesOf_name (hslash : '/' ∉ name.toList) (hempty : name ≠ "") (hdot : name ≠ ".") :
    namesOf name = [name] := by
  have hsplit : name.toList.splitOnP (· == '/') = [name.toList] :=
    List.splitOnP_eq_singleton fun c hc => beq_eq_false_iff_ne.2 fun h => hslash (h ▸ hc)
  rw [namesOf, splitOn_slash, hsplit]
  simp [hempty, hdot]

/-- Where names lead does not depend on what is there. -/
theorem Leads.unique (h : Leads files place names p) (h' : Leads files' place names q) : p = q := by
  induction h with
  | here => cases h'; rfl
  | up _ ih =>
    cases h' with
    | up h' => exact ih h'
    | last _ hname => exact absurd rfl hname
    | down _ hname => exact absurd rfl hname
  | last _ hname =>
    cases h' with
    | up => exact absurd rfl hname
    | last => rfl
    | down _ _ hrest => exact absurd rfl hrest
  | down _ hname hrest _ _ ih =>
    cases h' with
    | up => exact absurd rfl hname
    | last => exact absurd rfl hrest
    | down _ _ _ _ h' => exact ih h'

/-- Whether a place and all places above are directories. -/
def Reached (files : Files) (place : Place) : Prop :=
  ∀ above, above <:+ place → files.at? above = some .directory

theorem Reached.down (h : files.Reached place) (hdir : files.at? (name :: place) = some .directory) :
    files.Reached (name :: place) := by
  intro above habove
  rcases List.suffix_cons_iff.1 habove with rfl | habove
  · exact hdir
  · exact h above habove

theorem Reached.up (h : files.Reached (name :: place)) : files.Reached place :=
  fun above habove => h above (habove.trans (List.suffix_cons name place))

/-- What comes behind a directory and a slash in a path. -/
def behind? (directory path : String) : Option String :=
  (path.toList.dropPrefix? (directory ++ "/").toList).map String.ofList

/-- What is below a directory, by the paths that lead there from it. -/
def listBelow (files : Files) (directory : String) : List (String × Entry) :=
  files.entries.toList.filterMap fun e => (behind? directory e.1).map (·, e.2)

/-- The files with a directory for the working directory. -/
def below (files : Files) : Place → Files
  | [] => files
  | place => ⟨.ofList (files.listBelow (Place.path place))⟩

end CallAtlas.Files
