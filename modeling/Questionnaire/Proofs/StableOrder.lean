import Mathlib.Data.List.Induction
import Mathlib.Data.List.TakeWhile
import Questionnaire.Proofs.TableBuilding
import Questionnaire.Proofs.TableOrder

/-! What putting entries in order leaves alone. The entries are followed by their places in the given
list, since the same entry may stand in it twice. All of them are kept; a list in which no variable is a
proper part of a later one stays as it is; and an entry goes in front of others only where its own
variable contains that of an earlier entry. -/
namespace Questionnaire.StableOrder
open Occurrences TableOrder

/-- Entries with their places in the list that is put in order. -/
abbrev Numbered := List (Spelling × Nat)

/-- Puts an entry into its place as `Table.place` does. -/
def placeNumbered (ordered : Numbered) (entry : Spelling × Nat) : Numbered :=
  let free := fun placed : Spelling × Nat =>
    !Text.occursProperly placed.1.word.toList entry.1.word.toList
  ordered.takeWhile free ++ entry :: ordered.dropWhile free

/-- The entries as `Table.arrange` puts them in order, each with the place that it had. -/
def arrangement (entries : List Spelling) : Numbered :=
  entries.zipIdx.foldl placeNumbered []

private theorem placeNumbered_entries (ordered : Numbered) (entry : Spelling × Nat) :
    (placeNumbered ordered entry).map Prod.fst = Table.place (ordered.map Prod.fst) entry.1 := by
  rw [placeNumbered, Table.place, List.map_append, List.map_cons, List.takeWhile_map,
    List.dropWhile_map]
  rfl

private theorem placeNumbered_split (ordered : Numbered) (entry : Spelling × Nat) :
    ∃ front behind, ordered = front ++ behind ∧
      placeNumbered ordered entry = front ++ entry :: behind :=
  ⟨_, _, List.takeWhile_append_dropWhile.symm, rfl⟩

private theorem placeNumbered_perm (ordered : Numbered) (entry : Spelling × Nat) :
    (placeNumbered ordered entry).Perm (entry :: ordered) := by
  obtain ⟨front, behind, rfl, placed⟩ := placeNumbered_split ordered entry
  rw [placed]
  exact List.perm_middle

/-- Placing an entry moves no other one. -/
theorem placeNumbered_keeps (ordered : Numbered) (entry : Spelling × Nat) :
    ordered.Sublist (placeNumbered ordered entry) := by
  obtain ⟨front, behind, rfl, placed⟩ := placeNumbered_split ordered entry
  rw [placed]
  exact (List.sublist_cons_self entry behind).append_left front

/-- An entry that contains none of those placed before it goes behind them all. -/
theorem placeNumbered_of_free {ordered : Numbered} {entry : Spelling × Nat}
    (free : ∀ placed ∈ ordered, ¬ ProperPart placed.1.word entry.1.word) :
    placeNumbered ordered entry = ordered ++ [entry] := by
  have passed : ∀ placed ∈ ordered,
      (!Text.occursProperly placed.1.word.toList entry.1.word.toList) = true := by
    intro placed held
    simpa [← occurs_properly_iff] using free placed held
  have all := List.takeWhile_eq_self_iff.mpr passed
  have none := List.dropWhile_eq_nil_iff.mpr passed
  rw [placeNumbered, all, none]

private theorem foldl_placeNumbered_entries (entries ordered : Numbered) :
    (entries.foldl placeNumbered ordered).map Prod.fst =
      (entries.map Prod.fst).foldl Table.place (ordered.map Prod.fst) := by
  induction entries generalizing ordered with
  | nil => rfl
  | cons entry rest ih =>
    rw [List.foldl_cons, ih, placeNumbered_entries]
    rfl

private theorem foldl_placeNumbered_keeps (entries ordered : Numbered) :
    ordered.Sublist (entries.foldl placeNumbered ordered) := by
  induction entries generalizing ordered with
  | nil => exact .refl _
  | cons entry rest ih => exact (placeNumbered_keeps ordered entry).trans (ih _)

private theorem arrangement_append (front behind : List Spelling) :
    arrangement (front ++ behind) =
      (behind.zipIdx front.length).foldl placeNumbered (arrangement front) := by
  rw [arrangement, List.zipIdx_append, List.foldl_append, Nat.zero_add]
  rfl

/-- Without their places the entries are the ordered list. -/
theorem arrangement_entries (entries : List Spelling) :
    (arrangement entries).map Prod.fst = Table.arrange entries := by
  rw [arrangement, foldl_placeNumbered_entries, List.zipIdx_map_fst]
  rfl

private theorem arrangement_perm (entries : List Spelling) :
    (arrangement entries).Perm entries.zipIdx :=
  foldl_perm_append placeNumbered_perm entries.zipIdx []

/-- An entry that contains none of those before it is placed behind them. -/
theorem arrangement_of_free {front : List Spelling} {entry : Spelling}
    (free : ∀ earlier ∈ front, ¬ ProperPart earlier.word entry.word) :
    arrangement (front ++ [entry]) = arrangement front ++ [(entry, front.length)] := by
  have passed : ∀ placed ∈ arrangement front, ¬ ProperPart placed.1.word entry.word := by
    intro placed held
    have given := (arrangement_perm front).mem_iff.mp held
    exact free _ (List.fst_mem_of_mem_zipIdx given)
  rw [arrangement_append]
  exact placeNumbered_of_free passed

/-- What is placed later leaves the entries where they are, so it is decided when the entry is
placed. -/
theorem earlier_stay_before {front behind : List Spelling} {entry : Spelling}
    (free : ∀ earlier ∈ front, ¬ ProperPart earlier.word entry.word) {earlier : Spelling × Nat}
    (held : earlier ∈ front.zipIdx) :
    [earlier, (entry, front.length)].Sublist (arrangement (front ++ entry :: behind)) := by
  have before : [earlier].Sublist (arrangement front) :=
    List.singleton_sublist.mpr ((arrangement_perm front).mem_iff.mpr held)
  have placed : [earlier, (entry, front.length)].Sublist (arrangement (front ++ [entry])) := by
    rw [arrangement_of_free free]
    exact before.append_right [(entry, front.length)]
  have whole : front ++ entry :: behind = (front ++ [entry]) ++ behind := by simp
  rw [whole, arrangement_append]
  exact placed.trans (foldl_placeNumbered_keeps _ _)

/-- Where no variable is a proper part of a later one, no entry moves. -/
theorem arrangement_of_arranged {entries : List Spelling} (arranged : Arranged entries) :
    arrangement entries = entries.zipIdx := by
  induction entries using List.reverseRecOn with
  | nil => rfl
  | append_singleton front entry ih =>
    obtain ⟨earlier, -, across⟩ := List.pairwise_append.mp arranged
    have free : ∀ placed ∈ front, ¬ ProperPart placed.word entry.word := fun placed held =>
      across placed held entry List.mem_cons_self
    rw [arrangement_of_free free, ih earlier, List.zipIdx_append, Nat.zero_add]
    rfl

private theorem arrange_eq_self_iff {entries : List Spelling} :
    Table.arrange entries = entries ↔ Arranged entries := by
  constructor
  · intro same
    rw [← same]
    exact arrange_arranged entries
  · intro arranged
    rw [← arrangement_entries, arrangement_of_arranged arranged, List.zipIdx_map_fst]

/-- **Putting entries in order is stable.** Every entry is kept as often as it is there. The list stays
as it is exactly if no variable in it is a proper part of a later one, so a second run changes nothing.
And an entry whose variable contains none of those before it has all of these before it afterwards:
`arrangement` follows each of them by its place. -/
theorem arranging_is_stable (entries : List Spelling) :
    (Table.arrange entries).Perm entries ∧
      (Table.arrange entries = entries ↔ Arranged entries) ∧
      Table.arrange (Table.arrange entries) = Table.arrange entries ∧
      (arrangement entries).map Prod.fst = Table.arrange entries ∧
      (arrangement entries).Perm entries.zipIdx ∧
      ∀ front entry behind, entries = front ++ entry :: behind →
        (∀ earlier ∈ front, ¬ ProperPart earlier.word entry.word) →
        ∀ earlier ∈ front.zipIdx,
          [earlier, (entry, front.length)].Sublist (arrangement entries) := by
  refine ⟨arrange_perm entries, arrange_eq_self_iff, ?_, arrangement_entries entries,
    arrangement_perm entries, ?_⟩
  · exact arrange_eq_self_iff.mpr (arrange_arranged entries)
  · rintro front entry behind rfl free earlier held
    exact earlier_stay_before free held

/-- An entry by a name of its own. -/
def named (name : String) : Spelling :=
  .of name (.question name)

/-- Between them are an entry that goes in front of all and one that is there twice. -/
theorem repeated_entry_stays_behind :
    (∀ earlier ∈ [named "Q1", named "A", named "Q10"], ¬ ProperPart earlier.word "Q1") ∧
      [(named "A", 1), (named "Q1", 3)].Sublist
        (arrangement [named "Q1", named "A", named "Q10", named "Q1", named ""]) ∧
      Table.arrange [named "Q1", named "A", named "Q10", named "Q1", named ""] =
        [named "Q10", named "Q1", named "A", named "Q1", named ""] := by
  have free : ∀ earlier ∈ [named "Q1", named "A", named "Q10"], ¬ ProperPart earlier.word "Q1" := by
    decide
  have stable :=
    arranging_is_stable [named "Q1", named "A", named "Q10", named "Q1", named ""]
  exact ⟨free, stable.2.2.2.2.2 _ (named "Q1") _ rfl free (named "A", 1) (by decide), by decide⟩

end Questionnaire.StableOrder
