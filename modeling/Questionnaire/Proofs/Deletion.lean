import Questionnaire.Text.Markup

/-! Deleting the matches of a rule from a text in one pass from left to right. A match is taken out as
a whole and the search goes on behind it; everything else stays in its order. A text stays as it is
exactly if the rule matches nowhere in it, so a pass that changes nothing finds nothing. -/
namespace Questionnaire.Deletion
open Text.Markup

variable {width : List Char → Nat}

private theorem deleteFrom_eq_drop (width : List Char → Nat) (skip : Nat) (text : List Char) :
    deleteFrom width skip text = delete width (text.drop skip) := by
  induction text generalizing skip with
  | nil => cases skip <;> rfl
  | cons c rest ih =>
    cases skip with
    | zero => rfl
    | succ skip => simpa [deleteFrom] using ih skip

@[simp]
theorem delete_nil (width : List Char → Nat) : delete width [] = [] := rfl

theorem delete_match {c : Char} {rest : List Char} (found : 0 < width (c :: rest)) :
    delete width (c :: rest) = delete width ((c :: rest).drop (width (c :: rest))) := by
  obtain ⟨matched, size⟩ := Nat.exists_eq_succ_of_ne_zero (Nat.ne_of_gt found)
  rw [size, List.drop_succ_cons, ← deleteFrom_eq_drop]
  simp only [delete, deleteFrom, size]

theorem delete_other {c : Char} {rest : List Char} (none : width (c :: rest) = 0) :
    delete width (c :: rest) = c :: delete width rest := by
  simp only [delete, deleteFrom, none]

/-- A match in front of a text is deleted as a whole. -/
theorem delete_matched {part : List Char} (visible : part ≠ []) {behind : List Char}
    (matched : width (part ++ behind) = part.length) :
    delete width (part ++ behind) = delete width behind := by
  obtain ⟨c, rest, rfl⟩ := List.exists_cons_of_ne_nil visible
  have found : 0 < width (c :: (rest ++ behind)) := by
    rw [← List.cons_append, matched]
    simp
  rw [List.cons_append, delete_match found, ← List.cons_append, matched, List.drop_left]

/-- To go through a text as deleting does: either a match is in front, or a character that stays. -/
theorem deletion_induction (width : List Char → Nat) {motive : List Char → Prop}
    (nil : motive [])
    (matched : ∀ c rest, 0 < width (c :: rest) →
      motive ((c :: rest).drop (width (c :: rest))) → motive (c :: rest))
    (other : ∀ c rest, width (c :: rest) = 0 → motive rest → motive (c :: rest))
    (text : List Char) : motive text := by
  induction size : text.length using Nat.strongRecOn generalizing text with
  | ind bound ih =>
    cases text with
    | nil => exact nil
    | cons c rest =>
      by_cases found : 0 < width (c :: rest)
      · refine matched c rest found (ih _ ?_ _ rfl)
        rw [List.length_drop, size]
        rw [List.length_cons] at size
        omega
      · refine other c rest (Nat.eq_zero_of_not_pos found) (ih _ ?_ rest rfl)
        rw [List.length_cons] at size
        omega

/-- Nothing but deleting is done. -/
theorem delete_sublist (width : List Char → Nat) (text : List Char) :
    (delete width text).Sublist text := by
  induction text using deletion_induction width with
  | nil => exact List.Sublist.slnil
  | matched c rest found ih =>
    rw [delete_match found]
    exact ih.trans (List.drop_sublist _ _)
  | other c rest none ih =>
    rw [delete_other none]
    exact ih.cons_cons c

/-- A text in which a match begins gets shorter. -/
theorem delete_match_length {c : Char} {rest : List Char} (found : 0 < width (c :: rest)) :
    (delete width (c :: rest)).length < (c :: rest).length := by
  have kept := (delete_sublist width ((c :: rest).drop (width (c :: rest)))).length_le
  rw [← delete_match found, List.length_drop, List.length_cons] at kept
  rw [List.length_cons]
  omega

/-- A text stays as it is exactly if no match begins anywhere in it. -/
theorem delete_eq_self_iff {text : List Char} :
    delete width text = text ↔ ∀ c rest, c :: rest <:+ text → width (c :: rest) = 0 := by
  induction text with
  | nil => simp
  | cons first others ih =>
    constructor
    · intro same c rest place
      have none : width (first :: others) = 0 := by
        refine Nat.eq_zero_of_not_pos fun found => ?_
        have shorter := delete_match_length found
        rw [same] at shorter
        exact Nat.lt_irrefl _ shorter
      rcases List.suffix_cons_iff.mp place with whole | later
      · rw [whole, none]
      · rw [delete_other none] at same
        exact ih.mp (List.cons.inj same).2 c rest later
    · intro nowhere
      rw [delete_other (nowhere first others (List.suffix_refl _)), ih.mpr]
      exact fun c rest later => nowhere c rest (later.trans (List.suffix_cons _ _))

/-- A rule finds a kind of texts if it has a match exactly in front of each of these. -/
def Finds (width : List Char → Nat) (kind : List Char → Prop) : Prop :=
  ∀ text, 0 < width text ↔ ∃ part, kind part ∧ part <+: text

/-- A rule takes a kind of texts if each of its matches is one of these. -/
def Takes (width : List Char → Nat) (kind : List Char → Prop) : Prop :=
  ∀ text, 0 < width text → kind (text.take (width text))

/-- A rule that finds a kind of texts leaves a text as it is exactly if none of this kind is in it. -/
theorem Finds.delete_eq_self_iff {kind : List Char → Prop} (finds : Finds width kind)
    (visible : ¬ kind []) {text : List Char} :
    delete width text = text ↔ ∀ part, kind part → ¬ part <:+: text := by
  rw [Deletion.delete_eq_self_iff]
  constructor
  · intro nowhere part isKind inside
    obtain ⟨place, front, behind⟩ := List.infix_iff_prefix_suffix.mp inside
    cases place with
    | nil => exact visible (List.prefix_nil.mp front ▸ isKind)
    | cons c rest =>
      have found := (finds _).mpr ⟨part, isKind, front⟩
      exact absurd (nowhere c rest behind) (Nat.ne_of_gt found)
  · intro absent c rest place
    refine Nat.eq_zero_of_not_pos fun found => ?_
    obtain ⟨part, isKind, front⟩ := (finds _).mp found
    exact absent part isKind (front.isInfix.trans place.isInfix)

end Questionnaire.Deletion
