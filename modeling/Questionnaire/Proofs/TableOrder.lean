import Questionnaire.Proofs.Occurrences
import Questionnaire.Relevance.Table

/-! The order in which the variables of a table are replaced. A variable comes before every
variable that is a proper part of it, whichever kinds of spelling the two are, so that no
replacement can break a longer variable apart. The order is an invariant of placing one entry. -/
namespace Questionnaire.TableOrder
open Occurrences

/-- Every variable comes before those that are proper parts of it. -/
def Arranged (entries : List Spelling) : Prop :=
  entries.Pairwise fun earlier later => ¬ ProperPart earlier.word later.word

/-- What placing an entry does: it goes behind entries that are no parts of it, and right in front
of the first one that is. -/
theorem place_split (ordered : List Spelling) (entry : Spelling) :
    ∃ front behind, ordered = front ++ behind ∧
      Table.place ordered entry = front ++ entry :: behind ∧
      (∀ placed ∈ front, ¬ ProperPart placed.word entry.word) ∧
      ∀ first rest, behind = first :: rest → ProperPart first.word entry.word := by
  refine ⟨_, _, List.takeWhile_append_dropWhile.symm, rfl, ?_, ?_⟩
  · intro placed passed part
    have free := List.all_eq_true.mp List.all_takeWhile placed passed
    simp [occurs_properly_iff.mpr part] at free
  · intro first rest stopped
    have held := List.head?_dropWhile_not
      (fun placed : Spelling => !Text.occursProperly placed.word.toList entry.word.toList) ordered
    rw [stopped] at held
    exact occurs_properly_iff.mp (by simpa using held)

private theorem place_perm (ordered : List Spelling) (entry : Spelling) :
    (Table.place ordered entry).Perm (entry :: ordered) := by
  obtain ⟨front, behind, rfl, placed, _, _⟩ := place_split ordered entry
  rw [placed]
  exact List.perm_middle

/-- Placing an entry keeps the order. It cannot come in front of an entry that it is a part of:
the first entry behind it would then be a part of that one too, and yet stand before it. -/
theorem place_arranged {ordered : List Spelling} (entry : Spelling) (arranged : Arranged ordered) :
    Arranged (Table.place ordered entry) := by
  obtain ⟨front, behind, rfl, placed, passed, stopped⟩ := place_split ordered entry
  obtain ⟨frontArranged, behindArranged, across⟩ := List.pairwise_append.mp arranged
  rw [placed]
  have entryFirst : ∀ later ∈ behind, ¬ ProperPart entry.word later.word := by
    intro later member part
    cases behind with
    | nil => cases member
    | cons first rest =>
      have inside := proper_part_trans (stopped first rest rfl) part
      rcases List.mem_cons.mp member with rfl | member
      · exact proper_part_irrefl _ inside
      · exact (List.pairwise_cons.mp behindArranged).1 later member inside
  refine List.pairwise_append.mpr
    ⟨frontArranged, List.pairwise_cons.mpr ⟨entryFirst, behindArranged⟩, ?_⟩
  intro earlier before later member
  rcases List.mem_cons.mp member with rfl | member
  · exact passed earlier before
  · exact across earlier before later member

/-- If each step takes one element in, so does a run with each of its elements. -/
theorem foldl_perm_append {α : Type} {place : List α → α → List α}
    (step : ∀ ordered entry, (place ordered entry).Perm (entry :: ordered)) (entries ordered : List α) :
    (entries.foldl place ordered).Perm (ordered ++ entries) := by
  induction entries generalizing ordered with
  | nil => simp
  | cons entry rest ih =>
    have placed := (step ordered entry).append_right rest
    exact (ih (place ordered entry)).trans (placed.trans List.perm_middle.symm)

private theorem foldl_place_arranged (entries : List Spelling) {ordered : List Spelling}
    (arranged : Arranged ordered) : Arranged (entries.foldl Table.place ordered) := by
  induction entries generalizing ordered with
  | nil => exact arranged
  | cons entry rest ih => exact ih (place_arranged entry arranged)

theorem arrange_perm (entries : List Spelling) : (Table.arrange entries).Perm entries :=
  foldl_perm_append place_perm entries []

/-- Whatever entries were collected, with repetitions and in any order, they come out in order. -/
theorem arrange_arranged (entries : List Spelling) : Arranged (Table.arrange entries) :=
  foldl_place_arranged entries List.Pairwise.nil

/-- The entries that an arranged list has in front of one include all that it is a part of. -/
theorem containing_entries_come_first {front behind : List Spelling} {entry longer : Spelling}
    (arranged : Arranged (front ++ entry :: behind)) (member : longer ∈ front ++ entry :: behind)
    (part : ProperPart entry.word longer.word) : longer ∈ front := by
  obtain ⟨_, rest, _⟩ := List.pairwise_append.mp arranged
  rcases List.mem_append.mp member with before | here
  · exact before
  · rcases List.mem_cons.mp here with rfl | later
    · exact absurd part (proper_part_irrefl _)
    · exact absurd part ((List.pairwise_cons.mp rest).1 longer later)

private theorem position_of_entry {table : Table} {entry : Spelling} (held : entry ∈ table.entries) :
    ∃ index placed, table.position? entry.word = some index ∧
      table.entries[index]? = some placed ∧ placed.word = entry.word := by
  cases found : table.position? entry.word with
  | none =>
    have absent := List.findIdx?_eq_none_iff.mp found entry held
    simp at absent
  | some index =>
    obtain ⟨inside, here, _⟩ := List.findIdx?_eq_some_iff_getElem.mp found
    exact ⟨index, _, rfl, List.getElem?_eq_getElem inside, by simpa using here⟩

private theorem arranged_positions {table : Table} (arranged : Arranged table.entries)
    {inner outer : Spelling} (innerHeld : inner ∈ table.entries) (outerHeld : outer ∈ table.entries)
    (part : ProperPart inner.word outer.word) :
    ∃ first second, table.position? outer.word = some first ∧
      table.position? inner.word = some second ∧ first < second := by
  obtain ⟨first, longer, firstFound, firstPlace, firstWord⟩ := position_of_entry outerHeld
  obtain ⟨second, shorter, secondFound, secondPlace, secondWord⟩ := position_of_entry innerHeld
  refine ⟨first, second, firstFound, secondFound, ?_⟩
  rw [← firstWord, ← secondWord] at part
  obtain ⟨firstInside, rfl⟩ := List.getElem?_eq_some_iff.mp firstPlace
  obtain ⟨secondInside, rfl⟩ := List.getElem?_eq_some_iff.mp secondPlace
  rcases Nat.lt_trichotomy first second with before | same | behind
  · exact before
  · subst same
    exact absurd part (proper_part_irrefl _)
  · exact absurd part (List.pairwise_iff_getElem.mp arranged second first _ _ behind)

/-- A question of which nothing but its id and its name is of interest. -/
def bareQuestion (id : UInt64) (name : String) : Question where
  id := id
  parentId := none
  name := name
  kind := .multipleChoice
  mandatory := false
  relevance := unconditional
  subquestions := []
  answers := []
  wording := .empty

def questionWithRow : Question :=
  { bareQuestion 3 "Q1" with subquestions := [bareQuestion 4 "A"] }

/-- The second question is named by the tag of the first one's row, and its identifier contains that
of the first one. -/
def overlapping : List Question :=
  [questionWithRow, bareQuestion 34 "Q1_A"]

theorem overlapping_table : Table.ofQuestions 1 2 overlapping =
    ⟨[⟨"Q1_A", "\x7bQ1_A\x7d", .question "Q1_A"⟩,
      ⟨"1X2X4", "\x7bQ1_A\x7d", .subquestion "Q1" "A"⟩,
      ⟨"1X2X34", "\x7bQ1_A\x7d", .question "Q1_A"⟩,
      ⟨"Q1", "\x7bQ1\x7d", .question "Q1"⟩,
      ⟨"1X2X3", "\x7bQ1\x7d", .question "Q1"⟩],
    [⟨"Q1_A", .question "Q1_A", .subquestion "Q1" "A"⟩]⟩ := by
  decide +kernel

/-- **Longer variables come first.** In the table of any list of base questions no variable is a
proper part of the variable of a later entry; of two variables of which one is a proper part of the
other, the longer one has the lower position. -/
theorem variables_precede_their_parts (survey group : UInt64) (questions : List Question) :
    let table := Table.ofQuestions survey group questions
    Arranged table.entries ∧
      ∀ inner ∈ table.entries, ∀ outer ∈ table.entries, ProperPart inner.word outer.word →
        ∃ first second, table.position? outer.word = some first ∧
          table.position? inner.word = some second ∧ first < second := by
  intro table
  have arranged : Arranged table.entries := arrange_arranged _
  exact ⟨arranged, fun inner innerHeld outer outerHeld part =>
    arranged_positions arranged innerHeld outerHeld part⟩

/-- The identifier of the second question goes before that of the first one, which it contains. -/
theorem overlapping_identifiers_in_order : ProperPart "1X2X3" "1X2X34" ∧
    ∃ first second, (Table.ofQuestions 1 2 overlapping).position? "1X2X34" = some first ∧
      (Table.ofQuestions 1 2 overlapping).position? "1X2X3" = some second ∧ first < second := by
  have inner : ⟨"1X2X3", "\x7bQ1\x7d", .question "Q1"⟩ ∈
      (Table.ofQuestions 1 2 overlapping).entries := by
    rw [overlapping_table]
    decide
  have outer : ⟨"1X2X34", "\x7bQ1_A\x7d", .question "Q1_A"⟩ ∈
      (Table.ofQuestions 1 2 overlapping).entries := by
    rw [overlapping_table]
    decide
  have part : ProperPart "1X2X3" "1X2X34" := by decide
  exact ⟨part, (variables_precede_their_parts 1 2 overlapping).2 _ inner _ outer part⟩

end Questionnaire.TableOrder
