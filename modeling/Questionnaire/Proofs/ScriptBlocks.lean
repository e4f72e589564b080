import Questionnaire.Proofs.Occurrences
import Questionnaire.Proofs.Survivors

/-! A script block is deleted as a whole. The search for its end passes over the body, whatever looks
like markup there, since a closing tag that began in the body would have its `</` and its word in it. What
is in front of the block has no `<`, so no pass finds anything in it; what is behind the block is cleaned
as if it stood alone. -/
namespace Questionnaire.ScriptBlocks
open Text Markup Deletion Tags Survivors

/-- No closing tag is begun in the text: `</` and the word `script`, in any case, are not in it. -/
def Unclosed (text : List Char) : Prop :=
  ∀ word, ScriptWord word → ¬ '<' :: '/' :: word <:+: text

instance : DecidablePred Unclosed := fun text =>
  decidable_of_iff
    (∀ place ∈ text.tails, place.take 2 = ['<', '/'] → beginsWithScript (place.drop 2) = false) <| by
    constructor
    · intro nowhere word spelled inside
      obtain ⟨place, ⟨rest, rfl⟩, suffixed⟩ := List.infix_iff_prefix_suffix.mp inside
      have unspelled := nowhere _ ((List.mem_tails _ _).mpr suffixed) rfl
      simp [spelled.begins] at unspelled
    · intro unclosed place member opens
      by_contra begins
      obtain ⟨word, rest, spelled, split⟩ := beginsWithScript_iff.mp (by simpa using begins)
      have whole : '<' :: '/' :: word ++ rest = place := by
        rw [← List.take_append_drop 2 place, opens, split]
        rfl
      have front : '<' :: '/' :: word <+: place := ⟨rest, whole⟩
      exact unclosed word spelled (front.isInfix.trans ((List.mem_tails _ _).mp member).isInfix)

private theorem bracket_not_mem_word {word : List Char} (spelled : ScriptWord word) : '<' ∉ word := by
  intro member
  obtain ⟨place, inside, here⟩ := List.mem_iff_getElem.mp member
  have within : place < ['s', 'c', 'r', 'i', 'p', 't'].length := by
    rwa [List.Forall₂.length_eq spelled]
  have spells := spelled.get within inside
  have letter := List.getElem_mem within
  rw [List.get_eq_getElem, List.get_eq_getElem, here] at spells
  have none : ['s', 'c', 'r', 'i', 'p', 't'].all (!Markup.spells · '<') = true := by decide
  have unspelled := List.all_eq_true.mp none _ letter
  simp [spells] at unspelled

/-- A closing tag that begins in a text begins with all of `</` and its word there, if a `<` is what
follows. -/
theorem Unclosed.no_closing {c : Char} {body behind : List Char} (unclosed : Unclosed (c :: body)) :
    closingWidth? (c :: (body ++ '<' :: behind)) = none := by
  by_contra found
  obtain ⟨size, found⟩ := Option.ne_none_iff_exists'.mp found
  obtain ⟨_, rest, split, ⟨spelled, blank⟩, -⟩ := closingWidth?_eq_some_iff.mp found
  next word blanks =>
  obtain ⟨rfl, same⟩ := List.cons.inj split
  have foreign : '<' ∉ '/' :: word := by
    simpa using bracket_not_mem_word spelled
  have begins : '/' :: word <+: body ++ '<' :: behind := by
    rw [same]
    exact ⟨blanks ++ '>' :: rest, by simp⟩
  have inside := Occurrences.begins_before foreign begins
  exact unclosed word spelled ((List.prefix_cons_inj '<').mpr inside).isInfix

private theorem Unclosed.tail {c : Char} {body : List Char} (unclosed : Unclosed (c :: body)) :
    Unclosed body :=
  fun word spelled inside => unclosed word spelled (inside.trans (List.suffix_cons c body).isInfix)

/-- A body in which no closing tag is begun is passed over, and the tag behind it is found. -/
theorem Unclosed.throughClosing {body : List Char} (unclosed : Unclosed body) {closing : List Char}
    (closes : IsClosing closing) (behind : List Char) :
    throughClosing? (body ++ (closing ++ behind)) = some (body.length + closing.length) := by
  have found := closingWidth?_eq_some_iff.mpr ⟨closing, behind, rfl, closes, rfl⟩
  obtain ⟨rest, opens⟩ : ∃ rest, closing ++ behind = '<' :: rest := by
    cases closes
    exact ⟨_, rfl⟩
  rw [opens] at found ⊢
  induction body with
  | nil => simp [throughClosing?, found]
  | cons c body ih =>
    rw [List.cons_append, throughClosing?, unclosed.no_closing, ih unclosed.tail]
    simp
    omega

private theorem block_width {opening body closing : List Char} (opens : IsOpening opening)
    (unclosed : Unclosed body) (closes : IsClosing closing) (behind : List Char) :
    scriptWidth (opening ++ (body ++ (closing ++ behind))) =
      opening.length + (body.length + closing.length) := by
  have opened := openingWidth?_eq_some_iff.mpr
    ⟨opening, body ++ (closing ++ behind), rfl, opens, rfl⟩
  simp only [scriptWidth, opened, List.drop_left, unclosed.throughClosing closes, Option.map_some,
    Option.getD_some]

variable {width : List Char → Nat}

/-- A rule of which the matches begin with `<` finds nothing in front of the first one. -/
theorem delete_unbracketed (bracketed : Takes width Bracketed) {front : List Char}
    (plain : '<' ∉ front) (rest : List Char) :
    delete width (front ++ rest) = front ++ delete width rest := by
  induction front with
  | nil => rfl
  | cons c front ih =>
    have here : c ≠ '<' := fun opens => plain (by simp [opens])
    have later : '<' ∉ front := fun inside => plain (List.mem_cons_of_mem c inside)
    have none : width (c :: (front ++ rest)) = 0 := by
      apply Nat.eq_zero_of_not_pos
      intro found
      have opens := (bracketed _ found).1
      rw [List.head?_take, if_neg (Nat.ne_of_gt found)] at opens
      exact here (Option.some.inj opens)
    rw [List.cons_append, delete_other none, ih later, List.cons_append]

private theorem delete_block {opening body closing : List Char} (opens : IsOpening opening)
    (unclosed : Unclosed body) (closes : IsClosing closing) (behind : List Char) :
    delete scriptWidth (opening ++ body ++ closing ++ behind) = delete scriptWidth behind := by
  have visible : opening ++ body ++ closing ≠ [] := by
    cases opens
    simp
  refine delete_matched visible ?_
  simpa [Nat.add_assoc] using block_width opens unclosed closes behind

/-- **A script block disappears together with its body.** In front of it there is no `<`; it begins with
an opening tag and ends with a closing one, and no closing tag is begun in between. Whatever else the
body holds, the text is cleaned as if the block were not there, and what is behind it as if it stood
alone. -/
theorem script_block_leaves_no_trace (front opening body closing behind : String)
    (plain : '<' ∉ front.toList) (opens : IsOpening opening.toList) (unclosed : Unclosed body.toList)
    (closes : IsClosing closing.toList) :
    (clean (front ++ opening ++ body ++ closing ++ behind)).toList =
      (front.toList.filter fun c => !isControl c) ++ (clean behind).toList := by
  have whole : (front ++ opening ++ body ++ closing ++ behind).toList =
      front.toList ++ (opening.toList ++ body.toList ++ closing.toList ++ behind.toList) := by
    simp [String.toList_append]
  simp only [clean, String.toList_ofList, whole, cleanChars]
  rw [delete_unbracketed scriptBlocks_bracketed plain, delete_block opens unclosed closes,
    delete_unbracketed tags_bracketed plain, List.filter_append]

/-- The body has a comparison, a string with a closing tag that lacks a letter, and a line break. -/
theorem script_with_near_closing_removed :
    '<' ∉ "How old\t".toList ∧ IsOpening "<ScRIPT type='a<b'>".toList ∧
      Unclosed "if (a<b) f('</scrip>');\n<</scrip".toList ∧ IsClosing "</script >".toList ∧
      clean ("How old\t" ++ "<ScRIPT type='a<b'>" ++ "if (a<b) f('</scrip>');\n<</scrip" ++
        "</script >" ++ " <b>are</b> you?") = "How old are you?" := by
  have plain : '<' ∉ "How old\t".toList := by decide
  have opens : IsOpening "<ScRIPT type='a<b'>".toList := by decide +kernel
  have unclosed : Unclosed "if (a<b) f('</scrip>');\n<</scrip".toList := by decide +kernel
  have closes : IsClosing "</script >".toList := by decide +kernel
  have cleaned := script_block_leaves_no_trace _ _ _ _ " <b>are</b> you?" plain opens unclosed closes
  refine ⟨plain, opens, unclosed, closes, String.toList_injective (cleaned.trans ?_)⟩
  decide +kernel

end Questionnaire.ScriptBlocks
