import Mathlib.Data.List.Infix
import Mathlib.Tactic.Tauto
import Questionnaire.Proofs.Occurrences

/-! What replacing a word in a text does to the other words in it. A replacement goes through the text
once, so a word may be there afterwards that is put together of what stood on the two sides of a
replaced one. Where a word has nothing in common with the replaced one and its replacement, it occurs
afterwards exactly if it occurred before. -/
namespace Questionnaire.Replacement
open Occurrences

@[simp]
theorem replaceAll_nil (word other : List Char) : Text.replaceAll word other [] = [] := by
  simp [Text.replaceAll]

/-- A word in front is replaced, and the search goes on behind it. -/
theorem replaceAll_self_append {word : List Char} (nonempty : word ≠ []) (other behind : List Char) :
    Text.replaceAll word other (word ++ behind) = other ++ Text.replaceAll word other behind := by
  obtain ⟨first, others, pieces⟩ := List.exists_cons_of_ne_nil (cuts_ne_nil word behind)
  rw [Text.replaceAll, Text.replaceAll, cuts_self_append nonempty, pieces,
    List.intercalate_cons_cons, List.nil_append]

/-- A character with which the word does not begin stays. -/
theorem replaceAll_elsewhere {word rest : List Char} {c : Char} (elsewhere : ¬ word <+: c :: rest)
    (other : List Char) :
    Text.replaceAll word other (c :: rest) = c :: Text.replaceAll word other rest := by
  obtain ⟨first, others, pieces⟩ := List.exists_cons_of_ne_nil (cuts_ne_nil word rest)
  rw [Text.replaceAll, Text.replaceAll, cuts_elsewhere elsewhere, pieces, List.modifyHead_cons,
    intercalate_cons, intercalate_cons, List.cons_append]

theorem replaceAll_of_absent {word text : List Char} (other : List Char)
    (absent : ¬ word <:+: text) : Text.replaceAll word other text = text := by
  rw [Text.replaceAll, cuts_of_not_infix absent, List.intercalate_singleton]

/-- Replacing a single character goes through the text character by character. -/
theorem replaceAll_char (c d : Char) (text : List Char) :
    Text.replaceAll [c] [d] text = text.map fun x => if x = c then d else x := by
  induction text with
  | nil => rfl
  | cons x rest ih =>
    by_cases same : x = c
    · have step := replaceAll_self_append (List.cons_ne_nil c []) [d] rest
      rw [same, List.map_cons, if_pos rfl, ← ih]
      exact step
    · have elsewhere : ¬ [c] <+: x :: rest :=
        fun begins => same (List.cons_prefix_cons.mp begins).1.symm
      rw [replaceAll_elsewhere elsewhere, ih, List.map_cons, if_neg same]

/-- A property of texts for which it makes no difference which of two words stands anywhere is not
touched by replacing the one by the other. -/
theorem replaceAll_indifferent {word other : List Char} {holds : List Char → Prop}
    (nonempty : word ≠ [])
    (same : ∀ front back, holds (front ++ (other ++ back)) ↔ holds (front ++ (word ++ back)))
    (text : List Char) : holds (Text.replaceAll word other text) ↔ holds text := by
  suffices ∀ front, holds (front ++ Text.replaceAll word other text) ↔ holds (front ++ text) by
    simpa using this []
  induction text using cutting_induction nonempty with
  | nil => simp
  | here behind ih =>
    intro front
    rw [replaceAll_self_append nonempty, same, ← List.append_assoc, ih, List.append_assoc]
  | elsewhere c rest absent ih =>
    intro front
    have after := ih (front ++ [c])
    rw [List.append_assoc, List.append_assoc] at after
    rw [replaceAll_elsewhere absent]
    exact after

private theorem prefix_append_cons_iff {word front back : List Char} {c : Char} (foreign : c ∉ word) :
    word <+: front ++ c :: back ↔ word <+: front :=
  ⟨begins_before foreign, fun begins => begins.trans (List.prefix_append _ _)⟩

/-- A word is on one of the two sides of a character that it does not have. -/
theorem infix_append_cons_iff {word : List Char} {c : Char} (foreign : c ∉ word)
    (left right : List Char) :
    word <:+: left ++ c :: right ↔ word <:+: left ∨ word <:+: right := by
  induction left with
  | nil =>
    rw [List.nil_append, List.infix_cons_iff, List.infix_nil, ← List.prefix_nil]
    exact or_congr_left (@prefix_append_cons_iff word [] right c foreign)
  | cons d left ih =>
    rw [List.cons_append, List.infix_cons_iff, List.infix_cons_iff, ih, ← List.cons_append,
      prefix_append_cons_iff foreign, or_assoc]

private theorem infix_append_foreign_iff {word between : List Char} (nonempty : between ≠ [])
    (foreign : ∀ c ∈ between, c ∉ word) (left right : List Char) :
    word <:+: left ++ (between ++ right) ↔ word <:+: left ∨ word <:+: right := by
  induction between generalizing left with
  | nil => exact absurd rfl nonempty
  | cons c between ih =>
    rw [List.cons_append, infix_append_cons_iff (foreign c List.mem_cons_self)]
    cases between with
    | nil => rfl
    | cons d between =>
      have later := ih (List.cons_ne_nil d between)
        (fun x member => foreign x (List.mem_cons_of_mem _ member)) []
      rw [List.nil_append] at later
      rw [later, List.infix_nil, ← or_assoc]
      refine or_congr_left ⟨?_, .inl⟩
      rintro (here | rfl)
      · exact here
      · exact List.nil_infix

/-- A word that has no character of the replaced word and none of its replacement occurs exactly where
it occurred before. -/
theorem infix_replaceAll_iff {word other target : List Char} (nonempty : word ≠ [])
    (filled : other ≠ []) (foreign : ∀ c ∈ word ++ other, c ∉ target) (text : List Char) :
    target <:+: Text.replaceAll word other text ↔ target <:+: text := by
  have same (front back : List Char) :
      target <:+: front ++ (other ++ back) ↔ target <:+: front ++ (word ++ back) := by
    rw [infix_append_foreign_iff filled fun c member => foreign c (List.mem_append_right _ member),
      infix_append_foreign_iff nonempty fun c member => foreign c (List.mem_append_left _ member)]
  exact replaceAll_indifferent nonempty same text

private theorem infix_intercalate_iff {word separator : List Char} (nonempty : separator ≠ [])
    (foreign : ∀ c ∈ separator, c ∉ word) (first : List Char) (others : List (List Char)) :
    word <:+: separator.intercalate (first :: others) ↔
      ∃ piece ∈ first :: others, word <:+: piece := by
  induction others generalizing first with
  | nil => simp
  | cons second rest ih =>
    rw [List.intercalate_cons_cons, List.append_assoc, infix_append_foreign_iff nonempty foreign, ih]
    simp only [List.exists_mem_cons_iff]

/-- A word does not occur any more if its replacement has no character of it. -/
theorem not_infix_replaceAll {word other : List Char} (nonempty : word ≠ []) (filled : other ≠ [])
    (foreign : ∀ c ∈ other, c ∉ word) (text : List Char) :
    ¬ word <:+: Text.replaceAll word other text := by
  obtain ⟨first, others, pieces⟩ := List.exists_cons_of_ne_nil (cuts_ne_nil word text)
  rw [Text.replaceAll, pieces, infix_intercalate_iff filled foreign, ← pieces]
  rintro ⟨piece, member, occurs⟩
  exact not_infix_piece nonempty member occurs

/-- To go through a text from mark to mark. A word that is replaced by its last character, which it has
nowhere else, loses what is in front of this mark: a text falls into blocks, each with a mark at its
end, and every block is shortened by itself. -/
theorem block_induction (mark : Char) {motive : List Char → Prop}
    (unmarked : ∀ block, mark ∉ block → motive block)
    (marked : ∀ block rest, mark ∉ block → motive rest → motive (block ++ mark :: rest))
    (text : List Char) : motive text := by
  induction size : text.length using Nat.strongRecOn generalizing text with
  | ind bound ih =>
    by_cases member : mark ∈ text
    · obtain ⟨block, rest, rfl, absent⟩ := List.eq_append_cons_of_mem member
      refine marked block rest absent (ih _ ?_ rest rfl)
      rw [List.length_append, List.length_cons] at size
      omega
    · exact unmarked text member

section Blocks
variable {mark : Char} {stem block rest : List Char}

theorem prefix_block_iff (stemUnmarked : mark ∉ stem) (blockUnmarked : mark ∉ block) :
    stem ++ [mark] <+: block ++ mark :: rest ↔ stem = block := by
  induction stem generalizing block with
  | nil =>
    cases block with
    | nil => simp
    | cons c block =>
      have different : mark ≠ c := by
        rintro rfl
        simp at blockUnmarked
      simp [different]
  | cons d stem ih =>
    have stemTail : mark ∉ stem := fun member => stemUnmarked (List.mem_cons_of_mem _ member)
    cases block with
    | nil =>
      have different : d ≠ mark := by
        rintro rfl
        simp at stemUnmarked
      simp [different]
    | cons c block =>
      have blockTail : mark ∉ block := fun member => blockUnmarked (List.mem_cons_of_mem _ member)
      rw [List.cons_append, List.cons_append, List.cons_prefix_cons, ih stemTail blockTail,
        List.cons.injEq]

/-- A word with the mark at its end occurs at the end of a block or behind it. -/
theorem infix_block_iff (stemUnmarked : mark ∉ stem) (blockUnmarked : mark ∉ block) :
    stem ++ [mark] <:+: block ++ mark :: rest ↔ stem <:+ block ∨ stem ++ [mark] <:+: rest := by
  induction block with
  | nil =>
    have here : stem ++ [mark] <+: mark :: rest ↔ stem = [] :=
      prefix_block_iff stemUnmarked blockUnmarked
    rw [List.nil_append, List.infix_cons_iff, List.suffix_nil]
    exact or_congr_left here
  | cons c block ih =>
    have tail : mark ∉ block := fun member => blockUnmarked (List.mem_cons_of_mem _ member)
    rw [List.cons_append, List.infix_cons_iff, ih tail, List.suffix_cons_iff, ← List.cons_append,
      prefix_block_iff stemUnmarked blockUnmarked, or_assoc]

private theorem not_infix_unmarked (unmarked : mark ∉ block) : ¬ stem ++ [mark] <:+: block :=
  fun occurs => unmarked (occurs.subset (by simp))

private theorem replaceAll_unmarked (other : List Char) (unmarked : mark ∉ block) :
    Text.replaceAll (stem ++ [mark]) other block = block :=
  replaceAll_of_absent other (not_infix_unmarked unmarked)

/-- A block that ends in the rest of the word is shortened by it. -/
theorem replaceAll_block_shortened (stemUnmarked : mark ∉ stem) (blockUnmarked : mark ∉ block) :
    Text.replaceAll (stem ++ [mark]) [mark] (block ++ stem ++ mark :: rest) =
      block ++ mark :: Text.replaceAll (stem ++ [mark]) [mark] rest := by
  have nonempty : stem ++ [mark] ≠ [] := by simp
  induction block with
  | nil =>
    have front : ([] ++ stem ++ mark :: rest : List Char) = (stem ++ [mark]) ++ rest := by simp
    rw [front, replaceAll_self_append nonempty]
    rfl
  | cons c block ih =>
    have tail : mark ∉ block := fun member => blockUnmarked (List.mem_cons_of_mem _ member)
    have whole : mark ∉ c :: block ++ stem := by
      intro member
      rcases List.mem_append.mp member with here | there
      · exact blockUnmarked here
      · exact stemUnmarked there
    have elsewhere : ¬ stem ++ [mark] <+: c :: block ++ stem ++ mark :: rest := by
      rw [prefix_block_iff stemUnmarked whole]
      intro same
      have lengths := congrArg List.length same
      rw [List.length_append, List.length_cons] at lengths
      omega
    rw [List.cons_append, List.cons_append] at elsewhere ⊢
    rw [replaceAll_elsewhere elsewhere, ih tail, List.cons_append]

/-- Any other block stays. -/
theorem replaceAll_block_kept (stemUnmarked : mark ∉ stem) (blockUnmarked : mark ∉ block)
    (other : ¬ stem <:+ block) :
    Text.replaceAll (stem ++ [mark]) [mark] (block ++ mark :: rest) =
      block ++ mark :: Text.replaceAll (stem ++ [mark]) [mark] rest := by
  induction block with
  | nil =>
    have elsewhere : ¬ stem ++ [mark] <+: mark :: rest := by
      intro begins
      exact other ((prefix_block_iff stemUnmarked blockUnmarked).mp begins ▸ List.suffix_rfl)
    rw [List.nil_append, replaceAll_elsewhere elsewhere, List.nil_append]
  | cons c block ih =>
    have tail : mark ∉ block := fun member => blockUnmarked (List.mem_cons_of_mem _ member)
    have elsewhere : ¬ stem ++ [mark] <+: c :: (block ++ mark :: rest) := by
      intro begins
      exact other ((prefix_block_iff stemUnmarked blockUnmarked).mp begins ▸ List.suffix_rfl)
    have behind : ¬ stem <:+ block := fun ends => other (ends.trans (List.suffix_cons _ _))
    rw [List.cons_append, replaceAll_elsewhere elsewhere, ih tail behind, List.cons_append]

/-- The word is there again exactly if its beginning stood twice in a row. -/
theorem infix_shortened_iff (stemUnmarked : mark ∉ stem) (text : List Char) :
    stem ++ [mark] <:+: Text.replaceAll (stem ++ [mark]) [mark] text ↔
      stem ++ stem ++ [mark] <:+: text := by
  induction text using block_induction mark with
  | unmarked block absent =>
    rw [replaceAll_unmarked _ absent]
    exact iff_of_false (not_infix_unmarked absent) (not_infix_unmarked absent)
  | marked block rest absent ih =>
    have twiceUnmarked : mark ∉ stem ++ stem := by simp [stemUnmarked]
    rw [infix_block_iff twiceUnmarked absent]
    by_cases ends : stem <:+ block
    · obtain ⟨front, rfl⟩ := ends
      have frontUnmarked : mark ∉ front := fun member => absent (List.mem_append_left _ member)
      rw [replaceAll_block_shortened stemUnmarked frontUnmarked,
        infix_block_iff stemUnmarked frontUnmarked, ih, List.suffix_append_self_iff]
    · have twice : ¬ stem ++ stem <:+ block := fun both => ends ((List.suffix_append _ _).trans both)
      rw [replaceAll_block_kept stemUnmarked absent ends, infix_block_iff stemUnmarked absent, ih]
      exact or_congr_left (iff_of_false ends twice)

/-- Another word with the mark at its end is there exactly if it was there before, or if what it has in
front of the mark stood in front of the replaced word. -/
theorem infix_other_shortened_iff {other : List Char} (stemUnmarked : mark ∉ stem)
    (otherUnmarked : mark ∉ other)
    (different : ∀ block, other <:+ block → ¬ stem <:+ block) (text : List Char) :
    other ++ [mark] <:+: Text.replaceAll (stem ++ [mark]) [mark] text ↔
      other ++ [mark] <:+: text ∨ other ++ stem ++ [mark] <:+: text := by
  induction text using block_induction mark with
  | unmarked block absent =>
    rw [replaceAll_unmarked _ absent]
    simp only [not_infix_unmarked absent, or_false]
  | marked block rest absent ih =>
    have bothUnmarked : mark ∉ other ++ stem := by simp [stemUnmarked, otherUnmarked]
    rw [infix_block_iff otherUnmarked absent, infix_block_iff bothUnmarked absent]
    by_cases ends : stem <:+ block
    · have apart : ¬ other <:+ block := fun also => different block also ends
      obtain ⟨front, rfl⟩ := ends
      have frontUnmarked : mark ∉ front := fun member => absent (List.mem_append_left _ member)
      rw [replaceAll_block_shortened stemUnmarked frontUnmarked,
        infix_block_iff otherUnmarked frontUnmarked, ih, List.suffix_append_self_iff]
      tauto
    · have both : ¬ other ++ stem <:+ block := fun also => ends ((List.suffix_append _ _).trans also)
      rw [replaceAll_block_kept stemUnmarked absent ends, infix_block_iff otherUnmarked absent, ih]
      tauto

end Blocks

section Size
variable {size : List Char → Nat}
  (additive : ∀ front back, size (front ++ back) = size front + size back)
include additive

/-- A replacement that makes every occurrence smaller makes a text smaller in which there is one. -/
theorem size_replaceAll_lt {word other text : List Char} (smaller : size other < size word)
    (occurs : word <:+: text) : size (Text.replaceAll word other text) < size text := by
  have nonempty : word ≠ [] := by
    rintro rfl
    have nothing := additive [] other
    rw [List.nil_append] at nothing
    omega
  induction text using cutting_induction nonempty with
  | nil => exact absurd (List.infix_nil.mp occurs) nonempty
  | here behind ih =>
    rw [replaceAll_self_append nonempty, additive, additive]
    by_cases again : word <:+: behind
    · have later := ih again
      omega
    · rw [replaceAll_of_absent other again]
      omega
  | elsewhere c rest absent ih =>
    rcases List.infix_cons_iff.mp occurs with begins | inside
    · exact absurd begins absent
    · have later := ih inside
      have before := additive [c] (Text.replaceAll word other rest)
      have after := additive [c] rest
      rw [replaceAll_elsewhere absent]
      simp only [List.singleton_append] at before after
      omega

theorem size_replaceAll_le {word other : List Char} (smaller : size other < size word)
    (text : List Char) : size (Text.replaceAll word other text) ≤ size text := by
  by_cases occurs : word <:+: text
  · exact Nat.le_of_lt (size_replaceAll_lt additive smaller occurs)
  · rw [replaceAll_of_absent other occurs]

end Size

end Questionnaire.Replacement
