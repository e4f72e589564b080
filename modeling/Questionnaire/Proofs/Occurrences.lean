import Questionnaire.Text.Occurrence

/-! Words inside words, and words inside texts that are put together. Being a proper part is a
strict order on words. Cutting a text at a word passes over a part in which the word never begins,
and takes the word itself out as a whole. -/
namespace Questionnaire.Occurrences
open Text

/-- A word is a proper part of another one: it occurs in it and is not the whole of it. -/
def ProperPart (inner outer : String) : Prop :=
  inner.toList <:+: outer.toList ∧ inner ≠ outer

theorem occurs_properly_iff {inner outer : String} :
    occursProperly inner.toList outer.toList = true ↔ ProperPart inner outer := by
  rw [occursProperly_iff, ProperPart, ne_eq, ne_eq, String.toList_inj]

instance (inner outer : String) : Decidable (ProperPart inner outer) :=
  decidable_of_iff _ occurs_properly_iff

theorem proper_part_irrefl (word : String) : ¬ ProperPart word word :=
  fun part => part.2 rfl

theorem proper_part_trans {inner middle outer : String} (first : ProperPart inner middle)
    (second : ProperPart middle outer) : ProperPart inner outer := by
  refine ⟨first.1.trans second.1, ?_⟩
  rintro rfl
  have same : inner.toList = middle.toList :=
    first.1.eq_of_length_le second.1.length_le
  exact first.2 (String.toList_inj.mp same)

/-- The word does not begin in a part of a text, even if it were to end in what is behind. -/
def NeverBegins (word part behind : List Char) : Prop :=
  ∀ start < part.length, ¬ word <+: (part ++ behind).drop start

theorem NeverBegins.shortened {word part front whole : List Char}
    (absent : NeverBegins word part whole) (initial : front <+: whole) :
    NeverBegins word part front := by
  obtain ⟨tail, rfl⟩ := initial
  intro start inside occurs
  have within : start ≤ (part ++ front).length := by
    rw [List.length_append]
    omega
  refine absent start inside ?_
  rw [← List.append_assoc, List.drop_append_of_le_length within]
  exact occurs.trans (List.prefix_append _ _)

/-- A part in which the word never begins joins the piece behind it. -/
theorem cuts_append {word part behind : List Char} (absent : NeverBegins word part behind) :
    cuts word (part ++ behind) = (cuts word behind).modifyHead (part ++ ·) := by
  induction part with
  | nil => cases pieces : cuts word behind <;> simp [pieces]
  | cons c part ih =>
    have elsewhere : word.isPrefixOf (c :: (part ++ behind)) = false := by
      have here := absent 0 (by simp)
      simpa [Bool.eq_false_iff] using here
    have later : NeverBegins word part behind := by
      intro start inside
      simpa using absent (start + 1) (by simpa using inside)
    rw [List.cons_append, cuts_of_not_isPrefixOf elsewhere, ih later]
    cases cuts word behind <;> simp

/-- A word in front of a text is cut out, and the search goes on behind it. -/
theorem cuts_self_append {word : List Char} (nonempty : word ≠ []) (behind : List Char) :
    cuts word (word ++ behind) = [] :: cuts word behind := by
  obtain ⟨c, rest, rfl⟩ := List.exists_cons_of_ne_nil nonempty
  have here : (c :: rest).isPrefixOf (c :: (rest ++ behind)) = true := by simp
  have behindWord : (c :: (rest ++ behind)).drop (c :: rest).length = behind := by simp
  rw [List.cons_append, cuts_of_isPrefixOf nonempty here, behindWord]

/-- A separated list is its first part and the others, each with the separator in front. -/
theorem intercalate_cons {α : Type} (separator first : List α) (others : List (List α)) :
    separator.intercalate (first :: others) =
      first ++ others.flatMap fun part => separator ++ part := by
  induction others generalizing first with
  | nil => simp [List.intercalate]
  | cons second rest ih =>
    rw [List.intercalate_cons_cons, ih]
    simp

/-- To go through a text as cutting does: either the word is in front, or a character with which it
does not begin. -/
theorem cutting_induction {word : List Char} (nonempty : word ≠ []) {motive : List Char → Prop}
    (nil : motive []) (here : ∀ behind, motive behind → motive (word ++ behind))
    (elsewhere : ∀ c rest, ¬ word <+: c :: rest → motive rest → motive (c :: rest))
    (text : List Char) : motive text := by
  induction size : text.length using Nat.strongRecOn generalizing text with
  | ind bound ih =>
    cases text with
    | nil => exact nil
    | cons c rest =>
      by_cases begins : word <+: c :: rest
      · obtain ⟨behind, whole⟩ := begins
        rw [← whole] at size ⊢
        have positive : 0 < word.length := List.length_pos_iff.mpr nonempty
        refine here behind (ih _ ?_ behind rfl)
        rw [List.length_append] at size
        omega
      · refine elsewhere c rest begins (ih _ ?_ rest rfl)
        rw [List.length_cons] at size
        omega

theorem cuts_elsewhere {word rest : List Char} {c : Char} (elsewhere : ¬ word <+: c :: rest) :
    cuts word (c :: rest) = (cuts word rest).modifyHead (c :: ·) :=
  cuts_of_not_isPrefixOf (by simpa [Bool.eq_false_iff] using elsewhere)

private theorem cuts_nil_word (text : List Char) : cuts [] text = [text] := by
  induction text with
  | nil => rfl
  | cons c rest ih =>
    have step : cuts [] (c :: rest) = (cuts [] rest).modifyHead (c :: ·) := by
      simp [cuts, cutsFrom]
    rw [step, ih]
    rfl

theorem cuts_ne_nil (word text : List Char) : cuts word text ≠ [] := by
  by_cases nonempty : word = []
  · simp [nonempty, cuts_nil_word]
  · induction text using cutting_induction nonempty with
    | nil => simp
    | here behind ih => simp [cuts_self_append nonempty]
    | elsewhere c rest absent ih => simpa [cuts_elsewhere absent] using ih

/-- Nothing gets lost in cutting: with the word between its pieces the text is there again. -/
theorem intercalate_cuts (word text : List Char) : word.intercalate (cuts word text) = text := by
  by_cases nonempty : word = []
  · simp [nonempty, cuts_nil_word]
  · induction text using cutting_induction nonempty with
    | nil => simp
    | here behind ih =>
      obtain ⟨first, others, pieces⟩ := List.exists_cons_of_ne_nil (cuts_ne_nil word behind)
      rw [cuts_self_append nonempty, pieces, List.intercalate_cons_cons, ← pieces, ih]
      rfl
    | elsewhere c rest absent ih =>
      obtain ⟨first, others, pieces⟩ := List.exists_cons_of_ne_nil (cuts_ne_nil word rest)
      rw [pieces, intercalate_cons] at ih
      rw [cuts_elsewhere absent, pieces, List.modifyHead_cons, intercalate_cons, List.cons_append, ih]

private theorem first_piece_begins {word text first : List Char} {others : List (List Char)}
    (pieces : cuts word text = first :: others) : first <+: text := by
  have whole := intercalate_cuts word text
  rw [pieces, intercalate_cons] at whole
  exact ⟨_, whole⟩

theorem infix_of_piece {word text piece : List Char} (member : piece ∈ cuts word text) :
    piece <:+: text := by
  obtain ⟨front, back, split⟩ := List.append_of_mem member
  have whole := intercalate_cuts word text
  rw [split] at whole
  cases front with
  | nil =>
    rw [List.nil_append, intercalate_cons] at whole
    exact ⟨[], _, whole⟩
  | cons first front =>
    rw [List.cons_append, intercalate_cons, List.flatMap_append, List.flatMap_cons] at whole
    exact ⟨first ++ front.flatMap (word ++ ·) ++ word, _, by simpa using whole⟩

/-- Every occurrence is cut: none is left in a piece. -/
theorem not_infix_piece {word text piece : List Char} (nonempty : word ≠ [])
    (member : piece ∈ cuts word text) : ¬ word <:+: piece := by
  induction text using cutting_induction nonempty generalizing piece with
  | nil =>
    rw [cuts_nil, List.mem_singleton] at member
    simpa [member] using nonempty
  | here behind ih =>
    rw [cuts_self_append nonempty] at member
    rcases List.mem_cons.mp member with rfl | later
    · simpa using nonempty
    · exact ih later
  | elsewhere c rest absent ih =>
    obtain ⟨first, others, pieces⟩ := List.exists_cons_of_ne_nil (cuts_ne_nil word rest)
    rw [cuts_elsewhere absent, pieces, List.modifyHead_cons] at member
    rcases List.mem_cons.mp member with rfl | later
    · intro occurs
      rcases List.infix_cons_iff.mp occurs with begins | inside
      · have front : c :: first <+: c :: rest :=
          (List.prefix_cons_inj c).mpr (first_piece_begins pieces)
        exact absent (begins.trans front)
      · exact ih (by simp [pieces]) inside
    · exact ih (by simp [pieces, later])

/-- A text without the word stays in one piece. -/
theorem cuts_of_not_infix {word text : List Char} (absent : ¬ word <:+: text) :
    cuts word text = [text] := by
  have never : NeverBegins word text [] := by
    intro start _ occurs
    rw [List.append_nil] at occurs
    exact absent (occurs.isInfix.trans (List.drop_suffix _ _).isInfix)
  simpa using cuts_append never

/-- A word does not reach over a character that it does not have. -/
theorem begins_before {word front back : List Char} {c : Char} (foreign : c ∉ word)
    (begins : word <+: front ++ c :: back) : word <+: front := by
  have upToHere : front ++ [c] <+: front ++ c :: back := ⟨back, by simp⟩
  rcases List.prefix_or_prefix_of_prefix begins upToHere with short | long
  · rcases List.prefix_concat_iff.mp short with whole | short
    · simp [whole] at foreign
    · exact short
  · exact absurd (long.subset (by simp)) foreign

/-- A character that the word does not have keeps the two sides of it apart: it only connects the
last piece in front of it with the first one behind it. -/
theorem cuts_around {word : List Char} {c : Char} (nonempty : word ≠ []) (foreign : c ∉ word)
    (left right : List Char) : ∃ front last first others, cuts word left = front ++ [last] ∧
      cuts word right = first :: others ∧
      cuts word (left ++ c :: right) = front ++ (last ++ c :: first) :: others := by
  obtain ⟨first, others, pieces⟩ := List.exists_cons_of_ne_nil (cuts_ne_nil word right)
  induction left using cutting_induction nonempty with
  | nil =>
    have absent : ¬ word <+: c :: right := by
      intro begins
      obtain ⟨d, rest, rfl⟩ := List.exists_cons_of_ne_nil nonempty
      simp [(List.cons_prefix_cons.mp begins).1] at foreign
    refine ⟨[], [], first, others, rfl, pieces, ?_⟩
    rw [List.nil_append, cuts_elsewhere absent, pieces]
    rfl
  | here behind ih =>
    obtain ⟨front, last, _, _, ofLeft, ofRight, whole⟩ := ih
    refine ⟨[] :: front, last, _, _, ?_, ofRight, ?_⟩
    · rw [cuts_self_append nonempty, ofLeft, List.cons_append]
    · rw [List.append_assoc, cuts_self_append nonempty, whole, List.cons_append]
  | elsewhere d rest absent ih =>
    obtain ⟨front, last, _, _, ofLeft, ofRight, whole⟩ := ih
    have stillAbsent : ¬ word <+: d :: (rest ++ c :: right) := by
      intro begins
      rw [← List.cons_append] at begins
      exact absent (begins_before foreign begins)
    cases front with
    | nil =>
      refine ⟨[], d :: last, _, _, ?_, ofRight, ?_⟩
      · rw [cuts_elsewhere absent, ofLeft]
        rfl
      · rw [List.cons_append, cuts_elsewhere stillAbsent, whole]
        rfl
    | cons head front =>
      refine ⟨(d :: head) :: front, last, _, _, ?_, ofRight, ?_⟩
      · rw [cuts_elsewhere absent, ofLeft]
        rfl
      · rw [List.cons_append, cuts_elsewhere stillAbsent, whole]
        rfl

end Questionnaire.Occurrences
