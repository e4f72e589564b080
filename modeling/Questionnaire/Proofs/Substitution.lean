import Questionnaire.Proofs.CollisionWarnings
import Questionnaire.Proofs.Separators

/-! Replacing the variables of a condition, taken as an operation on conditions. It acts separately on
the two sides of a character that no variable has, and a second time it changes nothing. The braces of
the result may pair up otherwise than those of the condition: one that the author left open is closed
by the next token. But what is outside of all pairs then is a part of what was free text before, and
there no variable was left. -/
namespace Questionnaire.Substitution
open Relevance Occurrences Segments Readings TableContents TableOrder CollisionWarnings Separators

/-- **Replacing variables is local.** Where a character belongs to no variable of a group, the
variables on one side of it are replaced without regard to the other side, in whatever way they overlap
there. -/
theorem variables_replaced_locally (survey : UInt64) (group : Group) (c : Char) (left right : String)
    (foreign : ∀ entry ∈ (Table.ofGroup survey group).entries, c ∉ entry.word.toList)
    (unbraced : c ≠ '\x7b') (bracelessLeft : '\x7b' ∉ left.toList)
    (bracelessRight : '\x7b' ∉ right.toList) :
    let table := Table.ofGroup survey group
    replaceVariables table (left ++ c.toString ++ right) =
      replaceVariables table left ++ c.toString ++ replaceVariables table right := by
  intro table
  have collected : Collected _ table := of_questions_collected survey group.id group.baseQuestions
  have apart : ∀ entry ∈ table.entries, entry.word ≠ "" ∧ c ∉ entry.word.toList :=
    fun entry held => ⟨(collected.given entry held).1, foreign entry held⟩
  have around := replaceChars_around apart unbraced bracelessLeft bracelessRight
  rw [← String.toList_inj]
  simpa [replaceVariables, Char.toString] using around

/-- Two questions whose names overlap each other in either order. -/
def interlocked : List Question :=
  [bareQuestion 3 "Q1Q", bareQuestion 4 "1Q1"]

/-- The names interlock on both sides of a sum; each side is read from its own beginning. -/
theorem interlocked_sides_replaced :
    let table := Table.ofGroup 1 (groupOf interlocked)
    replaceVariables table ("Q1Q1Q1" ++ '+'.toString ++ "1Q1Q") =
        replaceVariables table "Q1Q1Q1" ++ '+'.toString ++ replaceVariables table "1Q1Q" ∧
      replaceVariables table "Q1Q1Q1" = "\x7bQ1Q\x7d\x7b1Q1\x7d" ∧
      replaceVariables table "1Q1Q" = "1\x7bQ1Q\x7d" := by
  intro table
  have foreign : ∀ entry ∈ table.entries, '+' ∉ entry.word.toList := by decide +kernel
  exact ⟨variables_replaced_locally 1 (groupOf interlocked) '+' "Q1Q1Q1" "1Q1Q" foreign (by decide)
    (by decide) (by decide), by decide +kernel, by decide +kernel⟩

/-- A piece that is free text, or whose translation is one bracketed run from end to end. -/
def Sealed (piece : Piece) : Prop :=
  piece.IsPlain ∨ ∃ inside, piece.translated = '\x7b' :: inside ++ ['\x7d'] ∧ '\x7d' ∉ inside

/-- Pieces that can be told apart in their translation. -/
structure Legible (pieces : List Piece) : Prop where
  closed : ∀ piece ∈ pieces, Sealed piece
  apart : pieces.IsChain Apart

/-- Every free text of some pieces is a part of a free text of others. -/
def Within (later pieces : List Piece) : Prop :=
  ∀ chars, .plain chars ∈ later → ∃ whole, .plain whole ∈ pieces ∧ chars <:+: whole

private theorem Legible.tail {piece : Piece} {rest : List Piece} (legible : Legible (piece :: rest)) :
    Legible rest :=
  ⟨fun other member => legible.closed other (List.mem_cons_of_mem _ member), legible.apart.tail⟩

private theorem within_tail (piece : Piece) (rest : List Piece) : Within rest (piece :: rest) :=
  fun chars member => ⟨chars, List.mem_cons_of_mem _ member, List.infix_rfl⟩

private theorem Within.trans {first second third : List Piece} (left : Within first second)
    (right : Within second third) : Within first third := by
  intro chars member
  obtain ⟨whole, held, part⟩ := left chars member
  obtain ⟨outer, outerHeld, outerPart⟩ := right whole held
  exact ⟨outer, outerHeld, part.trans outerPart⟩

/-- The rest of a free text stands where the free text stood. -/
theorem Legible.shortened {chars front back : List Char} {rest : List Piece}
    (legible : Legible (.plain chars :: rest)) (split : chars = front ++ back) :
    Legible (.plain back :: rest) ∧ Within (.plain back :: rest) (.plain chars :: rest) := by
  refine ⟨⟨?_, ?_⟩, ?_⟩
  · intro piece member
    rcases List.mem_cons.mp member with rfl | later
    · exact .inl trivial
    · exact legible.tail.closed piece later
  · have chain := List.isChain_cons.mp legible.apart
    exact List.isChain_cons.mpr ⟨fun next here both => chain.1 next here ⟨trivial, both.2⟩, chain.2⟩
  · intro part member
    rcases List.mem_cons.mp member with same | later
    · cases same
      exact ⟨chars, List.mem_cons_self, front, [], by simp [split]⟩
    · exact within_tail _ _ part later

/-- The only closing brace of a bracketed run is its last character. -/
theorem run_closed_at_end {inside front tail : List Char} (unclosed : '\x7d' ∉ inside)
    (run : '\x7b' :: inside ++ ['\x7d'] = front ++ '\x7d' :: tail) : tail = [] := by
  cases tail using List.reverseRecOn with
  | nil => rfl
  | append_singleton tail last =>
    have ends : '\x7b' :: inside ++ ['\x7d'] = (front ++ '\x7d' :: tail) ++ [last] := by
      simpa using run
    have member : '\x7d' ∈ '\x7b' :: inside := by
      rw [(List.append_inj' ends rfl).1]
      simp
    simp [unclosed] at member

/-- Behind a closing brace of a translation pieces go on: the brace ends a bracketed run, or it stands
in free text, of which the rest is left. -/
theorem behind_closing_brace {pieces : List Piece} {front behind : List Char}
    (legible : Legible pieces)
    (whole : pieces.flatMap Piece.translated = front ++ '\x7d' :: behind) :
    ∃ later, later.flatMap Piece.translated = behind ∧ Legible later ∧ Within later pieces := by
  induction pieces generalizing front with
  | nil => simp at whole
  | cons piece rest ih =>
    have beyond {start : List Char} (there : rest.flatMap Piece.translated = start ++ '\x7d' :: behind) :
        ∃ later, later.flatMap Piece.translated = behind ∧ Legible later ∧
          Within later (piece :: rest) := by
      obtain ⟨later, same, apart, within⟩ := ih legible.tail there
      exact ⟨later, same, apart, within.trans (within_tail piece rest)⟩
    rw [List.flatMap_cons] at whole
    rcases List.append_eq_append_iff.mp whole with ⟨start, _, there⟩ | ⟨left, here, there⟩
    · exact beyond there
    · cases left with
      | nil => exact @beyond [] there.symm
      | cons brace tail =>
        obtain ⟨rfl, same⟩ := List.cons.inj there
        rcases legible.closed piece List.mem_cons_self with plain | ⟨inside, run, unclosed⟩
        · cases piece with
          | bracketed => cases plain
          | marked => cases plain
          | plain chars =>
            have split : chars = (front ++ ['\x7d']) ++ tail := by
              simpa [Piece.translated] using here
            obtain ⟨apart, within⟩ := legible.shortened split
            exact ⟨.plain tail :: rest, same.symm, apart, within⟩
        · obtain rfl := run_closed_at_end unclosed (run.symm.trans here)
          exact ⟨rest, same.symm, legible.tail, within_tail piece rest⟩

/-- A translation without a brace that is closed is free text altogether. -/
theorem unclosed_translation {pieces : List Piece} (legible : Legible pieces)
    (unclosed : ∀ front back, pieces.flatMap Piece.translated = front ++ '\x7b' :: back →
      '\x7d' ∉ back) :
    pieces = [] ∨ ∃ chars, pieces = [.plain chars] := by
  have plain : ∀ piece ∈ pieces, piece.IsPlain := by
    intro piece member
    rcases legible.closed piece member with plain | ⟨inside, run, _⟩
    · exact plain
    · obtain ⟨front, back, rfl⟩ := List.append_of_mem member
      have closes := unclosed (front.flatMap Piece.translated)
        (inside ++ '\x7d' :: back.flatMap Piece.translated) (by simp [run])
      simp at closes
  cases pieces with
  | nil => exact .inl rfl
  | cons piece rest =>
    have first := plain piece List.mem_cons_self
    cases rest with
    | nil =>
      cases piece with
      | bracketed => cases first
      | marked => cases first
      | plain chars => exact .inr ⟨chars, rfl⟩
    | cons next rest =>
      have apart := (List.isChain_cons_cons.mp legible.apart).1
      exact absurd ⟨first, plain next (by simp)⟩ apart

private theorem nothing_before_brace {start tail behind : List Char} (unopened : '\x7b' ∉ start)
    (opens : '\x7b' :: tail = start ++ '\x7b' :: behind) : start = [] := by
  cases start with
  | nil => rfl
  | cons c start =>
    obtain ⟨rfl, _⟩ := List.cons.inj opens
    simp at unopened

/-- What is in front of the first opening brace of a translation is in its first free text. -/
theorem before_opening_brace {pieces : List Piece} {before behind : List Char}
    (legible : Legible pieces) (unopened : '\x7b' ∉ before) (nonempty : before ≠ [])
    (whole : pieces.flatMap Piece.translated = before ++ '\x7b' :: behind) :
    ∃ chars, .plain chars ∈ pieces ∧ before <:+: chars := by
  cases pieces with
  | nil => simp at whole
  | cons piece rest =>
    rw [List.flatMap_cons] at whole
    rcases legible.closed piece List.mem_cons_self with plain | ⟨inside, run, _⟩
    · cases piece with
      | bracketed => cases plain
      | marked => cases plain
      | plain chars =>
        refine ⟨chars, List.mem_cons_self, ?_⟩
        rcases List.append_eq_append_iff.mp whole with ⟨start, front, there⟩ | ⟨left, here, _⟩
        · -- Free text is followed by a bracketed run, which opens at once.
          have startUnopened : '\x7b' ∉ start := fun member => unopened (by simp [front, member])
          cases rest with
          | nil => simp at there
          | cons next rest =>
            have apart := (List.isChain_cons_cons.mp legible.apart).1
            rcases legible.closed next (by simp) with nextPlain | ⟨inside, run, _⟩
            · exact absurd ⟨trivial, nextPlain⟩ apart
            · rw [List.flatMap_cons, run] at there
              obtain rfl := nothing_before_brace startUnopened there
              rw [front, List.append_nil]
              exact List.infix_rfl
        · exact ⟨[], left, by simpa [Piece.translated] using here.symm⟩
    · rw [run] at whole
      exact absurd (nothing_before_brace unopened whole) nonempty

/-- **Free text of a result is free text of the condition.** What is outside of the braces of a
translation is a part of a free text among the translated pieces. -/
theorem text_of_result {pieces : List Piece} {chars : List Char} (legible : Legible pieces)
    (free : .text chars ∈ segmentsOf (pieces.flatMap Piece.translated)) :
    ∃ whole, .plain whole ∈ pieces ∧ chars <:+: whole := by
  generalize result : pieces.flatMap Piece.translated = text at free
  induction text using segmentsOf.induct generalizing pieces with
  | case1 text missing =>
    rw [segmentsOf_unbracketed missing] at free
    obtain ⟨rfl, nonempty⟩ := mem_ofText free
    rcases unclosed_translation legible fun front back opens =>
      unclosed_of_unbracketed missing (result.symm.trans opens) with rfl | ⟨whole, rfl⟩
    · exact absurd result.symm nonempty
    · refine ⟨whole, List.mem_cons_self, ?_⟩
      rw [← result]
      simp [Piece.translated]
  | case2 text before token behind found ih =>
    obtain ⟨split, inside, rfl, unclosed⟩ := firstBracketed?_spec found
    rw [segmentsOf_bracketed found] at free
    rcases List.mem_append.mp free with inFront | later
    · obtain ⟨rfl, nonempty⟩ := mem_ofText inFront
      have opens : pieces.flatMap Piece.translated =
          chars ++ '\x7b' :: (inside ++ '\x7d' :: behind) := by
        simpa [split] using result
      exact before_opening_brace legible (firstBracketed?_unopened found) nonempty opens
    · have closes : pieces.flatMap Piece.translated =
          (before ++ '\x7b' :: inside) ++ '\x7d' :: behind := by
        simpa [split] using result
      obtain ⟨rest, same, restLegible, within⟩ := behind_closing_brace legible closes
      have free : .text chars ∈ segmentsOf behind := by simpa using later
      obtain ⟨part, held, infixPart⟩ := ih restLegible same free
      obtain ⟨whole, wholeHeld, infixWhole⟩ := within part held
      exact ⟨whole, wholeHeld, infixPart.trans infixWhole⟩

/-- Where no free text has a variable, nothing is replaced. -/
theorem replaceChars_of_absent {table : Table} {text : List Char}
    (absent : ∀ chars, .text chars ∈ segmentsOf text →
      ∀ entry ∈ table.entries, ¬ entry.word.toList <:+: chars) :
    replaceChars table text = text := by
  have kept : ∀ segment ∈ segmentsOf text,
      (readSegment table.entries segment).flatMap Piece.translated = segment.chars := by
    intro segment member
    cases segment with
    | token chars => simp [readSegment, Piece.translated, Segment.chars]
    | text chars =>
      rw [readSegment, readText_of_absent (absent chars member), Piece.ofText_translated]
      rfl
  rw [replaceChars_eq, reading, List.flatMap_assoc]
  calc (segmentsOf text).flatMap (fun segment =>
        (readSegment table.entries segment).flatMap Piece.translated)
      = (segmentsOf text).flatMap Segment.chars := List.flatMap_congr kept
    _ = text := segmentsOf_chars text

/-- No name of a question, of its subquestions and none of the codes of its answers closes a brace. -/
structure Unclosing (question : Question) : Prop where
  name : '\x7d' ∉ question.name.toList
  rows : ∀ row ∈ question.subquestions, '\x7d' ∉ row.name.toList
  answers : ∀ answer ∈ question.answers, '\x7d' ∉ answer.code.toList

/-- Then no tag does. -/
theorem Spells.tag_unclosing {survey group : UInt64} {questions : List Question} {word : String}
    {origin : Origin} (spells : Spells survey group questions word origin)
    (named : ∀ question ∈ questions, Unclosing question) : '\x7d' ∉ origin.tag.toList := by
  cases spells with
  | name asked => exact (named _ asked).name
  | id asked => exact (named _ asked).name
  | rowTag asked nested =>
    simp [Origin.tag, memberTag, (named _ asked).name, (named _ asked).rows _ nested]
  | rowId asked nested =>
    simp [Origin.tag, memberTag, (named _ asked).name, (named _ asked).rows _ nested]
  | answerTag asked offered =>
    simp [Origin.tag, memberTag, (named _ asked).name, (named _ asked).answers _ offered]

/-- The pieces of a condition are legible if the tokens of the table are. -/
theorem reading_legible {table : Table}
    (bracketed : ∀ entry ∈ table.entries, Bracketed entry.token.toList) (condition : List Char) :
    Legible (reading table condition) := by
  refine ⟨fun piece member => ?_, reading_apart table condition⟩
  rcases mem_reading member with ⟨inside, rfl, unclosed⟩ | ⟨text, ofText⟩
  · exact .inr ⟨inside, rfl, unclosed⟩
  · rcases mem_readText ofText with ⟨entry, held, rfl⟩ | ⟨chars, rfl, _⟩
    · exact .inr (bracketed entry held)
    · exact .inl trivial

/-- **Replacing variables once is enough.** In a group whose names close no brace, the variables of any
condition, with whatever braces its author wrote, left open or closed twice, are replaced once: a second
time nothing changes. -/
theorem replaced_again_unchanged (survey : UInt64) (group : Group) (condition : String)
    (named : ∀ question ∈ group.baseQuestions, Unclosing question) :
    let table := Table.ofGroup survey group
    replaceVariables table (replaceVariables table condition) = replaceVariables table condition := by
  intro table
  have collected : Collected _ table := of_questions_collected survey group.id group.baseQuestions
  have nonempty : ∀ entry ∈ table.entries, entry.word ≠ "" :=
    fun entry held => (collected.given entry held).1
  have bracketed : ∀ entry ∈ table.entries, Bracketed entry.token.toList := by
    intro entry held
    rw [collected.token_eq held]
    exact ⟨entry.origin.tag.toList, by simp [braced],
      Spells.tag_unclosing (collected.spells held) named⟩
  have legible := reading_legible bracketed condition.toList
  rw [← String.toList_inj]
  simp only [replaceVariables, String.toList_ofList]
  apply replaceChars_of_absent
  intro chars free entry held occurs
  rw [replaceChars_eq] at free
  obtain ⟨whole, plain, part⟩ := text_of_result legible free
  rcases mem_reading plain with ⟨_, bracketed, _⟩ | ⟨text, ofText⟩
  · cases bracketed
  · exact readText_exhausted nonempty ofText entry held (occurs.trans part)

/-- The brace that the author left open is closed by the token behind it, and what stands between them
is not looked at again. -/
theorem open_brace_replaced_once :
    let table := Table.ofGroup 1 (groupOf overlapping)
    (∀ question ∈ (groupOf overlapping).baseQuestions, Unclosing question) ∧
      replaceVariables table "\x7d Q1_A \x7bQ1\x7d \x7b Q1 1X2X4 \x7b" =
        "\x7d \x7bQ1_A\x7d \x7bQ1\x7d \x7b \x7bQ1\x7d \x7bQ1_A\x7d \x7b" ∧
      replaceVariables table
          (replaceVariables table "\x7d Q1_A \x7bQ1\x7d \x7b Q1 1X2X4 \x7b") =
        replaceVariables table "\x7d Q1_A \x7bQ1\x7d \x7b Q1 1X2X4 \x7b" := by
  intro table
  have named : ∀ question ∈ (groupOf overlapping).baseQuestions, Unclosing question := by
    intro question asked
    rcases List.mem_cons.mp asked with rfl | asked
    · refine ⟨by decide, fun row nested => ?_, by simp [questionWithRow, bareQuestion]⟩
      obtain rfl := List.mem_singleton.mp nested
      decide
    · obtain rfl := List.mem_singleton.mp asked
      exact ⟨by decide, by simp [bareQuestion], by simp [bareQuestion]⟩
  exact ⟨named, by decide +kernel, replaced_again_unchanged 1 (groupOf overlapping) _ named⟩

end Questionnaire.Substitution
