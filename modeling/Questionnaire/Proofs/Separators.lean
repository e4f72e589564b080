import Questionnaire.Proofs.Readings
import Questionnaire.Proofs.Replacement

/-! Characters that keep the two sides of a condition apart. Where a character belongs to no word that
is looked for, respelling operators and replacing variables act on the text in front of it and on the
text behind it separately, however the words may overlap there. -/
namespace Questionnaire.Separators
open Relevance Occurrences Replacement Segments Readings TableContents

private theorem intercalate_around {α : Type} (separator : List α) (front : List (List α))
    (last first : List α) (others : List (List α)) (x : α) :
    separator.intercalate (front ++ (last ++ x :: first) :: others) =
      separator.intercalate (front ++ [last]) ++ x :: separator.intercalate (first :: others) := by
  cases front with
  | nil => simp [intercalate_cons]
  | cons head front => simp [intercalate_cons]

/-- Replacing a word acts separately around a character that it does not have. -/
theorem replaceAll_around {word : List Char} {c : Char} (nonempty : word ≠ []) (foreign : c ∉ word)
    (other left right : List Char) :
    Text.replaceAll word other (left ++ c :: right) =
      Text.replaceAll word other left ++ c :: Text.replaceAll word other right := by
  obtain ⟨front, last, first, others, ofLeft, ofRight, whole⟩ :=
    cuts_around nonempty foreign left right
  rw [Text.replaceAll, Text.replaceAll, Text.replaceAll, ofLeft, ofRight, whole,
    intercalate_around]

/-- What is in a text after a replacement was there before or has been put in. -/
theorem mem_replaceAll {word other text : List Char} {c : Char}
    (member : c ∈ Text.replaceAll word other text) : c ∈ other ∨ c ∈ text := by
  rcases mem_intercalate member with putIn | ⟨piece, ofText, inside⟩
  · exact .inl putIn
  · exact .inr ((infix_of_piece ofText).subset inside)

/-- Respellings of words that do not occur leave a text as it is. -/
theorem foldl_replaceAll_of_absent {spellings : List (String × String)} {text : List Char}
    (absent : ∀ spelling ∈ spellings, ¬ spelling.1.toList <:+: text) :
    spellings.foldl
      (fun text spelling => Text.replaceAll spelling.1.toList spelling.2.toList text) text = text := by
  induction spellings with
  | nil => rfl
  | cons spelling rest ih =>
    rw [List.foldl_cons, replaceAll_of_absent _ (absent spelling (by simp))]
    exact ih fun other member => absent other (List.mem_cons_of_mem _ member)

/-- Respellings act separately around a character that is in none of the spellings they replace. -/
theorem foldl_replaceAll_around {spellings : List (String × String)} {c : Char}
    (foreign : ∀ spelling ∈ spellings, spelling.1.toList ≠ [] ∧ c ∉ spelling.1.toList)
    (left right : List Char) :
    let respell := fun (text : List Char) (spelling : String × String) =>
      Text.replaceAll spelling.1.toList spelling.2.toList text
    spellings.foldl respell (left ++ c :: right) =
      spellings.foldl respell left ++ c :: spellings.foldl respell right := by
  intro respell
  induction spellings generalizing left right with
  | nil => rfl
  | cons spelling rest ih =>
    obtain ⟨nonempty, absent⟩ := foreign spelling (by simp)
    have later := fun spelling member => foreign spelling (List.mem_cons_of_mem _ member)
    rw [List.foldl_cons, List.foldl_cons, List.foldl_cons]
    simp only [respell, replaceAll_around nonempty absent]
    exact ih later _ _

/-- No operator has a blank, so operators are respelled separately around it. -/
theorem respellChars_around_blank (left right : List Char) :
    respellChars (left ++ ' ' :: right) = respellChars left ++ ' ' :: respellChars right :=
  foldl_replaceAll_around (by decide) left right

private theorem braceless_foldl_replaceAll {spellings : List (String × String)} {text : List Char}
    (braceless : '\x7b' ∉ text) (free : ∀ spelling ∈ spellings, '\x7b' ∉ spelling.2.toList) :
    '\x7b' ∉ spellings.foldl
      (fun text spelling => Text.replaceAll spelling.1.toList spelling.2.toList text) text := by
  induction spellings generalizing text with
  | nil => exact braceless
  | cons spelling rest ih =>
    refine ih (fun member => ?_) fun spelling member => free spelling (List.mem_cons_of_mem _ member)
    rcases mem_replaceAll member with putIn | before
    · exact free spelling (by simp) putIn
    · exact braceless before

/-- Respelling operators brings no brace into a condition. -/
theorem braceless_respellChars {text : List Char} (braceless : '\x7b' ∉ text) :
    '\x7b' ∉ respellChars text :=
  braceless_foldl_replaceAll braceless (by decide)

/-- Free text with its variables replaced. -/
def replaceText (entries : List Spelling) (text : List Char) : List Char :=
  (readText entries text).flatMap Piece.translated

private theorem replaceText_cons (entry : Spelling) (later : List Spelling) (text : List Char) :
    replaceText (entry :: later) text =
      entry.token.toList.intercalate
        ((Text.cuts entry.word.toList text).map (replaceText later)) := by
  rw [replaceText, readText, flatMap_intercalate, List.map_map]
  simp only [List.flatMap_singleton, Piece.translated]
  rfl

theorem replaceChars_braceless {table : Table} {condition : List Char}
    (braceless : '\x7b' ∉ condition) :
    replaceChars table condition = replaceText table.entries condition := by
  rw [replaceChars_eq, reading, segmentsOf_braceless braceless, readSegment_ofText, replaceText]

/-- Variables are replaced separately around a character that none of them has. -/
theorem replaceText_around {entries : List Spelling} {c : Char}
    (foreign : ∀ entry ∈ entries, entry.word ≠ "" ∧ c ∉ entry.word.toList) (left right : List Char) :
    replaceText entries (left ++ c :: right) =
      replaceText entries left ++ c :: replaceText entries right := by
  induction entries generalizing left right with
  | nil =>
    simp only [replaceText, readText, Piece.ofText_translated]
  | cons entry later ih =>
    obtain ⟨nonempty, absent⟩ := foreign entry (by simp)
    have around := ih fun other held => foreign other (List.mem_cons_of_mem _ held)
    obtain ⟨front, last, first, others, ofLeft, ofRight, whole⟩ :=
      cuts_around (by simpa using nonempty) absent left right
    rw [replaceText_cons, replaceText_cons, replaceText_cons, ofLeft, ofRight, whole]
    simp only [List.map_append, List.map_cons, List.map_nil, around]
    rw [intercalate_around]

/-- Free text either has no variable of a table, or one of them is marked in it. -/
theorem readText_cases {entries : List Spelling} (nonempty : ∀ entry ∈ entries, entry.word ≠ "")
    (text : List Char) :
    (readText entries text = Piece.ofText text ∧
      ∀ entry ∈ entries, ¬ entry.word.toList <:+: text) ∨
    ∃ entry ∈ entries, .marked entry.word entry.token ∈ readText entries text := by
  induction entries with
  | nil => exact .inl ⟨rfl, by simp⟩
  | cons entry later ih =>
    by_cases occurs : entry.word.toList <:+: text
    · right
      refine ⟨entry, by simp, ?_⟩
      have filled : entry.word.toList ≠ [] := by simpa using nonempty entry (by simp)
      obtain ⟨first, others, pieces⟩ :=
        List.exists_cons_of_ne_nil (cuts_ne_nil entry.word.toList text)
      cases others with
      | nil =>
        have whole := intercalate_cuts entry.word.toList text
        rw [pieces, List.intercalate_singleton] at whole
        have inOnePiece : text ∈ Text.cuts entry.word.toList text := by simp [pieces, whole]
        exact absurd occurs (not_infix_piece filled inOnePiece)
      | cons second rest =>
        rw [readText, pieces, List.map_cons, List.map_cons, List.intercalate_cons_cons]
        simp
    · have unread : readText (entry :: later) text = readText later text := by
        simp [readText, cuts_of_not_infix occurs]
      rw [unread]
      rcases ih fun other held => nonempty other (List.mem_cons_of_mem _ held) with
        ⟨same, absent⟩ | ⟨other, held, marked⟩
      · refine .inl ⟨same, fun other held => ?_⟩
        rcases List.mem_cons.mp held with rfl | held
        · exact occurs
        · exact absent other held
      · exact .inr ⟨other, List.mem_cons_of_mem _ held, marked⟩

/-- Text without an opening brace stays as it is exactly if no variable occurs in it: a token would
bring a brace in. -/
theorem replaceText_eq_self_iff {entries : List Spelling} {text : List Char}
    (nonempty : ∀ entry ∈ entries, entry.word ≠ "")
    (opened : ∀ entry ∈ entries, '\x7b' ∈ entry.token.toList) (braceless : '\x7b' ∉ text) :
    replaceText entries text = text ↔ ∀ entry ∈ entries, ¬ entry.word.toList <:+: text := by
  rcases readText_cases nonempty text with ⟨unread, absent⟩ | ⟨entry, held, marked⟩
  · have same : replaceText entries text = text := by
      rw [replaceText, unread, Piece.ofText_translated]
    exact iff_of_true same absent
  · refine iff_of_false (fun same => braceless ?_) fun absent => ?_
    · rw [← same]
      exact List.mem_flatMap.mpr ⟨_, marked, opened entry held⟩
    · have occurs : entry.word.toList <:+: (readText entries text).flatMap Piece.written := by
        obtain ⟨front, back, split⟩ := List.append_of_mem marked
        rw [split, List.flatMap_append, List.flatMap_cons]
        exact ⟨front.flatMap Piece.written, back.flatMap Piece.written, by simp [Piece.written]⟩
      rw [readText_written] at occurs
      exact absent entry held occurs

/-- **Replacing variables is local.** -/
theorem replaceChars_around {table : Table} {c : Char} {left right : List Char}
    (foreign : ∀ entry ∈ table.entries, entry.word ≠ "" ∧ c ∉ entry.word.toList)
    (unbraced : c ≠ '\x7b') (bracelessLeft : '\x7b' ∉ left) (bracelessRight : '\x7b' ∉ right) :
    replaceChars table (left ++ c :: right) =
      replaceChars table left ++ c :: replaceChars table right := by
  have braceless : '\x7b' ∉ left ++ c :: right := by
    simp [bracelessLeft, bracelessRight, Ne.symm unbraced]
  rw [replaceChars_braceless braceless, replaceChars_braceless bracelessLeft,
    replaceChars_braceless bracelessRight, replaceText_around foreign]

/-- A name of letters, digits and underscores of ASCII. -/
def PlainName (name : String) : Prop :=
  ∀ c ∈ name.toList, c.isAlphanum = true ∨ c = '_'

instance (name : String) : Decidable (PlainName name) :=
  List.decidableBAll _ name.toList

/-- A question whose own name, whose subquestions' names and whose answers' codes are plain. -/
structure PlainlyNamed (question : Question) : Prop where
  name : PlainName question.name
  rows : ∀ row ∈ question.subquestions, PlainName row.name
  answers : ∀ answer ∈ question.answers, PlainName answer.code

private theorem PlainName.append {first second : String} (left : PlainName first)
    (right : PlainName second) : PlainName (first ++ second) := by
  intro c member
  rw [String.toList_append] at member
  rcases List.mem_append.mp member with here | there
  · exact left c here
  · exact right c there

private theorem plain_memberTag {parent child : String} (first : PlainName parent)
    (second : PlainName child) : PlainName (memberTag parent child) :=
  (first.append (by decide)).append second

theorem toString_chars (number : UInt64) :
    (toString number).toList = Nat.toDigits 10 number.toNat := by
  change (Nat.repr number.toNat).toList = _
  rw [Nat.repr_eq_ofList_toDigits, String.toList_ofList]

private theorem isDigit_of_mem_toString {number : UInt64} {c : Char}
    (member : c ∈ (toString number).toList) :
    c.isDigit = true := by
  rw [toString_chars] at member
  exact Nat.isDigit_of_mem_toDigits (by decide) (by decide) member

/-- A positional identifier is written with digits and its separator. -/
theorem mem_positionalId {survey group question : UInt64} {c : Char}
    (member : c ∈ (positionalId survey group question).toList) : c.isDigit = true ∨ c = 'X' := by
  have mark : (toString "X").toList = ['X'] := rfl
  simp only [positionalId, String.toList_append, mark, List.mem_append, List.mem_singleton]
    at member
  rcases member with (((digit | mark) | digit) | mark) | digit
  · exact .inl (isDigit_of_mem_toString digit)
  · exact .inr mark
  · exact .inl (isDigit_of_mem_toString digit)
  · exact .inr mark
  · exact .inl (isDigit_of_mem_toString digit)

private theorem plain_positionalId (survey group question : UInt64) :
    PlainName (positionalId survey group question) := by
  intro c member
  rcases mem_positionalId member with digit | rfl
  · exact .inl (by simp [Char.isAlphanum, digit])
  · exact .inl (by decide)

/-- If the names of a group are plain, so are its variables. -/
theorem Spells.plain {survey group : UInt64} {questions : List Question} {word : String}
    {origin : Origin} (spells : Spells survey group questions word origin)
    (named : ∀ question ∈ questions, PlainlyNamed question) : PlainName word := by
  cases spells with
  | name asked => exact (named _ asked).name
  | id asked => exact plain_positionalId _ _ _
  | rowTag asked nested => exact plain_memberTag (named _ asked).name ((named _ asked).rows _ nested)
  | rowId asked nested => exact plain_positionalId _ _ _
  | answerTag asked offered =>
    exact plain_memberTag (named _ asked).name ((named _ asked).answers _ offered)

end Questionnaire.Separators
