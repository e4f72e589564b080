import Mathlib.Data.List.Chain
import Questionnaire.Proofs.Segments
import Questionnaire.Proofs.TableContents

/-! How a condition is read. It falls into pieces: bracketed runs, which stay, variables, which become
tokens, and free text between them, in which no variable is left. A variable of the table cuts each
piece of free text by itself, so the reading is a recursion on the table: what the later variables do
in one piece does not depend on the others. -/
namespace Questionnaire.Readings
open Relevance Occurrences Segments TableContents

/-- A piece of a condition: a bracketed run, a variable with its token, or free text. -/
inductive Piece where
  | bracketed (chars : List Char)
  | marked (word token : String)
  | plain (chars : List Char)

namespace Piece

/-- A piece as it stands in the condition. -/
def written : Piece → List Char
  | bracketed chars => chars
  | marked word _ => word.toList
  | plain chars => chars

/-- A piece in the form's notation: only variables are replaced. -/
def translated : Piece → List Char
  | bracketed chars => chars
  | marked _ token => token.toList
  | plain chars => chars

def IsPlain : Piece → Prop
  | plain _ => True
  | _ => False

/-- A piece as a segment: what the form's notation has between braces is not looked at again. -/
def segment : Piece → Segment
  | bracketed chars => .token chars
  | marked _ token => .token token.toList
  | plain chars => .text chars

/-- Free text as pieces; empty text is none. -/
def ofText : List Char → List Piece
  | [] => []
  | c :: rest => [.plain (c :: rest)]

theorem ofText_translated (text : List Char) : (ofText text).flatMap translated = text := by
  cases text <;> simp [ofText, translated]

private theorem segment_chars (piece : Piece) : piece.segment.chars = piece.translated := by
  cases piece <;> rfl

end Piece

/-- Two pieces that may follow each other: one of them is no free text. -/
def Apart (first second : Piece) : Prop :=
  ¬ (first.IsPlain ∧ second.IsPlain)

/-- The pieces into which the variables of a table, in order, cut free text. -/
def readText : List Spelling → List Char → List Piece
  | [], text => Piece.ofText text
  | entry :: later, text =>
    [.marked entry.word entry.token].intercalate
      ((Text.cuts entry.word.toList text).map (readText later))

/-- The pieces of a segment. -/
def readSegment (entries : List Spelling) : Segment → List Piece
  | .token chars => [.bracketed chars]
  | .text chars => readText entries chars

/-- The pieces of a condition. -/
def reading (table : Table) (condition : List Char) : List Piece :=
  (segmentsOf condition).flatMap (readSegment table.entries)

theorem flatMap_intercalate {α β : Type} (f : α → List β) (separator : List α)
    (parts : List (List α)) :
    (separator.intercalate parts).flatMap f =
      (separator.flatMap f).intercalate (parts.map (List.flatMap f)) := by
  cases parts with
  | nil => rfl
  | cons first others =>
    rw [List.map_cons, intercalate_cons, intercalate_cons, List.flatMap_append]
    simp [List.flatMap_map, List.flatMap_assoc]

theorem mem_intercalate {α : Type} {separator : List α} {parts : List (List α)} {x : α}
    (member : x ∈ separator.intercalate parts) : x ∈ separator ∨ ∃ part ∈ parts, x ∈ part := by
  cases parts with
  | nil => cases member
  | cons first others =>
    rw [intercalate_cons] at member
    rcases List.mem_append.mp member with here | later
    · exact .inr ⟨first, by simp, here⟩
    · obtain ⟨part, held, inside⟩ := List.mem_flatMap.mp later
      rcases List.mem_append.mp inside with between | inside
      · exact .inl between
      · exact .inr ⟨part, by simp [held], inside⟩

/-- Nothing gets lost in reading. -/
theorem readText_written (entries : List Spelling) (text : List Char) :
    (readText entries text).flatMap Piece.written = text := by
  induction entries generalizing text with
  | nil => cases text <;> simp [readText, Piece.ofText, Piece.written]
  | cons entry later ih =>
    rw [readText, flatMap_intercalate, List.map_map]
    have pieces : List.flatMap Piece.written ∘ readText later = id := funext ih
    simpa [pieces, Piece.written] using intercalate_cuts entry.word.toList text

/-- Going through the table marks free text as it is read. -/
theorem foldl_markEntry_ofText (entries : List Spelling) (text : List Char) :
    entries.foldl markEntry (Segment.ofText text) = (readText entries text).map Piece.segment := by
  induction entries generalizing text with
  | nil => cases text <;> rfl
  | cons entry later ih =>
    obtain ⟨first, others, pieces⟩ :=
      List.exists_cons_of_ne_nil (cuts_ne_nil entry.word.toList text)
    have between (parts : List (List Char)) :
        later.foldl markEntry (marksBetween entry.token.toList parts) =
          parts.flatMap fun part =>
            .token entry.token.toList :: (readText later part).map Piece.segment := by
      induction parts with
      | nil => simp [marksBetween]
      | cons part rest ihParts =>
        rw [marksBetween] at ihParts ⊢
        rw [List.flatMap_cons, List.flatMap_cons, foldl_markEntry_append, foldl_markEntry_token,
          ih, ihParts]
    rw [List.foldl_cons, markEntry_ofText pieces, foldl_markEntry_append, ih, between, readText,
      pieces, List.map_cons, intercalate_cons]
    simp [List.flatMap_map, List.map_flatMap, Piece.segment]

/-- Each piece comes from one entry, or it is what all entries have left. -/
theorem mem_readText {entries : List Spelling} {text : List Char} {piece : Piece}
    (member : piece ∈ readText entries text) :
    (∃ entry ∈ entries, piece = .marked entry.word entry.token) ∨
      ∃ chars, piece = .plain chars ∧ chars <:+: text := by
  induction entries generalizing text with
  | nil =>
    cases text with
    | nil => cases member
    | cons c rest => exact .inr ⟨_, List.mem_singleton.mp member, List.infix_rfl⟩
  | cons entry later ih =>
    rcases mem_intercalate member with mark | ⟨_, part, inside⟩
    · exact .inl ⟨entry, by simp, List.mem_singleton.mp mark⟩
    · obtain ⟨cut, ofText, rfl⟩ := List.mem_map.mp part
      rcases ih inside with ⟨other, held, same⟩ | ⟨chars, same, within⟩
      · exact .inl ⟨other, by simp [held], same⟩
      · exact .inr ⟨chars, same, within.trans (infix_of_piece ofText)⟩

/-- No variable is left in free text: each has been cut out when its turn came, and what is left of a
text is a part of it ever after. -/
theorem readText_exhausted {entries : List Spelling} {text chars : List Char}
    (nonempty : ∀ entry ∈ entries, entry.word ≠ "")
    (member : .plain chars ∈ readText entries text) :
    ∀ entry ∈ entries, ¬ entry.word.toList <:+: chars := by
  induction entries generalizing text with
  | nil => simp
  | cons entry later ih =>
    rcases mem_intercalate member with mark | ⟨_, part, inside⟩
    · simp at mark
    · obtain ⟨cut, ofText, rfl⟩ := List.mem_map.mp part
      intro other held
      rcases List.mem_cons.mp held with rfl | held
      · have filled : other.word.toList ≠ [] := by simpa using nonempty other (by simp)
        rcases mem_readText inside with ⟨_, _, marked⟩ | ⟨rest, same, within⟩
        · cases marked
        · cases same
          exact fun occurs => not_infix_piece filled ofText (occurs.trans within)
      · exact ih (fun entry held => nonempty entry (by simp [held])) inside other held

/-- Text in which no variable occurs is read as one piece. -/
theorem readText_of_absent {entries : List Spelling} {text : List Char}
    (absent : ∀ entry ∈ entries, ¬ entry.word.toList <:+: text) :
    readText entries text = Piece.ofText text := by
  induction entries with
  | nil => rfl
  | cons entry later ih =>
    have unread : readText (entry :: later) text = readText later text := by
      simp [readText, cuts_of_not_infix (absent entry List.mem_cons_self)]
    rw [unread]
    exact ih fun other held => absent other (List.mem_cons_of_mem _ held)

private theorem isChain_append_separator {front back : List Piece} {separator : Piece}
    (special : ¬ separator.IsPlain) (first : front.IsChain Apart) (second : back.IsChain Apart) :
    (front ++ separator :: back).IsChain Apart := by
  have behind : (separator :: back).IsChain Apart := by
    cases back with
    | nil => exact .singleton _
    | cons piece rest => exact .cons_cons (fun both => special both.1) second
  refine List.isChain_append.mpr ⟨first, behind, ?_⟩
  intro last _ next here
  rw [List.head?_cons, Option.mem_some_iff] at here
  exact fun both => special (here ▸ both.2)

private theorem isChain_intercalate {separator : Piece} {parts : List (List Piece)}
    (special : ¬ separator.IsPlain) (each : ∀ part ∈ parts, part.IsChain Apart) :
    ([separator].intercalate parts).IsChain Apart := by
  induction parts with
  | nil => exact .nil
  | cons first others ih =>
    have later := ih fun part member => each part (List.mem_cons_of_mem _ member)
    cases others with
    | nil => simpa using each first (by simp)
    | cons second rest =>
      rw [List.intercalate_cons_cons, List.append_assoc]
      exact isChain_append_separator special (each first (by simp)) later

/-- Between two pieces of free text there is a variable. -/
theorem readText_apart (entries : List Spelling) (text : List Char) :
    (readText entries text).IsChain Apart := by
  induction entries generalizing text with
  | nil =>
    cases text with
    | nil => exact .nil
    | cons c rest => exact .singleton _
  | cons entry later ih =>
    refine isChain_intercalate id fun part member => ?_
    obtain ⟨cut, _, rfl⟩ := List.mem_map.mp member
    exact ih cut

theorem readSegment_ofText (entries : List Spelling) (text : List Char) :
    (Segment.ofText text).flatMap (readSegment entries) = readText entries text := by
  cases text with
  | nil =>
    have nothing : readText entries [] = [] := by
      induction entries with
      | nil => rfl
      | cons entry later ih => simp [readText, ih]
    rw [nothing]
    rfl
  | cons c rest => simp [Segment.ofText, readSegment]

private theorem reading_bracketed {table : Table} {condition before token behind : List Char}
    (found : firstBracketed? condition = some (before, token, behind)) :
    reading table condition =
      readText table.entries before ++ .bracketed token :: reading table behind := by
  rw [reading, segmentsOf_bracketed found, List.flatMap_append, readSegment_ofText]
  rfl

private theorem reading_unbracketed {table : Table} {condition : List Char}
    (missing : firstBracketed? condition = none) :
    reading table condition = readText table.entries condition := by
  rw [reading, segmentsOf_unbracketed missing, readSegment_ofText]

private theorem reading_written (table : Table) (condition : List Char) :
    (reading table condition).flatMap Piece.written = condition := by
  induction condition using segmentsOf.induct with
  | case1 condition missing => rw [reading_unbracketed missing, readText_written]
  | case2 condition before token behind found ih =>
    rw [reading_bracketed found, List.flatMap_append, List.flatMap_cons, readText_written, ih,
      (firstBracketed?_spec found).1, List.append_assoc]
    rfl

/-- The segments after going through the whole table are the pieces that were read. -/
theorem foldl_markEntry_segmentsOf (table : Table) (condition : List Char) :
    table.entries.foldl markEntry (segmentsOf condition) =
      (reading table condition).map Piece.segment := by
  induction condition using segmentsOf.induct with
  | case1 condition missing =>
    rw [reading_unbracketed missing, segmentsOf_unbracketed missing, foldl_markEntry_ofText]
  | case2 condition before token behind found ih =>
    rw [reading_bracketed found, segmentsOf_bracketed found, foldl_markEntry_append,
      foldl_markEntry_ofText, foldl_markEntry_token, ih, List.map_append]
    rfl

/-- A condition is replaced piece by piece. -/
theorem replaceChars_eq (table : Table) (condition : List Char) :
    replaceChars table condition = (reading table condition).flatMap Piece.translated := by
  rw [replaceChars, foldl_markEntry_segmentsOf, List.flatMap_map]
  simp only [Piece.segment_chars]

theorem mem_reading {table : Table} {condition : List Char} {piece : Piece}
    (member : piece ∈ reading table condition) :
    (∃ inside, piece = .bracketed ('\x7b' :: inside ++ ['\x7d']) ∧ '\x7d' ∉ inside) ∨
      ∃ text, piece ∈ readText table.entries text := by
  induction condition using segmentsOf.induct with
  | case1 condition missing =>
    rw [reading_unbracketed missing] at member
    exact .inr ⟨condition, member⟩
  | case2 condition before token behind found ih =>
    rw [reading_bracketed found] at member
    rcases List.mem_append.mp member with inFront | later
    · exact .inr ⟨before, inFront⟩
    · rcases List.mem_cons.mp later with rfl | later
      · obtain ⟨_, inside, rfl, closes⟩ := firstBracketed?_spec found
        exact .inl ⟨inside, rfl, closes⟩
      · exact ih later

theorem reading_apart (table : Table) (condition : List Char) :
    (reading table condition).IsChain Apart := by
  induction condition using segmentsOf.induct with
  | case1 condition missing =>
    rw [reading_unbracketed missing]
    exact readText_apart _ _
  | case2 condition before token behind found ih =>
    rw [reading_bracketed found]
    exact isChain_append_separator id (readText_apart _ _) ih

/-- The bracketed runs among pieces and where they begin, if the first piece begins at the given
position. -/
def bracketsFrom : Nat → List Piece → List (Nat × List Char)
  | _, [] => []
  | start, .bracketed chars :: rest => (start, chars) :: bracketsFrom (start + chars.length) rest
  | start, piece :: rest => bracketsFrom (start + piece.written.length) rest

/-- The bracketed runs that a condition is cut at and where they begin. -/
def runsFrom : Nat → List Segment → List (Nat × List Char)
  | _, [] => []
  | start, .token chars :: rest => (start, chars) :: runsFrom (start + chars.length) rest
  | start, .text chars :: rest => runsFrom (start + chars.length) rest

private theorem bracketsFrom_append (start : Nat) {front : List Piece} (back : List Piece)
    (unbracketed : ∀ chars, .bracketed chars ∉ front) :
    bracketsFrom start (front ++ back) =
      bracketsFrom (start + (front.flatMap Piece.written).length) back := by
  induction front generalizing start with
  | nil => rfl
  | cons piece rest ih =>
    have later := ih (start + piece.written.length) fun chars member =>
      unbracketed chars (List.mem_cons_of_mem _ member)
    cases piece with
    | bracketed chars => exact absurd List.mem_cons_self (unbracketed chars)
    | marked word token => simpa [bracketsFrom, Nat.add_assoc] using later
    | plain chars => simpa [bracketsFrom, Nat.add_assoc] using later

private theorem runsFrom_ofText (start : Nat) (text : List Char) (rest : List Segment) :
    runsFrom start (Segment.ofText text ++ rest) = runsFrom (start + text.length) rest := by
  cases text <;> rfl

private theorem readText_unbracketed (entries : List Spelling) (text chars : List Char) :
    .bracketed chars ∉ readText entries text := by
  intro member
  rcases mem_readText member with ⟨_, _, marked⟩ | ⟨_, plain, _⟩
  · cases marked
  · cases plain

/-- The bracketed runs of a condition are pieces, and no piece is another one. -/
theorem reading_brackets (table : Table) (condition : List Char) (start : Nat) :
    bracketsFrom start (reading table condition) = runsFrom start (segmentsOf condition) := by
  induction condition using segmentsOf.induct generalizing start with
  | case1 condition missing =>
    have pieces := bracketsFrom_append start [] (readText_unbracketed table.entries condition)
    have segments := runsFrom_ofText start condition []
    rw [List.append_nil] at pieces segments
    rw [reading_unbracketed missing, segmentsOf_unbracketed missing, pieces, segments]
    rfl
  | case2 condition before token behind found ih =>
    rw [reading_bracketed found, segmentsOf_bracketed found,
      bracketsFrom_append start _ (readText_unbracketed table.entries before), runsFrom_ofText,
      readText_written, bracketsFrom, runsFrom, ih]

/-- What a reading of a condition is: its pieces make up the condition and, translated, the replaced
one; the bracketed runs are those that the condition is cut at; variables are those of the table; and
no variable is left in free text, which is in as few pieces as can be. -/
structure Reading (table : Table) (condition : String) (pieces : List Piece) : Prop where
  whole : pieces.flatMap Piece.written = condition.toList
  replaced : pieces.flatMap Piece.translated = (replaceVariables table condition).toList
  runs : bracketsFrom 0 pieces = runsFrom 0 (segmentsOf condition.toList)
  enclosed : ∀ chars, .bracketed chars ∈ pieces →
    ∃ inside, chars = '\x7b' :: inside ++ ['\x7d'] ∧ '\x7d' ∉ inside
  known : ∀ word token, .marked word token ∈ pieces → table.token? word = some token
  apart : pieces.IsChain Apart
  exhausted : ∀ chars, .plain chars ∈ pieces →
    ∀ entry ∈ table.entries, ¬ entry.word.toList <:+: chars

/-- **Replacing variables is sound and exhaustive.** Every condition falls into bracketed runs, which
stay, variables of its group's table, which become their tokens, and free text, which stays and in
which no variable of the table is left. -/
theorem condition_has_reading (survey : UInt64) (group : Group) (condition : String) :
    ∃ pieces, Reading (Table.ofGroup survey group) condition pieces := by
  let table := Table.ofGroup survey group
  have collected : Collected _ table := of_questions_collected survey group.id group.baseQuestions
  refine ⟨reading table condition.toList, ?_, ?_, ?_, ?_, ?_, ?_, ?_⟩
  · exact reading_written table condition.toList
  · rw [replaceVariables, String.toList_ofList, replaceChars_eq]
  · exact reading_brackets table condition.toList 0
  · intro chars member
    rcases mem_reading member with ⟨inside, same, closes⟩ | ⟨text, ofText⟩
    · cases same
      exact ⟨inside, rfl, closes⟩
    · exact absurd ofText (readText_unbracketed _ _ chars)
  · intro word token member
    rcases mem_reading member with ⟨_, bracketed, _⟩ | ⟨text, ofText⟩
    · cases bracketed
    · rcases mem_readText ofText with ⟨entry, held, same⟩ | ⟨_, plain, _⟩
      · cases same
        exact collected.token?_of_mem held
      · cases plain
  · exact reading_apart table condition.toList
  · intro chars member
    rcases mem_reading member with ⟨_, bracketed, _⟩ | ⟨text, ofText⟩
    · cases bracketed
    · exact readText_exhausted (fun entry held => (collected.given entry held).1) ofText

end Questionnaire.Readings
