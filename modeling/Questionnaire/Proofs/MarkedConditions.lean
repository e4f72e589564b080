import Questionnaire.Proofs.Segments
import Questionnaire.Proofs.TableContents

/-! Conditions that can be read in one way only. Such a condition is put together from free text and
variables so that wherever a variable of the table occurs in it, it occurs inside one of those put
there. The table's order then replaces exactly these, each as a whole: when the turn of a variable
comes, every longer one around it is a token already. -/
namespace Questionnaire.MarkedConditions
open Relevance Occurrences Segments TableOrder TableContents

/-- A part of a condition: free text, or a variable that is meant as a whole, with its token. -/
inductive Part where
  | plain (text : String)
  | marked (word token : String)

/-- A part as its author writes it. -/
def Part.text : Part → String
  | .plain text => text
  | .marked word _ => word

/-- A part in the form's notation: a variable is replaced by its token. -/
def Part.translation : Part → String
  | .plain text => text
  | .marked _ token => token

/-- The condition as its author writes it. -/
def written : List Part → String
  | [] => ""
  | part :: rest => part.text ++ written rest

/-- The condition with each of its variables replaced. -/
def translated : List Part → String
  | [] => ""
  | part :: rest => part.translation ++ translated rest

/-- Where the variables of a condition begin and end, if its first character has the given
position. -/
def spans : Nat → List Part → List (Nat × Nat)
  | _, [] => []
  | start, .plain text :: rest => spans (start + text.length) rest
  | start, .marked word _ :: rest =>
    (start, start + word.length) :: spans (start + word.length) rest

/-- Wherever a word occurs in a condition that begins at the given position, it lies inside one of
the condition's variables. -/
def Covered (offset : Nat) (word : String) (parts : List Part) : Prop :=
  ∀ start < (written parts).length, word.toList <+: (written parts).toList.drop start →
    ∃ span ∈ spans offset parts,
      span.1 ≤ offset + start ∧ offset + start + word.length ≤ span.2

instance (offset : Nat) (word : String) (parts : List Part) :
    Decidable (Covered offset word parts) :=
  inferInstanceAs (Decidable (∀ start < _, _))

/-- The variables of a condition are variables of a table, with the tokens that the table has for
them, and no variable of the table occurs in the condition but inside one of these. -/
structure Unambiguous (table : Table) (parts : List Part) : Prop where
  known : ∀ word token, .marked word token ∈ parts → table.token? word = some token
  covered : ∀ entry ∈ table.entries, Covered 0 entry.word parts

private theorem le_of_mem_spans {offset : Nat} {parts : List Part} {span : Nat × Nat}
    (member : span ∈ spans offset parts) : offset ≤ span.1 := by
  induction parts generalizing offset with
  | nil => cases member
  | cons part rest ih =>
    cases part with
    | plain text => exact Nat.le_trans (Nat.le_add_right _ _) (ih member)
    | marked word token =>
      rcases List.mem_cons.mp member with rfl | later
      · exact Nat.le_refl _
      · exact Nat.le_trans (Nat.le_add_right _ _) (ih later)

/-- An occurrence that begins in the first part is covered. -/
theorem Covered.in_first {offset start : Nat} {word : String} {part : Part} {rest : List Part}
    (covered : Covered offset word (part :: rest)) (inside : start < part.text.length)
    (occurs : word.toList <+: (part.text.toList ++ (written rest).toList).drop start) :
    ∃ span ∈ spans offset (part :: rest),
      span.1 ≤ offset + start ∧ offset + start + word.length ≤ span.2 := by
  refine covered start ?_ ?_
  · rw [written, String.length_append]
    omega
  · rwa [written, String.toList_append]

/-- An occurrence behind the first part is covered. -/
theorem Covered.in_rest {offset start : Nat} {word : String} {part : Part} {rest : List Part}
    (covered : Covered offset word (part :: rest)) (inside : start < (written rest).length)
    (occurs : word.toList <+: (written rest).toList.drop start) :
    ∃ span ∈ spans offset (part :: rest), span.1 ≤ offset + part.text.length + start ∧
      offset + part.text.length + start + word.length ≤ span.2 := by
  rw [Nat.add_assoc offset]
  refine covered (part.text.length + start) ?_ ?_
  · rw [written, String.length_append]
    omega
  · rwa [written, String.toList_append, ← String.length_toList, List.drop_length_add_append]

private theorem Covered.behind_plain {offset : Nat} {word text : String} {rest : List Part}
    (covered : Covered offset word (.plain text :: rest)) :
    Covered (offset + text.length) word rest :=
  fun _ inside occurs => covered.in_rest inside occurs

/-- Behind a variable a word is covered by another one: this one has come to its end. -/
theorem Covered.behind_marked {offset : Nat} {word other token : String} {rest : List Part}
    (nonempty : word ≠ "") (covered : Covered offset word (.marked other token :: rest)) :
    Covered (offset + other.length) word rest := by
  intro start inside occurs
  obtain ⟨span, member, lower, upper⟩ := covered.in_rest inside occurs
  have positive : 0 < word.length := by
    rw [← String.length_toList, List.length_pos_iff]
    simpa using nonempty
  rcases List.mem_cons.mp member with rfl | later
  · simp only [Part.text] at upper
    omega
  · exact ⟨span, later, lower, upper⟩

private theorem Covered.never_begins_in_plain {offset : Nat} {word text : String} {rest : List Part}
    (covered : Covered offset word (.plain text :: rest)) :
    NeverBegins word.toList text.toList (written rest).toList := by
  intro start inside occurs
  rw [String.length_toList] at inside
  obtain ⟨span, member, lower, _⟩ := covered.in_first inside occurs
  have beyond : offset + text.length ≤ span.1 := le_of_mem_spans member
  omega

/-- A covered word that begins in a variable is a part of it. -/
theorem Covered.infix_of_begins {offset start : Nat} {word other token : String} {rest : List Part}
    (covered : Covered offset word (.marked other token :: rest)) (inside : start < other.length)
    (occurs : word.toList <+: (other.toList ++ (written rest).toList).drop start) :
    word.toList <:+: other.toList := by
  obtain ⟨span, member, lower, upper⟩ := covered.in_first inside occurs
  rcases List.mem_cons.mp member with rfl | later
  · simp only at upper
    have fits : word.toList.length ≤ (other.toList.drop start).length := by
      simp only [List.length_drop, String.length_toList]
      omega
    have within : start ≤ other.toList.length := by
      rw [String.length_toList]
      exact Nat.le_of_lt inside
    rw [List.drop_append_of_le_length within] at occurs
    have here : word.toList <+: other.toList.drop start :=
      List.prefix_of_prefix_length_le occurs (List.prefix_append _ _) fits
    exact here.isInfix.trans (List.drop_suffix start _).isInfix
  · have beyond := le_of_mem_spans later
    omega

/-- The text in front of the first token once the variables with the given words are replaced. -/
def lead (done : List String) : List Part → List Char
  | [] => []
  | .plain text :: rest => text.toList ++ lead done rest
  | .marked word _ :: rest => if word ∈ done then [] else word.toList ++ lead done rest

/-- The segments from the first token on. -/
def behind (done : List String) : List Part → List Segment
  | [] => []
  | .plain _ :: rest => behind done rest
  | .marked word token :: rest =>
    if word ∈ done then
      .token token.toList :: (Segment.ofText (lead done rest) ++ behind done rest)
    else behind done rest

/-- The segments of a condition of which the variables with the given words are replaced. -/
def settled (done : List String) (parts : List Part) : List Segment :=
  Segment.ofText (lead done parts) ++ behind done parts

private theorem lead_begins (done : List String) (parts : List Part) :
    lead done parts <+: (written parts).toList := by
  induction parts with
  | nil => exact List.nil_prefix
  | cons part rest ih =>
    cases part with
    | plain text => simpa [lead, written, Part.text] using ih
    | marked word token =>
      simp only [lead, written, String.toList_append]
      split
      · exact List.nil_prefix
      · exact (List.prefix_append_right_inj _).mpr ih

/-- A word does not begin in a variable that is still there: it would be a part of it, and a proper
part has its turn only after the variable. -/
theorem Covered.never_begins_in_marked {offset : Nat} {word other token : String}
    {rest : List Part} (covered : Covered offset word (.marked other token :: rest))
    (different : word ≠ other) (unpart : ¬ ProperPart word other) :
    NeverBegins word.toList other.toList (written rest).toList := by
  intro start inside occurs
  rw [String.length_toList] at inside
  exact unpart ⟨covered.infix_of_begins inside occurs, different⟩

/-- What marking one entry does to a condition of which some variables are replaced: the pieces into
which the text in front of the first token falls, and the segments behind it. The induction follows
the parts; the variables of the entry are cut out of the text, the longer ones are tokens already,
and nowhere else does the entry's word begin. -/
theorem mark_settled {done : List String} {entry : Spelling} {offset : Nat} {parts : List Part}
    (nonempty : entry.word ≠ "") (covered : Covered offset entry.word parts)
    (longer : ∀ word token, .marked word token ∈ parts → ProperPart entry.word word → word ∈ done)
    (own : ∀ token, .marked entry.word token ∈ parts → token = entry.token) :
    ∃ pieces, Text.cuts entry.word.toList (lead done parts) =
        lead (entry.word :: done) parts :: pieces ∧
      behind (entry.word :: done) parts =
        marksBetween entry.token.toList pieces ++ markEntry (behind done parts) entry := by
  induction parts generalizing offset with
  | nil => exact ⟨[], rfl, rfl⟩
  | cons part rest ih =>
    have longerRest : ∀ word token, .marked word token ∈ rest → ProperPart entry.word word →
        word ∈ done := fun word token member => longer word token (List.mem_cons_of_mem _ member)
    have ownRest : ∀ token, .marked entry.word token ∈ rest → token = entry.token :=
      fun token member => own token (List.mem_cons_of_mem _ member)
    cases part with
    | plain text =>
      obtain ⟨pieces, cut, marked⟩ := ih covered.behind_plain longerRest ownRest
      have absent := covered.never_begins_in_plain.shortened (lead_begins done rest)
      refine ⟨pieces, ?_, by simpa only [behind] using marked⟩
      rw [lead, cuts_append absent, cut]
      rfl
    | marked word token =>
      obtain ⟨pieces, cut, marked⟩ := ih (covered.behind_marked nonempty) longerRest ownRest
      by_cases replaced : word ∈ done
      · -- the token of an earlier entry ends the text, and what is behind it is marked by itself
        refine ⟨[], by simp [lead, replaced], ?_⟩
        simp only [behind, replaced, List.mem_cons, or_true, ↓reduceIte, markEntry_token,
          markEntry_append, markEntry_ofText cut, marked]
        simp [marksBetween]
      · by_cases same : word = entry.word
        · subst same
          refine ⟨lead (entry.word :: done) rest :: pieces, ?_, ?_⟩
          · have filled : entry.word.toList ≠ [] := by simpa using nonempty
            simp [lead, replaced, cuts_self_append filled, cut]
          · have ownToken : token = entry.token := own token (by simp)
            simp [behind, replaced, marked, marksBetween, ownToken]
        · have unpart : ¬ ProperPart entry.word word :=
            fun part => replaced (longer word token (by simp) part)
          have absent := (covered.never_begins_in_marked (Ne.symm same) unpart).shortened
            (lead_begins done rest)
          refine ⟨pieces, ?_, by simpa [behind, replaced, same] using marked⟩
          simp [lead, replaced, same, cuts_append absent, cut]

private theorem markEntry_settled {done : List String} {entry : Spelling} {parts : List Part}
    (nonempty : entry.word ≠ "") (covered : Covered 0 entry.word parts)
    (longer : ∀ word token, .marked word token ∈ parts → ProperPart entry.word word → word ∈ done)
    (own : ∀ token, .marked entry.word token ∈ parts → token = entry.token) :
    markEntry (settled done parts) entry = settled (entry.word :: done) parts := by
  obtain ⟨pieces, cut, marked⟩ := mark_settled nonempty covered longer own
  rw [settled, markEntry_append, markEntry_ofText cut, settled, marked, List.append_assoc]

private theorem lead_nil (parts : List Part) : lead [] parts = (written parts).toList := by
  induction parts with
  | nil => rfl
  | cons part rest ih => cases part <;> simp [lead, written, Part.text, ih]

private theorem behind_nil (parts : List Part) : behind [] parts = [] := by
  induction parts with
  | nil => rfl
  | cons part rest ih => cases part <;> simp [behind, ih]

/-- With nothing replaced a condition is one piece of free text. -/
theorem settled_nil (parts : List Part) :
    settled [] parts = Segment.ofText (written parts).toList := by
  rw [settled, lead_nil, behind_nil, List.append_nil]

/-- With every variable replaced a condition reads as its translation. -/
theorem settled_chars {done : List String} {parts : List Part}
    (all : ∀ word token, .marked word token ∈ parts → word ∈ done) :
    (settled done parts).flatMap Segment.chars = (translated parts).toList := by
  rw [settled, List.flatMap_append, ofText_chars]
  induction parts with
  | nil => rfl
  | cons part rest ih =>
    have rest := ih fun word token member => all word token (List.mem_cons_of_mem _ member)
    cases part with
    | plain text => simp [lead, behind, translated, Part.translation, rest]
    | marked word token =>
      have replaced : word ∈ done := all word token (by simp)
      simp [lead, behind, translated, Part.translation, replaced, Segment.chars, rest]

/-- Going through the rest of an arranged table replaces every variable that is still there. Each
entry finds those it is a part of among the entries passed before it. -/
theorem foldl_mark_settled {done : List String} {parts : List Part}
    {front remaining : List Spelling} (arranged : Arranged (front ++ remaining))
    (passed : ∀ entry ∈ front, entry.word ∈ done)
    (nonempty : ∀ entry ∈ remaining, entry.word ≠ "")
    (covered : ∀ entry ∈ remaining, Covered 0 entry.word parts)
    (known : ∀ word token, .marked word token ∈ parts →
      ∃ entry ∈ front ++ remaining, entry.word = word)
    (own : ∀ entry ∈ remaining, ∀ token, .marked entry.word token ∈ parts → token = entry.token) :
    ∃ final, remaining.foldl markEntry (settled done parts) = settled final parts ∧
      ∀ word token, .marked word token ∈ parts → word ∈ final := by
  induction remaining generalizing front done with
  | nil =>
    refine ⟨done, rfl, fun word token member => ?_⟩
    obtain ⟨entry, held, rfl⟩ := known word token member
    exact passed entry (by simpa using held)
  | cons entry rest ih =>
    have longer : ∀ word token, .marked word token ∈ parts → ProperPart entry.word word →
        word ∈ done := by
      intro word token member part
      obtain ⟨other, held, rfl⟩ := known word token member
      exact passed other (containing_entries_come_first arranged held part)
    have step := markEntry_settled (nonempty entry (by simp)) (covered entry (by simp)) longer
      (own entry (by simp))
    rw [List.foldl_cons, step]
    rw [List.append_cons] at arranged known
    refine ih arranged ?_ (fun other later => nonempty other (List.mem_cons_of_mem _ later))
      (fun other later => covered other (List.mem_cons_of_mem _ later)) known
      (fun other later => own other (List.mem_cons_of_mem _ later))
    intro other before
    rcases List.mem_append.mp before with before | last
    · exact List.mem_cons_of_mem _ (passed other before)
    · simp [List.mem_singleton.mp last]

/-- An arranged table translates a condition that is unambiguous for it. -/
theorem replaceVariables_unambiguous {seen : List Spelling} {table : Table} {parts : List Part}
    (collected : Collected seen table) (arranged : Arranged table.entries)
    (braceless : '\x7b' ∉ (written parts).toList) (unambiguous : Unambiguous table parts) :
    replaceVariables table (written parts) = translated parts := by
  have known : ∀ word token, .marked word token ∈ parts →
      ∃ entry ∈ [] ++ table.entries, entry.word = word := by
    intro word token member
    obtain ⟨entry, found, _⟩ := Option.map_eq_some_iff.mp (unambiguous.known word token member)
    exact ⟨entry, List.mem_of_find?_eq_some found, by simpa using List.find?_some found⟩
  have own : ∀ entry ∈ table.entries, ∀ token, .marked entry.word token ∈ parts →
      token = entry.token := by
    intro entry held token member
    have found := unambiguous.known entry.word token member
    rw [Table.token?, collected.find?_of_mem held] at found
    exact (Option.some.inj found).symm
  have whole : Arranged ([] ++ table.entries) := arranged
  have none : ∀ entry ∈ ([] : List Spelling), entry.word ∈ ([] : List String) := by simp
  obtain ⟨final, run, all⟩ := foldl_mark_settled whole none
    (fun entry held => (collected.given entry held).1) unambiguous.covered known own
  rw [replaceVariables, replaceChars, segmentsOf_braceless braceless, ← settled_nil, run,
    settled_chars all, String.ofList_toList]

/-- **Unambiguous conditions are translated exactly.** If the respelled condition is put together
from free text and variables of its group's table, and every occurrence of a variable of the table
lies inside one of those put there, then the condition is translated by replacing each of them as a
whole by its token, and nothing else. -/
theorem unambiguous_condition_translated (survey : UInt64) (group : Group) (condition : String)
    (parts : List Part) (conditional : condition ≠ "1")
    (respelled : respellOperators condition = written parts)
    (braceless : '\x7b' ∉ (respellOperators condition).toList)
    (unambiguous : Unambiguous (Table.ofGroup survey group) parts) :
    formCondition? (Table.ofGroup survey group) condition = some (translated parts) := by
  rw [respelled] at braceless
  have collected := of_questions_collected survey group.id group.baseQuestions
  have exactly := replaceVariables_unambiguous collected (arrange_arranged _) braceless unambiguous
  rw [formCondition?, unconditional, if_neg conditional, respelled]
  exact congrArg some exactly

/-- A condition on the overlapping group, in which a longer identifier and a longer name stand for
the second question. -/
theorem overlapping_condition_translated :
    formCondition? (Table.ofGroup 1 ⟨2, "Group", overlapping⟩) "Q1_A == 1 && 1X2X34 > Q1" =
      some "\x7bQ1_A\x7d = 1 and \x7bQ1_A\x7d > \x7bQ1\x7d" := by
  let parts : List Part := [.marked "Q1_A" "\x7bQ1_A\x7d", .plain " = 1 and ",
    .marked "1X2X34" "\x7bQ1_A\x7d", .plain " > ", .marked "Q1" "\x7bQ1\x7d"]
  have table : Table.ofGroup 1 ⟨2, "Group", overlapping⟩ =
      Table.ofQuestions 1 2 overlapping := rfl
  have unambiguous : Unambiguous (Table.ofGroup 1 ⟨2, "Group", overlapping⟩) parts := by
    rw [table, overlapping_table]
    refine ⟨fun word token member => ?_, by decide +kernel⟩
    simp only [parts, List.mem_cons, Part.marked.injEq, reduceCtorEq, List.not_mem_nil, or_false,
      false_or] at member
    rcases member with ⟨rfl, rfl⟩ | ⟨rfl, rfl⟩ | ⟨rfl, rfl⟩ <;> decide
  exact unambiguous_condition_translated 1 ⟨2, "Group", overlapping⟩ "Q1_A == 1 && 1X2X34 > Q1" parts
    (by decide) (by decide +kernel) (by decide +kernel) unambiguous

end Questionnaire.MarkedConditions
