import Questionnaire.Proofs.Conjunctions

/-! Quoted words. A condition is cut at the quotes around a word, so the word is translated apart from
what stands in front of it and behind it. But it is looked at like everything else: a quote does not
protect a word from the variables of the group, so the text that is compared against is kept exactly
if no variable occurs in it. -/
namespace Questionnaire.QuotedWords
open Relevance Occurrences Replacement Separators TableContents TableOrder CollisionWarnings Conjunctions

/-- A condition with its operators respelled and its variables replaced. -/
def translated (table : Table) (condition : String) : String :=
  replaceVariables table (respellOperators condition)

/-- A word between double quotes in a condition. -/
def quoting (left word right : String) : String :=
  left ++ "\"" ++ word ++ "\"" ++ right

/-- No character of a text is one of the marks of which every operator has one, or opens a bracketed
run. Letters and digits are not, whatever their script. -/
def Unpunctuated (text : String) : Prop :=
  ∀ c ∈ text.toList, c ∉ ['=', '.', '&', '(', '"', '\x7b']

instance (text : String) : Decidable (Unpunctuated text) :=
  List.decidableBAll _ text.toList

private theorem quoting_toList (left word right : String) :
    (quoting left word right).toList =
      left.toList ++ '"' :: (word.toList ++ '"' :: right.toList) := by
  simp [quoting]

/-- The respellings in front of the last one, which is that of quotes. -/
def respellUnquoted (text : List Char) : List Char :=
  (operatorSpellings.take 6).foldl
    (fun text spelling => Text.replaceAll spelling.1.toList spelling.2.toList text) text

private theorem respellChars_eq (text : List Char) :
    respellChars text = (respellUnquoted text).map fun c => if c = '"' then '\'' else c := by
  have split : operatorSpellings = operatorSpellings.take 6 ++ [("\"", "'")] := rfl
  have quotes : ("\"".toList, "'".toList) = (['"'], ['\'']) := by decide
  obtain ⟨double, single⟩ := Prod.mk.inj quotes
  rw [respellChars, split, List.foldl_append, List.foldl_cons, List.foldl_nil, double, single,
    replaceAll_char]
  rfl

/-- No operator has a quote, and quotes are respelled last: on both sides of a quote operators are
respelled separately. -/
theorem respellChars_around_quote (left right : List Char) :
    respellChars (left ++ '"' :: right) = respellChars left ++ '\'' :: respellChars right := by
  have around : respellUnquoted (left ++ '"' :: right) =
      respellUnquoted left ++ '"' :: respellUnquoted right :=
    foldl_replaceAll_around (by decide) left right
  rw [respellChars_eq, respellChars_eq, respellChars_eq, around, List.map_append, List.map_cons,
    if_pos rfl]

private theorem respellChars_unpunctuated {word : String} (bare : Unpunctuated word) :
    respellChars word.toList = word.toList := by
  refine foldl_replaceAll_of_absent fun spelling member part => ?_
  have marked : ∀ spelling ∈ operatorSpellings,
      spelling.1.toList.any (['=', '.', '&', '(', '"', '\x7b'].contains ·) = true := by decide
  obtain ⟨c, held, mark⟩ := List.any_eq_true.mp (marked spelling member)
  exact bare c (part.subset held) (List.contains_iff_mem.mp mark)

/-- A quoted word is translated apart from the rest of the condition. -/
theorem translated_quoting {table : Table} {left word right : String}
    (unquoted : ∀ entry ∈ table.entries, entry.word ≠ "" ∧ '\'' ∉ entry.word.toList)
    (bracelessLeft : '\x7b' ∉ left.toList) (bracelessWord : '\x7b' ∉ word.toList)
    (bracelessRight : '\x7b' ∉ right.toList) :
    translated table (quoting left word right) =
      translated table left ++ "'" ++ translated table word ++ "'" ++ translated table right := by
  have restBraceless : '\x7b' ∉ respellChars word.toList ++ '\'' :: respellChars right.toList := by
    have first := braceless_respellChars bracelessWord
    have second := braceless_respellChars bracelessRight
    simp [first, second]
  rw [← String.toList_inj]
  simp only [translated, replaceVariables, respellOperators, String.toList_append,
    String.toList_ofList, quoting_toList, respellChars_around_quote]
  rw [replaceChars_around unquoted (by decide) (braceless_respellChars bracelessLeft) restBraceless,
    replaceChars_around unquoted (by decide) (braceless_respellChars bracelessWord)
      (braceless_respellChars bracelessRight)]
  simp

private theorem translated_eq_self_iff {table : Table} {word : String} (bare : Unpunctuated word)
    (nonempty : ∀ entry ∈ table.entries, entry.word ≠ "")
    (opened : ∀ entry ∈ table.entries, '\x7b' ∈ entry.token.toList) :
    translated table word = word ↔
      ∀ entry ∈ table.entries, ¬ entry.word.toList <:+: word.toList := by
  have braceless : '\x7b' ∉ word.toList := fun member => bare _ member (by decide)
  rw [← replaceText_eq_self_iff nonempty opened braceless, ← replaceChars_braceless braceless,
    translated, ← String.toList_inj, replaceVariables, respellOperators, String.toList_ofList,
    String.toList_ofList, respellChars_unpunctuated bare]

/-- **A quoted word is translated apart, and it is kept exactly if no variable occurs in it.** In a
group with plain names, and for a condition without opening braces, the text in front of a quoted
word, the word and the text behind it are translated separately and come between single quotes again;
so the word is the same in the translation exactly if it has no variable of the group's table. -/
theorem quoted_word_kept_iff (survey : UInt64) (group : Group) (left word right : String)
    (named : ∀ question ∈ group.baseQuestions, PlainlyNamed question)
    (bracelessLeft : '\x7b' ∉ left.toList) (bracelessRight : '\x7b' ∉ right.toList)
    (bare : Unpunctuated word) :
    let table := Table.ofGroup survey group
    let tr := fun condition => replaceVariables table (respellOperators condition)
    tr (left ++ "\"" ++ word ++ "\"" ++ right) =
        tr left ++ "'" ++ tr word ++ "'" ++ tr right ∧
      (tr (left ++ "\"" ++ word ++ "\"" ++ right) = tr left ++ "'" ++ word ++ "'" ++ tr right ↔
        ∀ entry ∈ table.entries, ¬ entry.word.toList <:+: word.toList) := by
  intro table tr
  have collected : Collected _ table := of_questions_collected survey group.id group.baseQuestions
  have nonempty : ∀ entry ∈ table.entries, entry.word ≠ "" :=
    fun entry held => (collected.given entry held).1
  have unquoted : ∀ entry ∈ table.entries, entry.word ≠ "" ∧ '\'' ∉ entry.word.toList := by
    intro entry held
    refine ⟨nonempty entry held, fun member => ?_⟩
    exact absurd (Spells.plain (collected.spells held) named '\'' member) (by decide)
  have bracelessWord : '\x7b' ∉ word.toList := fun member => bare _ member (by decide)
  have apart : tr (left ++ "\"" ++ word ++ "\"" ++ right) =
      tr left ++ "'" ++ tr word ++ "'" ++ tr right :=
    translated_quoting unquoted bracelessLeft bracelessWord bracelessRight
  refine ⟨apart, ?_⟩
  rw [apart, ← translated_eq_self_iff bare nonempty collected.token_opened, translated]
  simp [String.append_left_inj, String.append_right_inj, tr]

/-- A group in which a question has a name like the code of an answer. -/
def coded : List Question :=
  [bareQuestion 3 "Q1", bareQuestion 4 "A1"]

private theorem coded_plainlyNamed :
    ∀ question ∈ (groupOf coded).baseQuestions, PlainlyNamed question := by
  intro question asked
  rcases List.mem_cons.mp asked with rfl | asked
  · exact bareQuestion_plainlyNamed (by decide)
  · obtain rfl := List.mem_singleton.mp asked
    exact bareQuestion_plainlyNamed (by decide)

/-- A word of which no variable is a part is kept, though another quoted word stands in front of it. -/
theorem other_code_kept :
    let tr := fun condition =>
      replaceVariables (Table.ofGroup 1 (groupOf coded)) (respellOperators condition)
    (∀ question ∈ (groupOf coded).baseQuestions, PlainlyNamed question) ∧ Unpunctuated "A2" ∧
      tr ("Q1 == \"1\" && A1 == " ++ "\"" ++ "A2" ++ "\"" ++ " && 1X2X3 != 0") =
        tr "Q1 == \"1\" && A1 == " ++ "'" ++ "A2" ++ "'" ++ tr " && 1X2X3 != 0" ∧
      tr "Q1 == \"1\" && A1 == " = "\x7bQ1\x7d = '1' and \x7bA1\x7d = " ∧
      tr " && 1X2X3 != 0" = " and \x7bQ1\x7d != 0" := by
  intro tr
  have bare : Unpunctuated "A2" := by decide
  have absent : ∀ entry ∈ (Table.ofGroup 1 (groupOf coded)).entries,
      ¬ entry.word.toList <:+: "A2".toList := by decide +kernel
  have kept := quoted_word_kept_iff 1 (groupOf coded) "Q1 == \"1\" && A1 == " "A2"
    " && 1X2X3 != 0" coded_plainlyNamed (by decide) (by decide) bare
  exact ⟨coded_plainlyNamed, bare, kept.2.mpr absent, by decide +kernel, by decide +kernel⟩

/-- The code of an answer is rewritten where a question has the same name: the condition compares
with the token of that question. -/
theorem quoted_code_rewritten :
    (∀ question ∈ (groupOf coded).baseQuestions, PlainlyNamed question) ∧
    replaceVariables (Table.ofGroup 1 (groupOf coded)) (respellOperators "Q1 == ") =
      "\x7bQ1\x7d = " ∧
    replaceVariables (Table.ofGroup 1 (groupOf coded)) (respellOperators "") = "" ∧
    replaceVariables (Table.ofGroup 1 (groupOf coded)) (respellOperators "Q1 == \"A1\"") =
      "\x7bQ1\x7d = '\x7bA1\x7d'" ∧
    replaceVariables (Table.ofGroup 1 (groupOf coded)) (respellOperators "Q1 == \"A1\"") ≠
      "\x7bQ1\x7d = " ++ "'" ++ "A1" ++ "'" ++ "" :=
  ⟨coded_plainlyNamed, by decide +kernel, by decide +kernel, by decide +kernel, by decide +kernel⟩

end Questionnaire.QuotedWords
