import Questionnaire.Proofs.Replacement
import Questionnaire.Proofs.Separators

/-! Conditions whose operators have been respelled. Each respelling goes through the condition once,
one after the other, so what a respelling puts together stays if its own turn is over. `Regular` says
of a condition in which cases this does not happen. -/
namespace Questionnaire.RespelledOperators
open Relevance Occurrences Replacement Separators

/-- A run of equality signs. -/
def run (length : Nat) : List Char :=
  List.replicate length '='

private theorem run_succ (length : Nat) : run (length + 1) = '=' :: run length := rfl

private theorem run_begins {short long : Nat} (le : short ≤ long) : run short <+: run long :=
  ⟨run (long - short), by simp [run, Nat.add_sub_cancel' le]⟩

/-- A text with a run begins with one of that length, or somewhere it has one behind another
character. -/
theorem run_infix_iff (length : Nat) (text : List Char) :
    run length <:+: text ↔
      run length <+: text ∨ ∃ c, c ≠ '=' ∧ c :: run length <:+: text := by
  induction text with
  | nil => simp
  | cons d rest ih =>
    constructor
    · intro occurs
      rcases List.infix_cons_iff.mp occurs with begins | inside
      · exact .inl begins
      · rcases ih.mp inside with next | ⟨c, other, behind⟩
        · by_cases equality : d = '='
          · have longer : run (length + 1) <+: d :: rest := by
              rw [equality, run_succ]
              exact (List.prefix_cons_inj '=').mpr next
            exact .inl ((run_begins (Nat.le_succ length)).trans longer)
          · exact .inr ⟨d, equality, ((List.prefix_cons_inj d).mpr next).isInfix⟩
        · exact .inr ⟨c, other, behind.trans (List.suffix_cons d rest).isInfix⟩
    · rintro (begins | ⟨c, _, behind⟩)
      · exact begins.isInfix
      · exact (List.suffix_cons c _).isInfix.trans behind

/-- The first respelling: each pair of equality signs, from the left, becomes one. -/
def halved (text : List Char) : List Char :=
  Text.replaceAll "==".toList "=".toList text

private theorem halved_pair (behind : List Char) :
    halved ('=' :: run 1 ++ behind) = '=' :: halved behind :=
  replaceAll_self_append (List.cons_ne_nil '=' _) _ behind

private theorem halved_elsewhere {c : Char} {rest : List Char}
    (absent : ¬ '=' :: run 1 <+: c :: rest) :
    halved (c :: rest) = c :: halved rest :=
  replaceAll_elsewhere absent _

/-- A run at the beginning of a text keeps half its length, rounded up. -/
theorem halved_run_begins_iff (length : Nat) (text : List Char) :
    run (length + 1) <+: halved text ↔ run (2 * length + 1) <+: text := by
  induction text using cutting_induction (List.cons_ne_nil '=' (run 1)) generalizing length with
  | nil => simp [run_succ, halved]
  | here behind ih =>
    rw [halved_pair]
    cases length with
    | zero => simp [run]
    | succ length =>
      have longer : run (2 * (length + 1) + 1) = '=' :: '=' :: run (2 * length + 1) := rfl
      rw [run_succ, List.prefix_cons_inj, ih, longer]
      simp [run]
  | elsewhere c rest absent ih =>
    rw [halved_elsewhere absent]
    cases length with
    | zero => simp [run]
    | succ length =>
      refine iff_of_false (fun begins => absent ?_) fun begins => absent ?_
      · obtain ⟨rfl, later⟩ := List.cons_prefix_cons.mp begins
        have next : run 1 <+: rest := (ih 0).mp ((run_begins (Nat.le_add_left 1 length)).trans later)
        exact (List.prefix_cons_inj '=').mpr next
      · have pair : run 2 <+: run (2 * (length + 1) + 1) := run_begins (by omega)
        exact pair.trans begins

private theorem halved_run_behind_iff {c : Char} (other : c ≠ '=') (length : Nat) (text : List Char) :
    c :: run (length + 1) <:+: halved text ↔ c :: run (2 * length + 1) <:+: text := by
  induction text using cutting_induction (List.cons_ne_nil '=' (run 1)) with
  | nil => simp [halved]
  | here behind ih =>
    have pair : '=' :: run 1 ++ behind = '=' :: '=' :: behind := rfl
    rw [halved_pair, pair, List.infix_cons_iff, List.infix_cons_iff, List.infix_cons_iff, ih]
    simp [other]
  | elsewhere d rest absent ih =>
    rw [halved_elsewhere absent, List.infix_cons_iff, List.infix_cons_iff, List.cons_prefix_cons,
      List.cons_prefix_cons, halved_run_begins_iff, ih]

/-- The second respelling: of the equality signs behind an exclamation mark, if there are two, one is
taken away. -/
def loosened (text : List Char) : List Char :=
  Text.replaceAll "!==".toList "!=".toList text

private theorem loosened_strict (behind : List Char) :
    loosened ('!' :: run 2 ++ behind) = '!' :: '=' :: loosened behind :=
  replaceAll_self_append (List.cons_ne_nil '!' _) _ behind

private theorem loosened_elsewhere {c : Char} {rest : List Char}
    (absent : ¬ '!' :: run 2 <+: c :: rest) :
    loosened (c :: rest) = c :: loosened rest :=
  replaceAll_elsewhere absent _

private theorem loosened_run_begins_iff (length : Nat) (text : List Char) :
    run length <+: loosened text ↔ run length <+: text := by
  induction text using cutting_induction (List.cons_ne_nil '!' (run 2)) generalizing length with
  | nil => simp [loosened]
  | here behind ih =>
    rw [loosened_strict]
    cases length with
    | zero => simp [run]
    | succ length => simp [run_succ]
  | elsewhere c rest absent ih =>
    rw [loosened_elsewhere absent]
    cases length with
    | zero => simp [run]
    | succ length => rw [run_succ, List.cons_prefix_cons, List.cons_prefix_cons, ih]

private theorem loosened_run_behind_iff {c : Char} (unnegated : c ≠ '!') (other : c ≠ '=')
    (length : Nat)
    (text : List Char) : c :: run length <:+: loosened text ↔ c :: run length <:+: text := by
  induction text using cutting_induction (List.cons_ne_nil '!' (run 2)) with
  | nil => simp [loosened]
  | here behind ih =>
    have strict : '!' :: run 2 ++ behind = '!' :: '=' :: '=' :: behind := rfl
    rw [loosened_strict, strict]
    simp only [List.infix_cons_iff, List.cons_prefix_cons, unnegated, other, ih, false_and, false_or]
  | elsewhere d rest absent ih =>
    rw [loosened_elsewhere absent, List.infix_cons_iff, List.infix_cons_iff, List.cons_prefix_cons,
      List.cons_prefix_cons, loosened_run_begins_iff, ih]

private theorem loosened_strict_iff (text : List Char) :
    '!' :: run 2 <:+: loosened text ↔ '!' :: run 3 <:+: text := by
  induction text using cutting_induction (List.cons_ne_nil '!' (run 2)) with
  | nil => simp [loosened]
  | here behind ih =>
    have strict : '!' :: run 2 ++ behind = '!' :: '=' :: '=' :: behind := rfl
    have here : '!' :: run 2 <+: '!' :: '=' :: loosened behind ↔
        '!' :: run 3 <+: '!' :: '=' :: '=' :: behind := by
      have next : run 1 <+: loosened behind ↔ run 1 <+: behind := loosened_run_begins_iff 1 behind
      simpa [run_succ 1, run_succ 2] using next
    have apart {length : Nat} {rest : List Char} :
        '!' :: run length <:+: '=' :: rest ↔ '!' :: run length <:+: rest := by
      simp [List.infix_cons_iff]
    rw [loosened_strict, strict, List.infix_cons_iff, here, apart, ih, List.infix_cons_iff, apart, apart]
  | elsewhere d rest absent ih =>
    rw [loosened_elsewhere absent, List.infix_cons_iff, List.infix_cons_iff, List.cons_prefix_cons,
      List.cons_prefix_cons, loosened_run_begins_iff, ih]
    refine or_congr_left (and_congr_right fun negated => ?_)
    have absentRun : ¬ run 2 <+: rest :=
      fun begins => absent (List.cons_prefix_cons.mpr ⟨negated, begins⟩)
    exact iff_of_false absentRun fun begins => absentRun ((run_begins (by decide)).trans begins)

/-- A run of equality signs that begins the text or stands behind a character other than an exclamation
mark. -/
def Unnegated (length : Nat) (text : List Char) : Prop :=
  run length <+: text ∨ ∃ c, c ≠ '!' ∧ c ≠ '=' ∧ c :: run length <:+: text

/-- Of the equality signs of a text a pair is left exactly if there were three in a row, or five behind
an exclamation mark. -/
theorem equality_left_iff (text : List Char) :
    run 2 <:+: loosened (halved text) ↔ Unnegated 3 text ∨ '!' :: run 5 <:+: text := by
  have begins : run 2 <+: loosened (halved text) ↔ run 3 <+: text :=
    (loosened_run_begins_iff 2 _).trans (halved_run_begins_iff 1 text)
  have negated : '!' :: run 2 <:+: loosened (halved text) ↔ '!' :: run 5 <:+: text :=
    (loosened_strict_iff _).trans (halved_run_behind_iff (by decide) 2 text)
  have behind {c : Char} (unnegated : c ≠ '!') (other : c ≠ '=') :
      c :: run 2 <:+: loosened (halved text) ↔ c :: run 3 <:+: text :=
    (loosened_run_behind_iff unnegated other 2 _).trans (halved_run_behind_iff other 1 text)
  rw [run_infix_iff, begins]
  constructor
  · rintro (first | ⟨c, other, occurs⟩)
    · exact .inl (.inl first)
    · by_cases mark : c = '!'
      · exact .inr (negated.mp (mark ▸ occurs))
      · exact .inl (.inr ⟨c, mark, other, (behind mark other).mp occurs⟩)
  · rintro ((first | ⟨c, mark, other, occurs⟩) | occurs)
    · exact .inl first
    · exact .inr ⟨c, other, (behind mark other).mpr occurs⟩
    · exact .inr ⟨'!', by decide, negated.mpr occurs⟩

/-- A property of conditions for which a second equality sign makes no difference is not touched by the
first two respellings. -/
theorem equalities_indifferent {holds : List Char → Prop}
    (same : ∀ front back, holds (front ++ '=' :: back) ↔ holds (front ++ '=' :: '=' :: back))
    (text : List Char) : holds (loosened (halved text)) ↔ holds text := by
  have strict (front back : List Char) :
      holds (front ++ ("!=".toList ++ back)) ↔ holds (front ++ ("!==".toList ++ back)) := by
    simpa using same (front ++ ['!']) back
  have equal (front back : List Char) :
      holds (front ++ ("=".toList ++ back)) ↔ holds (front ++ ("==".toList ++ back)) := same front back
  exact (replaceAll_indifferent (by decide) strict _).trans
    (replaceAll_indifferent (by decide) equal text)

/-- The third respelling: a condition without the suffixes of its variables. -/
def withoutSuffixes (text : List Char) : List Char :=
  Text.replaceAll ".NAOK".toList [] text

private theorem suffix_nonempty : ".NAOK".toList ≠ [] := by decide

private theorem withoutSuffixes_suffix (behind : List Char) :
    withoutSuffixes (".NAOK".toList ++ behind) = withoutSuffixes behind :=
  replaceAll_self_append suffix_nonempty _ behind

private theorem withoutSuffixes_elsewhere {c : Char} {rest : List Char}
    (absent : ¬ ".NAOK".toList <+: c :: rest) :
    withoutSuffixes (c :: rest) = c :: withoutSuffixes rest :=
  replaceAll_elsewhere absent _

/-- Suffixes in a row. -/
def suffixes (count : Nat) : List Char :=
  (List.replicate count ".NAOK".toList).flatten

private theorem suffixes_succ (count : Nat) :
    suffixes (count + 1) = ".NAOK".toList ++ suffixes count := by
  simp [suffixes, List.replicate_succ]

/-- Two equality signs with nothing but suffixes between them. -/
def parted (count : Nat) : List Char :=
  '=' :: (suffixes count ++ ['='])

private theorem equality_behind_suffixes_iff (text : List Char) :
    ['='] <+: withoutSuffixes text ↔ ∃ count, suffixes count ++ ['='] <+: text := by
  induction text using cutting_induction suffix_nonempty with
  | nil => simp [withoutSuffixes]
  | here behind ih =>
    rw [withoutSuffixes_suffix, ih]
    constructor
    · rintro ⟨count, begins⟩
      refine ⟨count + 1, ?_⟩
      rw [suffixes_succ, List.append_assoc, List.prefix_append_right_inj]
      exact begins
    · rintro ⟨count, begins⟩
      cases count with
      | zero => simp [suffixes] at begins
      | succ count =>
        rw [suffixes_succ, List.append_assoc, List.prefix_append_right_inj] at begins
        exact ⟨count, begins⟩
  | elsewhere c rest absent ih =>
    rw [withoutSuffixes_elsewhere absent]
    constructor
    · intro begins
      refine ⟨0, ?_⟩
      simpa [suffixes] using begins
    · rintro ⟨count, begins⟩
      cases count with
      | zero => simpa [suffixes] using begins
      | succ count =>
        rw [suffixes_succ, List.append_assoc] at begins
        exact absurd ((List.prefix_append _ _).trans begins) absent

/-- Without suffixes two equality signs are neighbours exactly if nothing but suffixes was between
them. -/
theorem equalities_joined_iff (text : List Char) :
    run 2 <:+: withoutSuffixes text ↔ ∃ count, parted count <:+: text := by
  induction text using cutting_induction suffix_nonempty with
  | nil => simp [withoutSuffixes, run, parted]
  | here behind ih =>
    have apart (count : Nat) : parted count <:+: ".NAOK".toList ++ behind ↔ parted count <:+: behind := by
      simp [parted, List.infix_cons_iff]
    rw [withoutSuffixes_suffix, ih]
    simp only [apart]
  | elsewhere c rest absent ih =>
    have begins : run 2 <+: c :: withoutSuffixes rest ↔ ∃ count, parted count <+: c :: rest := by
      have pair : run 2 = ['=', '='] := rfl
      rw [pair, List.cons_prefix_cons, equality_behind_suffixes_iff]
      simp only [parted, List.cons_prefix_cons, exists_and_left]
    rw [withoutSuffixes_elsewhere absent, List.infix_cons_iff, begins, ih, ← exists_or]
    simp only [List.infix_cons_iff]

private theorem suffixes_unequal (count : Nat) : '=' ∉ suffixes count := by
  simp [suffixes]

/-- A run of characters up to a mark ends at the first mark. -/
theorem prefix_to_mark_iff {mark : Char} {stem front back : List Char} (unmarked : mark ∉ stem) :
    stem ++ [mark] <+: front ++ mark :: back ↔ stem ++ [mark] <+: front ++ [mark] := by
  by_cases member : mark ∈ front
  · obtain ⟨block, rest, rfl, absent⟩ := List.eq_append_cons_of_mem member
    rw [List.append_assoc, List.append_assoc, List.cons_append, List.cons_append,
      prefix_block_iff unmarked absent, prefix_block_iff unmarked absent]
  · rw [prefix_block_iff unmarked member, prefix_block_iff unmarked member]

/-- Parted equality signs do not reach over an equality sign. -/
theorem parted_infix_iff (count : Nat) (front back : List Char) :
    parted (count + 1) <:+: front ++ '=' :: back ↔
      parted (count + 1) <:+: front ++ ['='] ∨ parted (count + 1) <:+: '=' :: back := by
  induction front with
  | nil =>
    have alone : ¬ parted (count + 1) <:+: ['='] := by simp [parted, List.infix_cons_iff]
    simp [alone]
  | cons c front ih =>
    have begins : parted (count + 1) <+: c :: (front ++ '=' :: back) ↔
        parted (count + 1) <+: c :: (front ++ ['=']) := by
      rw [parted, List.cons_prefix_cons, List.cons_prefix_cons,
        prefix_to_mark_iff (suffixes_unequal (count + 1))]
    rw [List.cons_append, List.cons_append, List.infix_cons_iff, List.infix_cons_iff, ih, begins,
      or_assoc]

private theorem parted_left_iff (count : Nat) (text : List Char) :
    parted (count + 1) <:+: loosened (halved text) ↔ parted (count + 1) <:+: text := by
  apply equalities_indifferent
  intro front back
  have unequal : ¬ parted (count + 1) <+: '=' :: '=' :: back := by simp [parted, suffixes_succ]
  have again : parted (count + 1) <:+: '=' :: '=' :: back ↔ parted (count + 1) <:+: '=' :: back :=
    List.infix_cons_iff.trans (or_iff_right unequal)
  rw [parted_infix_iff, parted_infix_iff count front ('=' :: back), again]

private theorem withoutSuffixes_around (left right : List Char) :
    withoutSuffixes (left ++ '=' :: right) = withoutSuffixes left ++ '=' :: withoutSuffixes right :=
  replaceAll_around suffix_nonempty (by decide) [] left right

/-- A word without an equality sign is put together by taking out suffixes regardless of how equalities
have been respelled before. -/
theorem word_without_suffixes_iff {word : List Char} (unequal : '=' ∉ word) (text : List Char) :
    word <:+: withoutSuffixes (loosened (halved text)) ↔ word <:+: withoutSuffixes text := by
  have same (front back : List Char) : word <:+: withoutSuffixes (front ++ '=' :: back) ↔
      word <:+: withoutSuffixes (front ++ '=' :: '=' :: back) := by
    have next : withoutSuffixes ('=' :: back) = '=' :: withoutSuffixes back :=
      withoutSuffixes_around [] back
    have nothing : word <:+: [] → word <:+: withoutSuffixes front :=
      fun part => part.trans (List.nil_infix)
    have again : word <:+: '=' :: withoutSuffixes back ↔
        word <:+: [] ∨ word <:+: withoutSuffixes back := infix_append_cons_iff unequal [] _
    rw [withoutSuffixes_around, withoutSuffixes_around, next, infix_append_cons_iff unequal,
      infix_append_cons_iff unequal, again]
    tauto
  exact @equalities_indifferent (fun text => word <:+: withoutSuffixes text) same text

/-- The respellings behind that of suffixes. -/
def wordsRespelled (text : List Char) : List Char :=
  Text.replaceAll "\"".toList "'".toList
    (Text.replaceAll "is_empty(".toList "(".toList
      (Text.replaceAll "!is_empty(".toList "(".toList (Text.replaceAll "&&".toList "and".toList text)))

private theorem respellChars_eq_stages (text : List Char) :
    respellChars text = wordsRespelled (withoutSuffixes (loosened (halved text))) := by
  have nothing : "".toList = [] := rfl
  simp only [respellChars, operatorSpellings, List.foldl_cons, List.foldl_nil, nothing]
  rfl

/-- A word that has nothing in common with the remaining operators is not touched by them. -/
theorem wordsRespelled_infix_iff {word : List Char}
    (foreign : ∀ c ∈ word, c ∉ "&and!is_empty(\"'".toList) (text : List Char) :
    word <:+: wordsRespelled text ↔ word <:+: text := by
  have apart {old new : List Char} (within : ∀ c ∈ old ++ new, c ∈ "&and!is_empty(\"'".toList) :
      ∀ c ∈ old ++ new, c ∉ word := fun c member held => foreign c held (within c member)
  rw [wordsRespelled, infix_replaceAll_iff (by decide) (by decide) (apart (by simp)),
    infix_replaceAll_iff (by decide) (by decide) (apart (by simp)),
    infix_replaceAll_iff (by decide) (by decide) (apart (by simp)),
    infix_replaceAll_iff (by decide) (by decide) (apart (by simp))]

/-- A check for an answer is left exactly if another one, perhaps a negated one, stood directly behind
two beginnings of a check, or behind one. -/
theorem check_left_iff (text : List Char) :
    "is_empty(".toList <:+: wordsRespelled text ↔
      "is_emptyis_empty(".toList <:+: text ∨ "is_emptyis_empty!is_empty(".toList <:+: text := by
  have quotes (text : List Char) : "is_empty(".toList <:+: Text.replaceAll "\"".toList "'".toList text ↔
      "is_empty(".toList <:+: text := infix_replaceAll_iff (by decide) (by decide) (by simp) text
  have checks (text : List Char) :
      "is_empty(".toList <:+: Text.replaceAll "is_empty(".toList "(".toList text ↔
        "is_emptyis_empty(".toList <:+: text :=
    @infix_shortened_iff '(' "is_empty".toList (by decide) text
  have negated (text : List Char) :
      "is_emptyis_empty(".toList <:+: Text.replaceAll "!is_empty(".toList "(".toList text ↔
        "is_emptyis_empty(".toList <:+: text ∨ "is_emptyis_empty!is_empty(".toList <:+: text := by
    refine @infix_other_shortened_iff '(' "!is_empty".toList "is_emptyis_empty".toList (by decide)
      (by decide) (fun block first second => ?_) text
    rcases List.suffix_or_suffix_of_suffix first second with inside | inside
    · exact absurd inside (by decide)
    · exact absurd inside (by decide)
  have conjunctions {word : List Char} (apart : ∀ c ∈ "&&".toList ++ "and".toList, c ∉ word) :
      word <:+: Text.replaceAll "&&".toList "and".toList text ↔ word <:+: text :=
    infix_replaceAll_iff (by decide) (by decide) apart text
  rw [wordsRespelled, quotes, checks, negated, conjunctions (by simp), conjunctions (by simp)]

/-- A condition in which respelling leaves no operator of the original notation and puts none together.
Three equality signs are in a row only behind an exclamation mark, and five not even there; no two
equality signs have nothing but suffixes between them; no suffix has another one inside; and a check is
not written directly behind the beginnings of others, suffixes apart. -/
structure Regular (text : List Char) : Prop where
  unnegated : ¬ Unnegated 3 text
  negated : ¬ "!=====".toList <:+: text
  unparted : ∀ count, ¬ parted (count + 1) <:+: text
  unnested : ¬ ".NAOK".toList <:+: withoutSuffixes text
  unrepeated : ¬ "is_emptyis_empty(".toList <:+: withoutSuffixes text
  unjoined : ¬ "is_emptyis_empty!is_empty(".toList <:+: withoutSuffixes text

private theorem equality_respelled_iff (text : List Char) :
    "==".toList <:+: respellChars text ↔
      (Unnegated 3 text ∨ "!=====".toList <:+: text) ∨ ∃ count, parted (count + 1) <:+: text := by
  have neighbours : parted 0 <:+: loosened (halved text) ↔
      Unnegated 3 text ∨ "!=====".toList <:+: text := equality_left_iff text
  have joined : "==".toList <:+: withoutSuffixes (loosened (halved text)) ↔
      ∃ count, parted count <:+: loosened (halved text) := equalities_joined_iff _
  rw [respellChars_eq_stages, wordsRespelled_infix_iff (by simp), joined]
  constructor
  · rintro ⟨count, occurs⟩
    cases count with
    | zero => exact .inl (neighbours.mp occurs)
    | succ count => exact .inr ⟨count, (parted_left_iff count text).mp occurs⟩
  · rintro (together | ⟨count, occurs⟩)
    · exact ⟨0, neighbours.mpr together⟩
    · exact ⟨count + 1, (parted_left_iff count text).mpr occurs⟩

private theorem suffix_respelled_iff (text : List Char) :
    ".NAOK".toList <:+: respellChars text ↔ ".NAOK".toList <:+: withoutSuffixes text := by
  rw [respellChars_eq_stages, wordsRespelled_infix_iff (by simp),
    word_without_suffixes_iff (by decide)]

private theorem check_respelled_iff (text : List Char) :
    "is_empty(".toList <:+: respellChars text ↔
      "is_emptyis_empty(".toList <:+: withoutSuffixes text ∨
        "is_emptyis_empty!is_empty(".toList <:+: withoutSuffixes text := by
  rw [respellChars_eq_stages, check_left_iff, word_without_suffixes_iff (by decide),
    word_without_suffixes_iff (by decide)]

/-- A conjunction sign is never left: nothing that is put in for it or later has a part of one. -/
theorem no_conjunction_respelled (text : List Char) : ¬ "&&".toList <:+: respellChars text := by
  rw [respellChars_eq_stages, wordsRespelled, infix_replaceAll_iff (by decide) (by decide) (by simp),
    infix_replaceAll_iff (by decide) (by decide) (by simp),
    infix_replaceAll_iff (by decide) (by decide) (by simp)]
  exact not_infix_replaceAll (by decide) (by decide) (by simp) _

private theorem no_quote_respelled (text : List Char) : ¬ "\"".toList <:+: respellChars text := by
  rw [respellChars_eq_stages, wordsRespelled]
  exact not_infix_replaceAll (by decide) (by decide) (by simp) _

private theorem no_spelling_left_iff (text : List Char) :
    (∀ spelling ∈ operatorSpellings, ¬ spelling.1.toList <:+: respellChars text) ↔ Regular text := by
  constructor
  · intro absent
    have equality := absent ("==", "=") (by decide)
    have suffix := absent (".NAOK", "") (by decide)
    have check := absent ("is_empty(", "(") (by decide)
    rw [equality_respelled_iff, not_or, not_or, not_exists] at equality
    rw [suffix_respelled_iff] at suffix
    rw [check_respelled_iff, not_or] at check
    exact ⟨equality.1.1, equality.1.2, equality.2, suffix, check.1, check.2⟩
  · intro regular
    have equality : ¬ "==".toList <:+: respellChars text := by
      rw [equality_respelled_iff]
      rintro ((unnegated | negated) | ⟨count, occurs⟩)
      · exact regular.unnegated unnegated
      · exact regular.negated negated
      · exact regular.unparted count occurs
    have suffix : ¬ ".NAOK".toList <:+: respellChars text := by
      rw [suffix_respelled_iff]
      exact regular.unnested
    have check : ¬ "is_empty(".toList <:+: respellChars text := by
      rw [check_respelled_iff]
      rintro (repeated | joined)
      · exact regular.unrepeated repeated
      · exact regular.unjoined joined
    have strict : ¬ "!==".toList <:+: respellChars text :=
      fun occurs => equality (List.IsInfix.trans ⟨['!'], [], rfl⟩ occurs)
    have negated : ¬ "!is_empty(".toList <:+: respellChars text :=
      fun occurs => check (List.IsInfix.trans ⟨['!'], [], rfl⟩ occurs)
    simp only [operatorSpellings, List.forall_mem_cons]
    exact ⟨equality, strict, suffix, no_conjunction_respelled text, negated, check,
      no_quote_respelled text, by simp⟩

/-- The length of a condition, in which a conjunction sign and a double quote count more than what they
become: every respelling makes a condition smaller. -/
def weight (text : List Char) : Nat :=
  text.length + text.count '&' + text.count '"'

private theorem weight_append (front back : List Char) :
    weight (front ++ back) = weight front + weight back := by
  simp only [weight, List.length_append, List.count_append]
  omega

section Fold
variable {spellings : List (String × String)}
  (smaller : ∀ spelling ∈ spellings, weight spelling.2.toList < weight spelling.1.toList)
include smaller

private theorem weight_foldl_le (text : List Char) :
    weight (spellings.foldl
      (fun text spelling => Text.replaceAll spelling.1.toList spelling.2.toList text) text) ≤
      weight text := by
  induction spellings generalizing text with
  | nil => exact Nat.le_refl _
  | cons spelling later ih =>
    have first := size_replaceAll_le weight_append (smaller spelling List.mem_cons_self) text
    have rest := ih (fun other member => smaller other (List.mem_cons_of_mem _ member))
      (Text.replaceAll spelling.1.toList spelling.2.toList text)
    exact rest.trans first

/-- No later respelling can undo an earlier one, so a condition that stays as it is has no spelling that
is replaced. -/
theorem foldl_eq_self_iff (text : List Char) :
    spellings.foldl
      (fun text spelling => Text.replaceAll spelling.1.toList spelling.2.toList text) text = text ↔
      ∀ spelling ∈ spellings, ¬ spelling.1.toList <:+: text := by
  refine ⟨fun unchanged => ?_, foldl_replaceAll_of_absent⟩
  induction spellings with
  | nil => simp
  | cons spelling later ih =>
    have behind := fun other member => smaller other (List.mem_cons_of_mem _ member)
    rw [List.foldl_cons] at unchanged
    -- an occurrence would make the condition smaller, and nothing later makes it larger again
    have absent : ¬ spelling.1.toList <:+: text := by
      intro occurs
      have first := size_replaceAll_lt weight_append (smaller spelling List.mem_cons_self) occurs
      have rest := weight_foldl_le behind (Text.replaceAll spelling.1.toList spelling.2.toList text)
      rw [unchanged] at rest
      omega
    rw [replaceAll_of_absent _ absent] at unchanged
    exact List.forall_mem_cons.mpr ⟨absent, ih behind unchanged⟩

end Fold

private theorem respellChars_eq_self_iff (text : List Char) :
    respellChars text = text ↔ ∀ spelling ∈ operatorSpellings, ¬ spelling.1.toList <:+: text :=
  foldl_eq_self_iff (by decide) text

/-- A respelled condition never has a conjunction sign or a double quote. It has none of the other
spellings that are replaced, and is left as it is if it is respelled again, exactly if the condition was
regular. -/
theorem operators_respelled_iff (condition : String) :
    ¬ "&&".toList <:+: (respellOperators condition).toList ∧
      ¬ "\"".toList <:+: (respellOperators condition).toList ∧
      ((∀ spelling ∈ operatorSpellings, ¬ spelling.1.toList <:+: (respellOperators condition).toList) ↔
        Regular condition.toList) ∧
      (respellOperators (respellOperators condition) = respellOperators condition ↔
        Regular condition.toList) := by
  have chars : (respellOperators condition).toList = respellChars condition.toList :=
    String.toList_ofList
  have again : respellOperators (respellOperators condition) = respellOperators condition ↔
      respellChars (respellOperators condition).toList = (respellOperators condition).toList := by
    rw [← String.toList_inj, respellOperators, String.toList_ofList]
  rw [again, respellChars_eq_self_iff, chars]
  exact ⟨no_conjunction_respelled _, no_quote_respelled _, no_spelling_left_iff _,
    no_spelling_left_iff _⟩

/-- Of three equality signs in a row two are left, and of these one the next time. -/
theorem triple_equality_left : respellOperators "Q1 === 2" = "Q1 == 2" ∧
    "==".toList <:+: (respellOperators "Q1 === 2").toList ∧
    respellOperators (respellOperators "Q1 === 2") ≠ respellOperators "Q1 === 2" := by
  decide +kernel

end Questionnaire.RespelledOperators
