import Mathlib.Data.List.Forall2
import Mathlib.Data.List.TakeWhile
import Questionnaire.Proofs.Deletion

/-! What tags and script blocks are, said without the search for them, and that the search finds
exactly these: its widths are positive where a tag or a script block begins, and only there. -/
namespace Questionnaire.Tags
open Text Markup Deletion

/-- A tag: `<` or `</`, an ASCII letter, anything without angle brackets, `>`. -/
inductive IsTag : List Char → Prop where
  | opening {letter : Char} {inside : List Char} (alpha : letter.isAlpha = true)
      (plain : ∀ c ∈ inside, c ≠ '<' ∧ c ≠ '>') : IsTag ('<' :: letter :: (inside ++ ['>']))
  | closing {letter : Char} {inside : List Char} (alpha : letter.isAlpha = true)
      (plain : ∀ c ∈ inside, c ≠ '<' ∧ c ≠ '>') : IsTag ('<' :: '/' :: letter :: (inside ++ ['>']))

/-- The word `script` in any case. -/
def ScriptWord (word : List Char) : Prop :=
  List.Forall₂ (fun letter c => spells letter c = true) ['s', 'c', 'r', 'i', 'p', 't'] word

/-- A tag that opens a script block: the word ends behind its last letter, and all up to the next `>`
belongs to the tag. -/
inductive IsOpening : List Char → Prop where
  | mk {word attributes : List Char} (spelled : ScriptWord word)
      (ends : ∀ c ∈ attributes.head?, isWordChar c = false) (within : '>' ∉ attributes) :
      IsOpening ('<' :: (word ++ attributes ++ ['>']))

/-- A tag that closes a script block: only blanks are between the word and the `>`. -/
inductive IsClosing : List Char → Prop where
  | mk {word blanks : List Char} (spelled : ScriptWord word)
      (blank : ∀ c ∈ blanks, isBlank c = true) :
      IsClosing ('<' :: '/' :: (word ++ blanks ++ ['>']))

/-- A script block: anything between a tag that opens it and one that closes it. -/
inductive IsScriptBlock : List Char → Prop where
  | mk {opening body closing : List Char} (opens : IsOpening opening) (closes : IsClosing closing) :
      IsScriptBlock (opening ++ body ++ closing)

/-- The longest run of some characters ends at a `>` exactly if there is such a run in front of
one. -/
theorem run_closed_iff {p : Char → Bool} (stops : p '>' = false) {text : List Char} {size : Nat} :
    ((text.drop (text.takeWhile p).length).head? = some '>' ∧ (text.takeWhile p).length = size) ↔
      ∃ run behind, text = run ++ '>' :: behind ∧ (∀ c ∈ run, p c = true) ∧ run.length = size := by
  constructor
  · rintro ⟨closed, long⟩
    obtain ⟨rest, split⟩ := List.takeWhile_prefix (p := p) (l := text)
    have behindRun : text.drop (text.takeWhile p).length = rest := by
      conv => lhs; arg 2; rw [← split]
      simp
    rw [behindRun] at closed
    obtain ⟨behind, rfl⟩ := List.head?_eq_some_iff.mp closed
    exact ⟨_, behind, split.symm, fun c member => List.mem_takeWhile_imp member, long⟩
  · rintro ⟨run, behind, rfl, all, long⟩
    have whole : (run ++ '>' :: behind).takeWhile p = run := by
      rw [List.takeWhile_append_of_pos all, List.takeWhile_cons_of_neg (by simp [stops]),
        List.append_nil]
    rw [whole]
    exact ⟨by simp, long⟩

private theorem tagBodyWidth?_eq_some_iff {text : List Char} {size : Nat} :
    tagBodyWidth? text = some size ↔ ∃ inside behind, text = inside ++ '>' :: behind ∧
      (∀ c ∈ inside, c ≠ '<' ∧ c ≠ '>') ∧ inside.length + 1 = size := by
  have runs := @run_closed_iff (fun c => c != '<' && c != '>') (by decide) text (size - 1)
  unfold tagBodyWidth?
  simp only [beq_iff_eq, Option.ite_none_right_eq_some, Option.some.injEq]
  constructor
  · rintro ⟨closed, long⟩
    obtain ⟨inside, behind, split, plain, same⟩ := runs.mp ⟨closed, by omega⟩
    exact ⟨inside, behind, split, by simpa using plain, by omega⟩
  · rintro ⟨inside, behind, split, plain, long⟩
    obtain ⟨closed, same⟩ := runs.mpr ⟨inside, behind, split, by simpa using plain, by omega⟩
    exact ⟨closed, by omega⟩

/-- A tag is found with its width, whatever is behind it. -/
theorem IsTag.width {tag : List Char} (isTag : IsTag tag) (behind : List Char) :
    tagWidth (tag ++ behind) = tag.length := by
  cases isTag with
  | @opening letter inside alpha plain =>
    have body : tagBodyWidth? (inside ++ '>' :: behind) = some (inside.length + 1) :=
      tagBodyWidth?_eq_some_iff.mpr ⟨inside, behind, rfl, plain, rfl⟩
    have letterFirst : letter ≠ '/' := by
      rintro rfl
      exact absurd alpha (by decide)
    have unslashed : tagWidth ('<' :: letter :: (inside ++ '>' :: behind)) =
        ((tagBodyWidth? (inside ++ '>' :: behind)).map (2 + ·)).getD 0 := by
      unfold tagWidth
      split
      · next same => simp_all
      · next same => simp_all
      · next none => simp_all
    simp [unslashed, body]
    omega
  | @closing letter inside alpha plain =>
    have body : tagBodyWidth? (inside ++ '>' :: behind) = some (inside.length + 1) :=
      tagBodyWidth?_eq_some_iff.mpr ⟨inside, behind, rfl, plain, rfl⟩
    simp [tagWidth, alpha, body]
    omega

/-- Where the search finds a tag, there is one. -/
theorem exists_tag {text : List Char} (found : 0 < tagWidth text) :
    ∃ tag, IsTag tag ∧ tag <+: text := by
  unfold tagWidth at found
  split at found
  · next letter rest =>
    split at found
    · next alpha =>
      cases body : tagBodyWidth? rest with
      | none => simp [body] at found
      | some size =>
        obtain ⟨inside, behind, rfl, plain, _⟩ := tagBodyWidth?_eq_some_iff.mp body
        exact ⟨_, .closing alpha plain, behind, by simp⟩
    · simp at found
  · next letter rest unslashed =>
    split at found
    · next alpha =>
      cases body : tagBodyWidth? rest with
      | none => simp [body] at found
      | some size =>
        obtain ⟨inside, behind, rfl, plain, _⟩ := tagBodyWidth?_eq_some_iff.mp body
        exact ⟨_, .opening alpha plain, behind, by simp⟩
    · simp at found
  · simp at found

theorem tags_found : Finds tagWidth IsTag := by
  refine fun text => ⟨exists_tag, ?_⟩
  rintro ⟨tag, isTag, behind, rfl⟩
  rw [isTag.width]
  cases isTag <;> simp

theorem tags_taken : Takes tagWidth IsTag := by
  intro text found
  obtain ⟨tag, isTag, behind, rfl⟩ := exists_tag found
  rw [isTag.width, List.take_left]
  exact isTag

private theorem ScriptWord.length {word : List Char} (spelled : ScriptWord word) :
    word.length = scriptLength :=
  (List.Forall₂.length_eq spelled).symm

theorem beginsWithScript_iff {text : List Char} :
    beginsWithScript text = true ↔ ∃ word behind, ScriptWord word ∧ text = word ++ behind := by
  constructor
  · intro begins
    unfold beginsWithScript at begins
    split at begins
    · next c₁ c₂ c₃ c₄ c₅ c₆ behind =>
      simp only [Bool.and_eq_true] at begins
      exact ⟨[c₁, c₂, c₃, c₄, c₅, c₆], behind, by simp [ScriptWord, begins], rfl⟩
    · simp at begins
  · rintro ⟨word, behind, spelled, rfl⟩
    match word, spelled with
    | [c₁, c₂, c₃, c₄, c₅, c₆], .cons s (.cons c (.cons r (.cons i (.cons p (.cons t .nil))))) =>
      simp [beginsWithScript, s, c, r, i, p, t]

theorem ScriptWord.begins {word : List Char} (spelled : ScriptWord word) (behind : List Char) :
    beginsWithScript (word ++ behind) = true :=
  beginsWithScript_iff.mpr ⟨word, behind, spelled, rfl⟩

private theorem ScriptWord.behind {word : List Char} (spelled : ScriptWord word)
    (behind : List Char) :
    (word ++ behind).drop scriptLength = behind := by
  rw [← spelled.length, List.drop_left]

/-- What is in front of the first `>` is shorter than the text exactly if there is one. -/
theorem shorter_iff_closed {text : List Char} :
    (text.takeWhile (· != '>')).length < text.length ↔
      (text.drop (text.takeWhile (· != '>')).length).head? = some '>' := by
  induction text with
  | nil => simp
  | cons c rest ih =>
    by_cases bracket : c = '>'
    · simp [bracket]
    · simpa [bracket] using ih

/-- A text is a match by itself exactly if a match that is as wide stands in front of it. -/
theorem whole_match_iff {width? : List Char → Option Nat} {Matched : List Char → Prop}
    (exact : ∀ {text : List Char} {size : Nat}, width? text = some size ↔
      ∃ part behind, text = part ++ behind ∧ Matched part ∧ part.length = size)
    {text : List Char} : width? text = some text.length ↔ Matched text := by
  rw [exact]
  constructor
  · rintro ⟨part, behind, rfl, matched, whole⟩
    obtain rfl : behind = [] := by simpa using whole
    simpa using matched
  · exact fun matched => ⟨text, [], by simp, matched, rfl⟩

theorem openingWidth?_eq_some_iff {text : List Char} {size : Nat} :
    openingWidth? text = some size ↔
      ∃ opening behind, text = opening ++ behind ∧ IsOpening opening ∧ opening.length = size := by
  constructor
  · intro found
    unfold openingWidth? at found
    split at found
    · next rest =>
      simp only [Option.ite_none_right_eq_some, Bool.and_eq_true, Bool.not_eq_true',
        decide_eq_true_eq, Option.some.injEq] at found
      obtain ⟨⟨⟨begins, ends⟩, closed⟩, rfl⟩ := found
      obtain ⟨word, after, spelled, rfl⟩ := beginsWithScript_iff.mp begins
      rw [spelled.behind] at ends closed ⊢
      obtain ⟨attributes, behind, rfl, within, long⟩ :=
        (run_closed_iff (by decide)).mp ⟨shorter_iff_closed.mp closed, rfl⟩
      refine ⟨'<' :: (word ++ attributes ++ ['>']), behind, by simp, .mk spelled ?_ ?_, ?_⟩
      · intro c first
        cases attributes <;> simp_all
      · intro member
        simpa using within _ member
      · simp [← long, spelled.length]
        omega
    · simp at found
  · rintro ⟨_, behind, rfl, ⟨spelled, ends, within⟩, rfl⟩
    next word attributes =>
    obtain ⟨closed, long⟩ := (run_closed_iff (p := (· != '>')) (by decide)).mpr
      ⟨attributes, behind, rfl,
        fun c member => by simpa using ne_of_mem_of_not_mem member within, rfl⟩
    have shorter := shorter_iff_closed.mpr closed
    rw [long] at shorter
    have wordEnds : (attributes ++ '>' :: behind).head?.any isWordChar = false := by
      cases attributes with
      | nil => exact (by decide : isWordChar '>' = false)
      | cons c _ => simpa using ends c (by simp)
    simp only [openingWidth?, List.cons_append, List.append_assoc, List.nil_append,
      spelled.begins, spelled.behind, wordEnds, shorter, long, Bool.not_false, decide_true,
      Bool.and_true, if_true]
    simp only [List.length_cons, List.length_append, List.length_nil, spelled.length]
    congr 1
    omega

instance : DecidablePred IsOpening := fun _ =>
  decidable_of_iff _ (whole_match_iff openingWidth?_eq_some_iff)

theorem closingWidth?_eq_some_iff {text : List Char} {size : Nat} :
    closingWidth? text = some size ↔
      ∃ closing behind, text = closing ++ behind ∧ IsClosing closing ∧ closing.length = size := by
  constructor
  · intro found
    unfold closingWidth? at found
    split at found
    · next rest =>
      simp only [Option.ite_none_right_eq_some, Bool.and_eq_true, beq_iff_eq,
        Option.some.injEq] at found
      obtain ⟨⟨begins, closed⟩, rfl⟩ := found
      obtain ⟨word, after, spelled, rfl⟩ := beginsWithScript_iff.mp begins
      rw [spelled.behind] at closed ⊢
      obtain ⟨blanks, behind, rfl, blank, long⟩ :=
        (run_closed_iff (by decide)).mp ⟨closed, rfl⟩
      refine ⟨'<' :: '/' :: (word ++ blanks ++ ['>']), behind, by simp, .mk spelled blank, ?_⟩
      simp [← long, spelled.length]
      omega
    · simp at found
  · rintro ⟨_, behind, rfl, ⟨spelled, blank⟩, rfl⟩
    next word blanks =>
    obtain ⟨closed, long⟩ := (run_closed_iff (p := isBlank) (by decide)).mpr
      ⟨blanks, behind, rfl, blank, rfl⟩
    rw [long] at closed
    simp only [closingWidth?, List.cons_append, List.append_assoc, List.nil_append,
      spelled.begins, spelled.behind, closed, long, beq_self_eq_true, Bool.and_true, if_true]
    simp only [List.length_cons, List.length_append, List.length_nil, spelled.length]
    congr 1
    omega

instance : DecidablePred IsClosing := fun _ =>
  decidable_of_iff _ (whole_match_iff closingWidth?_eq_some_iff)

/-- The search for a closing tag succeeds exactly if there is one. -/
theorem throughClosing?_isSome_iff {text : List Char} :
    (throughClosing? text).isSome = true ↔ ∃ closing, IsClosing closing ∧ closing <:+: text := by
  induction text with
  | nil =>
    refine iff_of_false (by simp [throughClosing?]) ?_
    rintro ⟨_, ⟨_, _⟩, inside⟩
    simp at inside
  | cons c rest ih =>
    cases here : closingWidth? (c :: rest) with
    | some size =>
      obtain ⟨closing, behind, split, closes, _⟩ := closingWidth?_eq_some_iff.mp here
      refine iff_of_true (by simp [throughClosing?, here]) ⟨closing, closes, ?_⟩
      rw [split]
      exact (List.prefix_append _ _).isInfix
    | none =>
      simp only [throughClosing?, here, Option.isSome_map, ih, List.infix_cons_iff]
      refine exists_congr fun closing => and_congr_right fun closes => ?_
      refine (or_iff_right ?_).symm
      rintro ⟨behind, split⟩
      have found := closingWidth?_eq_some_iff.mpr ⟨closing, behind, split.symm, closes, rfl⟩
      simp [here] at found

/-- What is in front of the end of the closing tag that is found ends with a closing tag. -/
theorem take_throughClosing? {text : List Char} {size : Nat}
    (found : throughClosing? text = some size) :
    ∃ body closing, IsClosing closing ∧ text.take size = body ++ closing := by
  induction text generalizing size with
  | nil => simp [throughClosing?] at found
  | cons c rest ih =>
    cases here : closingWidth? (c :: rest) with
    | some width =>
      obtain ⟨closing, behind, split, closes, rfl⟩ := closingWidth?_eq_some_iff.mp here
      obtain rfl : closing.length = size := by simpa [throughClosing?, here] using found
      exact ⟨[], closing, closes, by rw [split, List.take_left, List.nil_append]⟩
    | none =>
      simp only [throughClosing?, here, Option.map_eq_some_iff] at found
      obtain ⟨later, found, rfl⟩ := found
      obtain ⟨body, closing, closes, split⟩ := ih found
      exact ⟨c :: body, closing, closes, by rw [List.take_succ_cons, split, List.cons_append]⟩

theorem scriptBlocks_taken : Takes scriptWidth IsScriptBlock := by
  intro text found
  cases opens : openingWidth? text with
  | none => simp [scriptWidth, opens] at found
  | some size =>
    obtain ⟨opening, behind, rfl, isOpening, rfl⟩ := openingWidth?_eq_some_iff.mp opens
    cases through : throughClosing? behind with
    | none => simp [scriptWidth, opens, through] at found
    | some size =>
      obtain ⟨body, closing, isClosing, split⟩ := take_throughClosing? through
      have width : scriptWidth (opening ++ behind) = opening.length + size := by
        simp [scriptWidth, opens, through]
      rw [width, List.take_length_add_append, split, ← List.append_assoc]
      exact .mk isOpening isClosing

theorem scriptBlocks_found : Finds scriptWidth IsScriptBlock := by
  intro text
  constructor
  · exact fun found => ⟨_, scriptBlocks_taken text found, List.take_prefix _ _⟩
  · rintro ⟨_, ⟨isOpening, isClosing⟩, behind, rfl⟩
    next opening body closing =>
    have opens := openingWidth?_eq_some_iff.mpr
      ⟨opening, body ++ closing ++ behind, rfl, isOpening, rfl⟩
    obtain ⟨through, closed⟩ := Option.isSome_iff_exists.mp
      (throughClosing?_isSome_iff.mpr ⟨closing, isClosing, body, behind, rfl⟩)
    have wide : 0 < opening.length := by
      cases isOpening
      simp
    rw [show opening ++ body ++ closing ++ behind = opening ++ (body ++ closing ++ behind) by simp]
    simp only [scriptWidth, opens, List.drop_left, closed, Option.map_some, Option.getD_some]
    omega

end Questionnaire.Tags
