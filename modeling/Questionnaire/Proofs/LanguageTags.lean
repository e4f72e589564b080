import Mathlib
import Questionnaire.Locale

/-! How language tags are read. The kinds of subtags are told apart without regard to their case, and
only the case is changed, so a tag is read from a text in lower case as from the text itself. What is
read is said as a relation: a language, then perhaps a script, perhaps a region, and variants. -/
namespace Questionnaire.LanguageTags
open Questionnaire.Locale LanguageTag

private theorem code_of_isAlpha {c : Char} (letter : c.isAlpha = true) :
    65 ≤ c.toNat ∧ c.toNat ≤ 122 := by
  delta Char.isAlpha Char.isUpper Char.isLower at letter
  simp only [Bool.or_eq_true, Bool.and_eq_true, decide_eq_true_eq, ge_iff_le,
    UInt32.le_iff_toNat_le] at letter
  have first : 'A'.val.toNat = 65 := by decide
  have last : 'z'.val.toNat = 122 := by decide
  have upper : 'Z'.val.toNat = 90 := by decide
  have lower : 'a'.val.toNat = 97 := by decide
  change 65 ≤ c.val.toNat ∧ c.val.toNat ≤ 122
  omega

private theorem toLower_of_not_isAlpha {c : Char} (other : c.isAlpha = false) : c.toLower = c := by
  apply Char.toLower_eq_of_not_isUpper
  intro upper
  delta Char.isAlpha at other
  simp [upper] at other

/-- Only letters have another case. -/
theorem toLower_eq_iff {c mark : Char} (other : mark.isAlpha = false) :
    c.toLower = mark ↔ c = mark := by
  constructor
  · intro same
    have unlettered : c.isAlpha = false := by
      rw [← Char.isAlpha_toLower_eq_isAlpha, same, other]
    rw [← same, toLower_of_not_isAlpha unlettered]
  · rintro rfl
    exact toLower_of_not_isAlpha other

/-- A property that is the same for all letters does not see the case. -/
theorem caseless_of_letters {p : Char → Bool} (value : Bool)
    (letters : ∀ c, c.isAlpha = true → p c = value) (c : Char) : p c.toLower = p c := by
  cases letter : c.isAlpha with
  | false => rw [toLower_of_not_isAlpha letter]
  | true => rw [letters c letter, letters c.toLower (by rw [Char.isAlpha_toLower_eq_isAlpha, letter])]

private theorem isDigit_of_isAlpha (c : Char) (letter : c.isAlpha = true) : c.isDigit = false := by
  have code := code_of_isAlpha letter
  have nine : '9'.toNat = 57 := by decide
  rw [Bool.eq_false_iff, ne_eq, Char.isDigit_iff_toNat]
  omega

private theorem isDigit_toLower (c : Char) : c.toLower.isDigit = c.isDigit :=
  caseless_of_letters false isDigit_of_isAlpha c

private theorem isAlphanum_toLower (c : Char) : c.toLower.isAlphanum = c.isAlphanum := by
  delta Char.isAlphanum
  simp only [Char.isAlpha_toLower_eq_isAlpha, isDigit_toLower]

private theorem isPlainAscii_toLower (c : Char) : isPlainAscii c.toLower = isPlainAscii c := by
  refine caseless_of_letters true (fun c letter => ?_) c
  have code := code_of_isAlpha letter
  simp only [isPlainAscii, Bool.and_eq_true, decide_eq_true_eq]
  omega

theorem isBlank_of_isAlpha (c : Char) (letter : c.isAlpha = true) : Text.isBlank c = false := by
  have code := code_of_isAlpha letter
  simp only [Text.isBlank, Bool.or_eq_false_iff, Bool.and_eq_false_iff, decide_eq_false_iff_not,
    beq_eq_false_iff_ne]
  omega

theorem isBlank_toLower (c : Char) : Text.isBlank c.toLower = Text.isBlank c :=
  caseless_of_letters false isBlank_of_isAlpha c

variable {text part : List Char}

@[simp]
theorem lower_length (text : List Char) : (lower text).length = text.length := by
  simp [lower]

@[simp]
theorem lower_lower (text : List Char) : lower (lower text) = lower text := by
  simp [lower]

@[simp]
theorem lower_upper (text : List Char) : lower (upper text) = lower text := by
  simp [lower, upper]

@[simp]
theorem upper_lower (text : List Char) : upper (lower text) = upper text := by
  simp [lower, upper]

@[simp]
theorem lower_capitalized (text : List Char) : lower (capitalized text) = lower text := by
  cases text <;> simp [lower, capitalized]

@[simp]
theorem capitalized_lower (text : List Char) : capitalized (lower text) = capitalized text := by
  cases text <;> simp [lower, capitalized]

@[simp]
theorem all_lower {p : Char → Bool} (caseless : ∀ c, p c.toLower = p c) (text : List Char) :
    (lower text).all p = text.all p := by
  simp [lower, List.all_map, Function.comp_def, caseless]

private theorem lower_of_digits (digits : text.all Char.isDigit = true) : lower text = text := by
  have same : ∀ c ∈ text, c.toLower = id c := by
    intro c member
    refine toLower_of_not_isAlpha (Bool.eq_false_iff.mpr fun letter => ?_)
    have digit := List.all_eq_true.mp digits c member
    simp [isDigit_of_isAlpha c letter] at digit
  rw [lower, List.map_congr_left same, List.map_id]

/-- A kind of subtags is read in any case, and only the case is changed. -/
structure Caseless (read : List Char → Option (List Char)) : Prop where
  ignores : ∀ text, read (lower text) = read text
  respells : ∀ text part, read text = some part → lower part = lower text

/-- What is read is in the case in which it is left. -/
theorem Caseless.again {read : List Char → Option (List Char)} (caseless : Caseless read)
    (found : read text = some part) : read part = some part := by
  calc
    read part = read (lower part) := (caseless.ignores part).symm
    _ = read (lower text) := by rw [caseless.respells text part found]
    _ = some part := by rw [caseless.ignores, found]

theorem language_caseless : Caseless language? where
  ignores text := by
    simp [language?, all_lower Char.isAlpha_toLower_eq_isAlpha]
  respells text part found := by
    simp only [language?, Option.ite_none_right_eq_some, Option.some.injEq] at found
    rw [← found.2, lower_lower]

theorem script_caseless : Caseless script? where
  ignores text := by
    simp [script?, all_lower Char.isAlpha_toLower_eq_isAlpha]
  respells text part found := by
    simp only [script?, Option.ite_none_right_eq_some, Option.some.injEq] at found
    rw [← found.2, lower_capitalized]

theorem region_caseless : Caseless region? where
  ignores text := by
    simp only [region?, lower_length, all_lower Char.isAlpha_toLower_eq_isAlpha,
      all_lower isDigit_toLower, upper_lower]
    split
    · rfl
    · split
      · next digits => rw [lower_of_digits digits.2]
      · rfl
  respells text part found := by
    unfold region? at found
    split at found
    · rw [← Option.some.inj found, lower_upper]
    · split at found
      · rw [← Option.some.inj found]
      · cases found

theorem variant_caseless : Caseless variant? where
  ignores text := by
    have first : (lower text).head?.any Char.isDigit = text.head?.any Char.isDigit := by
      cases text <;> simp [lower, isDigit_toLower]
    simp only [variant?, lower_length, lower_lower, all_lower isAlphanum_toLower,
      all_lower isPlainAscii_toLower, first]
  respells text part found := by
    simp only [variant?, Option.ite_none_right_eq_some, Option.some.injEq] at found
    rw [← found.2, lower_lower]

/-- Reads a part that may be left out: if it can be read from the subtag in front, it is. -/
inductive ReadsOptional (read : List Char → Option (List Char)) :
    List (List Char) → Option (List Char) → List (List Char) → Prop where
  | present {subtag part : List Char} {rest : List (List Char)} (found : read subtag = some part) :
      ReadsOptional read (subtag :: rest) (some part) rest
  | absent {rest : List (List Char)} (other : ∀ subtag ∈ rest.head?, read subtag = none) :
      ReadsOptional read rest none rest

/-- Reads variants, all of them. -/
def ReadsVariants (given ordered : List (List Char)) : Prop :=
  ∃ variants, List.Forall₂ (fun subtag part => variant? subtag = some part) given variants ∧
    ordered = orderVariants variants

/-- Reads a tag from its subtags. -/
inductive Reads : List (List Char) → LanguageTag → Prop where
  | mk {first : List Char} {afterLanguage afterScript afterRegion : List (List Char)}
      {tag : LanguageTag} (language : language? first = some tag.language)
      (script : ReadsOptional script? afterLanguage tag.script afterScript)
      (region : ReadsOptional region? afterScript tag.region afterRegion)
      (variants : ReadsVariants afterRegion tag.variants) : Reads (first :: afterLanguage) tag

private theorem mapM_eq_some_iff {read : List Char → Option (List Char)}
    {given parts : List (List Char)} :
    given.mapM read = some parts ↔
      List.Forall₂ (fun subtag part => read subtag = some part) given parts := by
  induction given generalizing parts with
  | nil => simp [eq_comm]
  | cons subtag rest ih =>
    simp only [List.mapM_cons, Option.bind_eq_bind, Option.pure_def, Option.bind_eq_some_iff,
      Option.some.injEq, List.forall₂_cons_left_iff, ih]
    constructor
    · rintro ⟨part, found, others, rest, rfl⟩
      exact ⟨part, others, found, rest, rfl⟩
    · rintro ⟨part, others, found, rest, rfl⟩
      exact ⟨part, found, others, rest, rfl⟩

private theorem withVariants?_eq_some_iff {tag result : LanguageTag} {given : List (List Char)} :
    tag.withVariants? given = some result ↔
      ∃ ordered, ReadsVariants given ordered ∧ { tag with variants := ordered } = result := by
  simp only [withVariants?, Option.map_eq_some_iff, mapM_eq_some_iff, ReadsVariants]
  constructor
  · rintro ⟨variants, read, rfl⟩
    exact ⟨_, ⟨variants, read, rfl⟩, rfl⟩
  · rintro ⟨_, ⟨variants, read, rfl⟩, rfl⟩
    exact ⟨variants, read, rfl⟩

private theorem exists_optional (read : List Char → Option (List Char)) (given : List (List Char)) :
    ∃ part rest, ReadsOptional read given part rest := by
  cases given with
  | nil => exact ⟨none, [], .absent (by simp)⟩
  | cons subtag rest =>
    cases found : read subtag with
    | some part => exact ⟨some part, rest, .present found⟩
    | none => exact ⟨none, subtag :: rest, .absent (by simpa using found)⟩

private theorem withRegion?_eq {language : List Char} {script region : Option (List Char)}
    {given rest : List (List Char)} (optional : ReadsOptional region? given region rest) :
    withRegion? ⟨language, script, none, []⟩ given =
      withVariants? ⟨language, script, region, []⟩ rest := by
  cases optional with
  | present found => simp [withRegion?, found]
  | absent other =>
    cases given with
    | nil => rfl
    | cons subtag rest => simp [withRegion?, other subtag (by simp)]

private theorem withScript?_eq {language : List Char} {script : Option (List Char)}
    {given rest : List (List Char)} (optional : ReadsOptional script? given script rest) :
    withScript? ⟨language, none, none, []⟩ given = withRegion? ⟨language, script, none, []⟩ rest := by
  cases optional with
  | present found => simp [withScript?, found]
  | absent other =>
    cases given with
    | nil => rfl
    | cons subtag rest => simp [withScript?, other subtag (by simp)]

/-- A tag is read from a text exactly if it is read from its subtags. -/
theorem parse?_eq_some_iff {tag : LanguageTag} :
    parse? text = some tag ↔ Reads (subtags text) tag := by
  unfold parse?
  constructor
  · intro found
    split at found
    · cases found
    · next first afterLanguage split =>
      obtain ⟨language, read, found⟩ := Option.bind_eq_some_iff.mp found
      obtain ⟨script, afterScript, optionalScript⟩ := exists_optional script? afterLanguage
      obtain ⟨region, afterRegion, optionalRegion⟩ := exists_optional region? afterScript
      rw [withScript?_eq optionalScript, withRegion?_eq optionalRegion,
        withVariants?_eq_some_iff] at found
      obtain ⟨ordered, variants, rfl⟩ := found
      rw [split]
      exact .mk read optionalScript optionalRegion variants
  · intro reads
    cases split : subtags text with
    | nil => simp [split] at reads; cases reads
    | cons first afterLanguage =>
      rw [split] at reads
      cases reads with
      | mk language script region variants =>
        simp only [language, Option.bind_eq_bind, Option.bind_some]
        rw [withScript?_eq script, withRegion?_eq region, withVariants?_eq_some_iff]
        exact ⟨_, variants, rfl⟩

private theorem subtags_cons (c : Char) (text : List Char) :
    subtags (c :: text) =
      if c = '-' then [] :: subtags text else (subtags text).modifyHead (c :: ·) := by
  rw [subtags, List.splitOn_cons_eq_if_modifyHead]
  simp only [beq_iff_eq]
  rfl

private theorem subtags_lower (text : List Char) :
    subtags (lower text) = (subtags text).map lower := by
  induction text with
  | nil => rfl
  | cons c text ih =>
    have mark : c.toLower = '-' ↔ c = '-' := toLower_eq_iff (by decide)
    have step : lower (c :: text) = c.toLower :: lower text := rfl
    rw [step, subtags_cons, subtags_cons, ih]
    simp only [mark]
    split
    · rfl
    · cases subtags text <;> rfl

private theorem withVariants?_lower (tag : LanguageTag) (given : List (List Char)) :
    tag.withVariants? (given.map lower) = tag.withVariants? given := by
  have same : variant? ∘ lower = variant? := funext variant_caseless.ignores
  rw [withVariants?, withVariants?, List.mapM_map, same]

private theorem withRegion?_lower (tag : LanguageTag) (given : List (List Char)) :
    tag.withRegion? (given.map lower) = tag.withRegion? given := by
  cases given with
  | nil => rfl
  | cons subtag rest =>
    rw [List.map_cons, withRegion?, withRegion?, region_caseless.ignores, ← List.map_cons]
    simp only [withVariants?_lower]

private theorem withScript?_lower (tag : LanguageTag) (given : List (List Char)) :
    tag.withScript? (given.map lower) = tag.withScript? given := by
  cases given with
  | nil => rfl
  | cons subtag rest =>
    rw [List.map_cons, withScript?, withScript?, script_caseless.ignores, ← List.map_cons]
    simp only [withRegion?_lower]

/-- Tags are read in any case. -/
theorem parse?_lower (text : List Char) : parse? (lower text) = parse? text := by
  rw [parse?, parse?, subtags_lower]
  cases subtags text with
  | nil => rfl
  | cons first rest =>
    simp only [List.map_cons, language_caseless.ignores, withScript?_lower]

theorem head?_subtags (text : List Char) :
    (subtags text).head? = some (text.takeWhile (· != '-')) := by
  induction text with
  | nil => rfl
  | cons c text ih =>
    rw [subtags_cons]
    split
    · next hyphen => simp [hyphen]
    · next other =>
      cases split : subtags text with
      | nil => simp [split] at ih
      | cons front rest =>
        obtain rfl : front = text.takeWhile (· != '-') := by simpa [split] using ih
        simp [other]

theorem mem_subtags {subtag : List Char} (member : subtag ∈ subtags text) :
    '-' ∉ subtag ∧ subtag ⊆ text := by
  induction text generalizing subtag with
  | nil =>
    obtain rfl : subtag = [] := List.mem_singleton.mp member
    simp
  | cons c text ih =>
    rw [subtags_cons] at member
    split at member
    · rcases List.mem_cons.mp member with rfl | later
      · simp
      · exact ⟨(ih later).1, fun d held => List.mem_cons_of_mem c ((ih later).2 held)⟩
    · next unhyphenated =>
      obtain ⟨front, others, split⟩ := List.exists_cons_of_ne_nil (List.splitOn_ne_nil '-' text)
      rw [subtags, split, List.modifyHead_cons] at member
      have inFront : front ∈ subtags text := by
        rw [subtags, split]
        exact List.mem_cons_self
      rcases List.mem_cons.mp member with rfl | later
      · refine ⟨?_, List.cons_subset_cons c (ih inFront).2⟩
        simpa [Ne.symm unhyphenated] using (ih inFront).1
      · have inside : subtag ∈ subtags text := by
          rw [subtags, split]
          exact List.mem_cons_of_mem _ later
        exact ⟨(ih inside).1, fun d held => List.mem_cons_of_mem c ((ih inside).2 held)⟩

/-- What is no letter is in a part only if it is in the subtag from which the part is read. -/
theorem mem_of_respelled {subtag : List Char} {mark : Char} (other : mark.isAlpha = false)
    (same : lower part = lower subtag) (member : mark ∈ part) : mark ∈ subtag := by
  have respelled : mark ∈ lower subtag := by
    rw [← same, lower, ← toLower_of_not_isAlpha other]
    exact List.mem_map_of_mem member
  obtain ⟨c, held, spelled⟩ := List.mem_map.mp respelled
  rwa [(toLower_eq_iff other).mp spelled] at held

/-- The parts of a tag in the order in which they are written. -/
def parts (tag : LanguageTag) : List (List Char) :=
  tag.language :: (tag.script.toList ++ (tag.region.toList ++ tag.variants))

theorem chars_eq (tag : LanguageTag) : tag.chars = ['-'].intercalate (parts tag) := by
  simp [LanguageTag.chars, parts]

end Questionnaire.LanguageTags
