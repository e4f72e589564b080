import Questionnaire.Locale
import Questionnaire.Proofs.CanonicalTags

/-! Which catalog a language code gets. Whether or not the code is a tag, it is the one for the text in
front of its first hyphen or underscore; the canonical form of the code gets the same. What exactly a
tag is does not matter for that: `Conventional` says what is asked of the format of tags, and a language
with a script, a region and variants is one case of it. The canonical form itself is not always final,
since the text of a tag may end in a blank, and may be read as another tag. -/
namespace Questionnaire.CatalogLookup
open Questionnaire.Locale LanguageTag Questionnaire.LanguageTags

variable {text code : List Char}

/-- There is no blank at either end. -/
structure Trimmed (text : List Char) : Prop where
  front : ∀ c ∈ text.head?, Text.isBlank c = false
  back : ∀ c ∈ text.getLast?, Text.isBlank c = false

private theorem trimChars_eq (text : List Char) :
    Text.trimChars text = (text.dropWhile Text.isBlank).rdropWhile Text.isBlank := rfl

private theorem dropWhile_of_front (front : ∀ c ∈ text.head?, Text.isBlank c = false) :
    text.dropWhile Text.isBlank = text := by
  cases text with
  | nil => rfl
  | cons c rest => exact List.dropWhile_cons_of_neg (by simp [front c rfl])

private theorem trimChars_sublist (text : List Char) : (Text.trimChars text).Sublist text := by
  rw [trimChars_eq]
  exact (List.rdropWhile_prefix _ _).sublist.trans (List.dropWhile_sublist _)

private theorem trimChars_trimmed (text : List Char) : Trimmed (Text.trimChars text) := by
  rw [trimChars_eq]
  constructor
  · intro c front
    obtain ⟨removed, whole⟩ := List.rdropWhile_prefix Text.isBlank (text.dropWhile Text.isBlank)
    have kept : (text.dropWhile Text.isBlank).head? = some c := by
      rw [← whole, List.head?_append, front]
      rfl
    simpa [kept] using List.head?_dropWhile_not Text.isBlank text
  · intro c back
    obtain ⟨filled, rfl⟩ := List.mem_getLast?_eq_getLast back
    simpa using List.rdropWhile_last_not Text.isBlank _ filled

private theorem trimChars_eq_self_iff : Text.trimChars text = text ↔ Trimmed text := by
  constructor
  · intro same
    rw [← same]
    exact trimChars_trimmed text
  · intro trimmed
    rw [trimChars_eq, dropWhile_of_front trimmed.front, List.rdropWhile_eq_self_iff]
    intro filled
    simp [trimmed.back _ (List.getLast?_eq_some_getLast filled)]

/-- What stands in front without a blank stays there. -/
theorem takeWhile_trimChars {p : Char → Bool} (front : ∀ c ∈ text.head?, Text.isBlank c = false)
    (solid : ∀ c ∈ text.takeWhile p, Text.isBlank c = false) :
    (Text.trimChars text).takeWhile p = text.takeWhile p := by
  rw [trimChars_eq, dropWhile_of_front front]
  have whole := List.rdropWhile_append_rtakeWhile (p := Text.isBlank) (l := text)
  have blank : ∀ c ∈ text.rtakeWhile Text.isBlank, Text.isBlank c = true := by
    intro c member
    exact List.mem_rtakeWhile_imp member
  generalize text.rdropWhile Text.isBlank = kept at whole ⊢
  generalize text.rtakeWhile Text.isBlank = removed at whole blank
  subst whole
  rw [List.takeWhile_append] at solid ⊢
  split
  · next through =>
    -- A removed character that is reached would be both blank and solid.
    have unreached : removed.takeWhile p = [] := by
      refine List.eq_nil_iff_forall_not_mem.mpr fun c member => ?_
      have solid := solid c (by simp [through, member])
      simp [blank c ((List.takeWhile_sublist p).subset member)] at solid
    rw [unreached, List.append_nil]
    exact (List.takeWhile_sublist p).eq_of_length through
  · rfl

/-- A code as it is read as a tag. -/
def cleaned (code : List Char) : List Char :=
  (Text.trimChars code).map fun c => if c = '_' then '-' else c

private theorem cleaned_length (code : List Char) :
    (cleaned code).length = (Text.trimChars code).length :=
  List.length_map _

private theorem underscore_not_mem_cleaned (code : List Char) : '_' ∉ cleaned code := by
  intro member
  obtain ⟨c, _, same⟩ := List.mem_map.mp member
  split at same
  · cases same
  · next other => exact other same

/-- A replacement that keeps blanks and makes none keeps a text trimmed. -/
theorem Trimmed.map {f : Char → Char} (keeps : ∀ c, Text.isBlank (f c) = Text.isBlank c)
    (trimmed : Trimmed text) : Trimmed (text.map f) := by
  constructor
  · intro c front
    rw [List.head?_map] at front
    obtain ⟨d, first, rfl⟩ := Option.map_eq_some_iff.mp front
    rw [keeps, trimmed.front d first]
  · intro c back
    rw [List.getLast?_map] at back
    obtain ⟨d, last, rfl⟩ := Option.map_eq_some_iff.mp back
    rw [keeps, trimmed.back d last]

private theorem cleaned_trimmed (code : List Char) : Trimmed (cleaned code) := by
  refine (trimChars_trimmed code).map fun c => ?_
  split
  · next underscore =>
    subst underscore
    decide
  · rfl

private theorem cleaned_of_no_underscore (hyphens : '_' ∉ text) :
    cleaned text = Text.trimChars text := by
  have same : ∀ c ∈ Text.trimChars text, (if c = '_' then '-' else c) = id c := by
    intro c member
    refine if_neg ?_
    rintro rfl
    exact hyphens ((trimChars_sublist text).subset member)
  rw [cleaned, List.map_congr_left same, List.map_id]

private theorem cleaned_of_trimmed (hyphens : '_' ∉ text) (trimmed : Trimmed text) :
    cleaned text = text := by
  rw [cleaned_of_no_underscore hyphens, trimChars_eq_self_iff.mpr trimmed]

/-- A code that is not read as a tag is final once it is in lower case. -/
theorem cleaned_lower_cleaned (code : List Char) :
    cleaned (lower (cleaned code)) = lower (cleaned code) := by
  refine cleaned_of_trimmed ?_ ((cleaned_trimmed code).map isBlank_toLower)
  intro member
  exact underscore_not_mem_cleaned code (mem_of_respelled (by decide) (lower_lower _) member)

/-- The text in front of the first hyphen or underscore, in lower case. -/
def primaryChars (code : List Char) : List Char :=
  lower ((Text.trimChars code).takeWhile fun c => c != '-' && c != '_')

/-- The primary language of a code. -/
def primaryLanguage (code : String) : String :=
  String.ofList (primaryChars code.toList)

private theorem takeWhile_cleaned (code : List Char) :
    (cleaned code).takeWhile (· != '-') =
      (Text.trimChars code).takeWhile fun c => c != '-' && c != '_' := by
  have separators : ((· != '-') ∘ fun c => if c = '_' then '-' else c) =
      fun c => c != '-' && c != '_' := by
    funext c
    rw [Function.comp_apply]
    split
    · next underscore => simp [underscore]
    · next other => simp [other]
  rw [cleaned, List.takeWhile_map, separators]
  refine (List.map_congr_left fun c member => if_neg ?_).trans (List.map_id _)
  have passed := List.mem_takeWhile_imp member
  simp only [Bool.and_eq_true, bne_iff_ne] at passed
  exact passed.2

private theorem takeWhile_lower (text : List Char) :
    (lower text).takeWhile (· != '-') = lower (text.takeWhile (· != '-')) := by
  have hyphens : (· != '-') ∘ Char.toLower = (· != '-') := by
    funext c
    rw [Function.comp_apply, Bool.eq_iff_iff, bne_iff_ne, bne_iff_ne, ne_eq, ne_eq,
      toLower_eq_iff (by decide)]
  rw [lower, List.takeWhile_map, hyphens, lower]

/-- What looking up a message asks of a format of tags. Tags are read in any case. The text of a tag
begins as the text from which it was read does, with letters in front of the first hyphen, which are now
in lower case; it has underscores only from there, is not longer, and is itself read as a tag. -/
structure Conventional {Tag : Type} (format : TagFormat Tag) : Prop where
  caseless : ∀ text, format.read (lower text) = format.read text
  language : ∀ {text tag}, format.read text = some tag →
    (format.write tag).takeWhile (· != '-') = lower (text.takeWhile (· != '-'))
  letters : ∀ {text tag}, format.read text = some tag →
    text.takeWhile (· != '-') ≠ [] ∧ (text.takeWhile (· != '-')).all Char.isAlpha = true
  underscores : ∀ {text tag}, format.read text = some tag → '_' ∈ format.write tag → '_' ∈ text
  length_le : ∀ {text tag}, format.read text = some tag → (format.write tag).length ≤ text.length
  readable : ∀ {text tag}, format.read text = some tag →
    ∃ again, format.read (format.write tag) = some again

/-- The canonical form is final: if the code is read as a tag, its text ends without a blank and is read
as a tag that has the same text. -/
def Final {Tag : Type} (format : TagFormat Tag) (code : List Char) : Prop :=
  ∀ tag, format.read (cleaned code) = some tag →
    (∀ c ∈ (format.write tag).getLast?, Text.isBlank c = false) ∧
      (format.read (format.write tag)).map format.write = some (format.write tag)

section Formats

variable {Tag : Type} {format : TagFormat Tag} {tag : Tag}

private theorem canonicalChars_of_tag (found : format.read (cleaned code) = some tag) :
    format.canonicalChars code = format.write tag := by
  unfold cleaned at found
  simp [TagFormat.canonicalChars, found]

private theorem canonicalChars_of_none (unread : format.read (cleaned code) = none) :
    format.canonicalChars code = lower (cleaned code) := by
  unfold cleaned at unread ⊢
  simp [TagFormat.canonicalChars, unread]

/-- With a format whose tags are always read again from their texts only a blank at the end is in the
way. -/
theorem final_iff_of_faithful
    (faithful : ∀ text tag, format.read text = some tag → format.read (format.write tag) = some tag) :
    Final format code ↔ ∀ tag, format.read (cleaned code) = some tag →
      ∀ c ∈ (format.write tag).getLast?, Text.isBlank c = false := by
  refine forall₂_congr fun tag found => and_iff_left ?_
  rw [faithful _ tag found, Option.map_some]

namespace Conventional

private theorem front_letters (conventional : Conventional format)
    (found : format.read text = some tag) :
    (format.write tag).takeWhile (· != '-') ≠ [] ∧
      ((format.write tag).takeWhile (· != '-')).all Char.isAlpha = true := by
  obtain ⟨filled, letters⟩ := conventional.letters found
  rw [conventional.language found, all_lower Char.isAlpha_toLower_eq_isAlpha]
  exact ⟨by simpa [lower] using filled, letters⟩

private theorem front_solid (conventional : Conventional format)
    (found : format.read text = some tag) :
    ∀ c ∈ (format.write tag).takeWhile (· != '-'), Text.isBlank c = false := by
  intro c member
  have letters := (conventional.front_letters found).2
  exact isBlank_of_isAlpha c (List.all_eq_true.mp letters c member)

private theorem head_solid (conventional : Conventional format)
    (found : format.read text = some tag) :
    ∀ c ∈ (format.write tag).head?, Text.isBlank c = false := by
  intro c head
  obtain ⟨rest, whole⟩ := List.head?_eq_some_iff.mp head
  have filled := (conventional.front_letters found).1
  have solid := conventional.front_solid found
  rw [whole, List.takeWhile_cons] at filled solid
  split at filled
  · next inFront => exact solid c (by simp [inFront])
  · exact absurd rfl filled

private theorem unmarked (conventional : Conventional format)
    (found : format.read (cleaned code) = some tag) : '_' ∉ format.write tag :=
  fun member => underscore_not_mem_cleaned code (conventional.underscores found member)

private theorem canonicalChars_length_le (conventional : Conventional format) (code : List Char) :
    (format.canonicalChars code).length ≤ (Text.trimChars code).length := by
  rw [← cleaned_length]
  cases found : format.read (cleaned code) with
  | some tag =>
    rw [canonicalChars_of_tag found]
    exact conventional.length_le found
  | none => rw [canonicalChars_of_none found, lower_length]

/-- What is its own canonical form has no blank at either end. -/
theorem trimmed_of_final (conventional : Conventional format)
    (same : format.canonicalChars text = text) : Trimmed text := by
  have shorter := conventional.canonicalChars_length_le text
  rw [same] at shorter
  have whole := trimChars_sublist text
  exact trimChars_eq_self_iff.mp (whole.eq_of_length (Nat.le_antisymm whole.length_le shorter))

private theorem canonicalChars_write_iff (conventional : Conventional format)
    (found : format.read (cleaned code) = some tag) :
    format.canonicalChars (format.write tag) = format.write tag ↔
      (∀ c ∈ (format.write tag).getLast?, Text.isBlank c = false) ∧
        (format.read (format.write tag)).map format.write = some (format.write tag) := by
  obtain ⟨again, readAgain⟩ := conventional.readable found
  have known (trimmed : Trimmed (format.write tag)) :
      format.canonicalChars (format.write tag) = format.write again := by
    refine canonicalChars_of_tag ?_
    rw [cleaned_of_trimmed (conventional.unmarked found) trimmed, readAgain]
  rw [readAgain, Option.map_some, Option.some.injEq]
  constructor
  · intro same
    have trimmed := conventional.trimmed_of_final same
    exact ⟨trimmed.back, (known trimmed).symm.trans same⟩
  · rintro ⟨back, recognized⟩
    rw [known ⟨conventional.head_solid found, back⟩, recognized]

private theorem canonicalChars_again_iff (conventional : Conventional format) (code : List Char) :
    format.canonicalChars (format.canonicalChars code) = format.canonicalChars code ↔
      Final format code := by
  cases found : format.read (cleaned code) with
  | some tag =>
    rw [canonicalChars_of_tag found, conventional.canonicalChars_write_iff found, Final, found]
    simp
  | none =>
    have final : Final format code := by simp [Final, found]
    refine iff_of_true ?_ final
    have unread : format.read (cleaned (lower (cleaned code))) = none := by
      rw [cleaned_lower_cleaned, conventional.caseless, found]
    rw [canonicalChars_of_none found, canonicalChars_of_none unread, cleaned_lower_cleaned, lower_lower]

private theorem primaryChars_eq (conventional : Conventional format) (code : List Char) :
    primaryChars code = lower ((format.canonicalChars code).takeWhile (· != '-')) := by
  rw [primaryChars, ← takeWhile_cleaned]
  cases found : format.read (cleaned code) with
  | some tag => rw [canonicalChars_of_tag found, conventional.language found, lower_lower]
  | none => rw [canonicalChars_of_none found, takeWhile_lower, lower_lower]

private theorem primaryChars_canonicalChars (conventional : Conventional format)
    (code : List Char) : primaryChars (format.canonicalChars code) = primaryChars code := by
  rw [conventional.primaryChars_eq code, primaryChars, ← takeWhile_cleaned]
  cases found : format.read (cleaned code) with
  | some tag =>
    rw [canonicalChars_of_tag found, cleaned_of_no_underscore (conventional.unmarked found),
      takeWhile_trimChars (conventional.head_solid found) (conventional.front_solid found)]
  | none => rw [canonicalChars_of_none found, cleaned_lower_cleaned]

private theorem primarySubtag_canonical (conventional : Conventional format) (code : String) :
    primarySubtag (format.canonical code) = primaryLanguage code := by
  rw [primarySubtag, TagFormat.canonical, String.toList_ofList, primaryLanguage,
    conventional.primaryChars_eq]

private theorem primaryLanguage_canonical (conventional : Conventional format) (code : String) :
    primaryLanguage (format.canonical code) = primaryLanguage code := by
  rw [primaryLanguage, TagFormat.canonical, String.toList_ofList,
    conventional.primaryChars_canonicalChars, primaryLanguage]

/-- The catalogs are named by languages alone, so the whole code finds no other than its language. -/
theorem catalog?_eq (conventional : Conventional format) (code : String) :
    format.catalog? code = catalogs.lookup (primaryLanguage code) := by
  have named : ∀ entry ∈ catalogs, primarySubtag entry.1 = entry.1 := by decide +kernel
  rw [← conventional.primarySubtag_canonical]
  unfold TagFormat.catalog?
  cases whole : catalogs.lookup (format.canonical code) with
  | none => simp [whole]
  | some catalog =>
    obtain ⟨before, behind, split, _⟩ := List.lookup_eq_some_iff.mp whole
    have name := named (format.canonical code, catalog) (by simp [split])
    simp [name, whole]

/-- Whatever the format, a message is that of the catalog for the primary language, and the canonical
form of a code has the same messages. -/
theorem messages_by_language (conventional : Conventional format) (code key : String) :
    format.message? code key = (catalogs.lookup (primaryLanguage code)).bind (·.lookup key) ∧
      format.message? (format.canonical code) key = format.message? code key ∧
      (format.canonical (format.canonical code) = format.canonical code ↔
        Final format code.toList) := by
  refine ⟨?_, ?_, ?_⟩
  · rw [TagFormat.message?, conventional.catalog?_eq]
  · rw [TagFormat.message?, TagFormat.message?, conventional.catalog?_eq, conventional.catalog?_eq,
      conventional.primaryLanguage_canonical]
  · rw [TagFormat.canonical, TagFormat.canonical, String.toList_ofList, String.ofList_inj,
      conventional.canonicalChars_again_iff]

end Conventional

end Formats

variable {tag : LanguageTag}

private theorem takeWhile_chars (found : parse? text = some tag) :
    tag.chars.takeWhile (· != '-') = tag.language := by
  have front := head?_subtags tag.chars
  rw [subtags_chars found] at front
  exact (Option.some.inj front).symm

/-- The language of a tag is what stands in front of the first hyphen. -/
theorem language?_front (found : parse? text = some tag) :
    language? (text.takeWhile (· != '-')) = some tag.language := by
  have front := head?_subtags text
  have reads := parse?_eq_some_iff.mp found
  generalize subtags text = given at front reads
  cases reads with
  | mk language _ _ _ =>
    rw [List.head?_cons, Option.some.injEq] at front
    rw [← front, language]

/-- Tags of a language, a script, a region and variants are such a format. -/
theorem languageTag_conventional : Conventional LanguageTag.format where
  caseless := parse?_lower
  language {text tag} found := by
    have language := language?_front found
    simp only [language?, Option.ite_none_right_eq_some, Option.some.injEq] at language
    exact (takeWhile_chars found).trans language.2.symm
  letters {text tag} found := by
    have language := language?_front found
    simp only [language?, Option.ite_none_right_eq_some] at language
    obtain ⟨⟨two, _, _, letters⟩, _⟩ := language
    exact ⟨List.length_pos_iff.mp (by omega), letters⟩
  underscores found member := mem_of_mem_chars found (by decide) (by decide) member
  length_le found := chars_length_le found
  readable found := by
    obtain ⟨again, read, _⟩ := parse?_chars found
    exact ⟨again, read⟩

/-- The canonical form is final: if the code is read as a tag, its text ends without a blank and has no
variant that is taken for a script. -/
def Settled (code : List Char) : Prop :=
  ∀ tag, parse? (cleaned code) = some tag →
    (∀ c ∈ tag.chars.getLast?, Text.isBlank c = false) ∧ Recognizable tag

private theorem final_iff_settled (code : List Char) :
    Final LanguageTag.format code ↔ Settled code := by
  refine forall₂_congr fun tag found => and_congr_right fun _ => ?_
  obtain ⟨again, read, recognized⟩ := parse?_chars found
  have readAgain : LanguageTag.format.read (LanguageTag.format.write tag) = some again := read
  rw [readAgain, Option.map_some, Option.some.injEq, ← recognized]
  rfl

/-- A message is that of the catalog for the primary language, whatever the code. The canonical form of
the code has the same messages, though it is not in every case its own canonical form. -/
theorem messages_by_primary_language (code key : String) :
    message? code key = (catalogs.lookup (primaryLanguage code)).bind (·.lookup key) ∧
      message? (canonical code) key = message? code key ∧
      (canonical (canonical code) = canonical code ↔ Settled code.toList) := by
  rw [← final_iff_settled]
  exact languageTag_conventional.messages_by_language code key

/-- The text of a tag may be read as the same tag and still end in a blank, which is lost when it is
brought into canonical form again. -/
theorem blank_brought_to_end :
    canonical "en-2ab -1abc" = "en-1abc-2ab " ∧
      parse? "en-1abc-2ab ".toList = parse? "en-2ab -1abc".toList ∧
      (parse? "en-2ab -1abc".toList).isSome = true ∧
      canonical (canonical "en-2ab -1abc") ≠ canonical "en-2ab -1abc" := by
  decide +kernel

end Questionnaire.CatalogLookup
