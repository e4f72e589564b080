import Questionnaire.Proofs.LanguageTags
import Questionnaire.Proofs.Occurrences

/-! Tags in canonical form, and whether their text is read as the tag again. What has been read is in the
case in which it is left, and its variants are in order. So the text of a tag reads as that tag, with one
exception: where there is neither a script nor a region, a variant of four letters that has come to the
front is taken for a script. -/
namespace Questionnaire.LanguageTags
open Questionnaire.Locale LanguageTag

variable {text : List Char} {tag : LanguageTag} {given : List (List Char)}

private theorem mem_insertVariant {entry variant : List Char} {ordered : List (List Char)} :
    variant ∈ insertVariant entry ordered ↔ variant = entry ∨ variant ∈ ordered := by
  induction ordered with
  | nil => simp [insertVariant]
  | cons first rest ih =>
    rw [insertVariant]
    split
    · simp
    · split
      · next same => simp [same]
      · rw [List.mem_cons, ih, List.mem_cons, or_left_comm]

private theorem insertVariant_ordered {entry : List Char} {ordered : List (List Char)}
    (before : ordered.Pairwise (· < ·)) : (insertVariant entry ordered).Pairwise (· < ·) := by
  induction ordered with
  | nil => simp [insertVariant]
  | cons first rest ih =>
    obtain ⟨least, later⟩ := List.pairwise_cons.mp before
    rw [insertVariant]
    split
    · next less =>
      refine List.pairwise_cons.mpr ⟨fun variant member => ?_, before⟩
      rcases List.mem_cons.mp member with rfl | member
      · exact less
      · exact List.lt_trans less (least variant member)
    · next notLess =>
      split
      · exact before
      · next different =>
        refine List.pairwise_cons.mpr ⟨fun variant member => ?_, ih later⟩
        rcases mem_insertVariant.mp member with rfl | member
        · rcases List.le_iff_lt_or_eq.mp (List.not_lt.mp notLess) with less | same
          · exact less
          · exact absurd same.symm different
        · exact least variant member

private theorem orderVariants_concat (variants : List (List Char)) (entry : List Char) :
    orderVariants (variants ++ [entry]) = insertVariant entry (orderVariants variants) := by
  simp [orderVariants]

private theorem mem_orderVariants {variants : List (List Char)} {variant : List Char} :
    variant ∈ orderVariants variants ↔ variant ∈ variants := by
  induction variants using List.reverseRecOn with
  | nil => rfl
  | append_singleton variants entry ih =>
    rw [orderVariants_concat, mem_insertVariant, ih]
    simp [or_comm]

private theorem orderVariants_ordered (variants : List (List Char)) :
    (orderVariants variants).Pairwise (· < ·) := by
  induction variants using List.reverseRecOn with
  | nil => exact .nil
  | append_singleton variants entry ih =>
    rw [orderVariants_concat]
    exact insertVariant_ordered ih

/-- Variants in order stay as they are. -/
theorem orderVariants_of_ordered {variants : List (List Char)}
    (ordered : variants.Pairwise (· < ·)) : orderVariants variants = variants :=
  (orderVariants_ordered variants).eq_of_mem_iff ordered fun _ => mem_orderVariants

/-- The length of subtags with a hyphen in front of each. -/
def size (subtags : List (List Char)) : Nat :=
  (subtags.map fun subtag => subtag.length + 1).sum

@[simp]
theorem size_nil : size [] = 0 := rfl

@[simp]
theorem size_cons (first : List Char) (rest : List (List Char)) :
    size (first :: rest) = first.length + 1 + size rest := by
  simp [size]

@[simp]
theorem size_append (front back : List (List Char)) : size (front ++ back) = size front + size back := by
  simp [size]

private theorem hyphenated_length {parts : List (List Char)} (filled : parts ≠ []) :
    (['-'].intercalate parts).length + 1 = size parts := by
  obtain ⟨first, rest, rfl⟩ := List.exists_cons_of_ne_nil filled
  rw [Occurrences.intercalate_cons, List.length_append, size_cons]
  have others : (rest.flatMap (['-'] ++ ·)).length = size rest := by
    induction rest with
    | nil => rfl
    | cons subtag rest ih =>
      rw [List.flatMap_cons, List.length_append, ih (by simp), size_cons]
      simp
  omega

private theorem size_insertVariant (entry : List Char) (ordered : List (List Char)) :
    size (insertVariant entry ordered) ≤ entry.length + 1 + size ordered := by
  induction ordered with
  | nil => simp [insertVariant]
  | cons first rest ih =>
    rw [insertVariant]
    split
    · simp
    · split
      · simp
      · rw [size_cons, size_cons]
        omega

private theorem size_orderVariants (variants : List (List Char)) :
    size (orderVariants variants) ≤ size variants := by
  induction variants using List.reverseRecOn with
  | nil => exact Nat.le_refl _
  | append_singleton variants entry ih =>
    have inserted := size_insertVariant entry (orderVariants variants)
    rw [orderVariants_concat, size_append, size_cons, size_nil]
    omega

private theorem Caseless.length {read : List Char → Option (List Char)} (caseless : Caseless read)
    (found : read text = some part) : part.length = text.length := by
  rw [← lower_length part, caseless.respells text part found, lower_length]

private theorem ReadsOptional.size {read : List Char → Option (List Char)} (caseless : Caseless read)
    {given rest : List (List Char)} {result : Option (List Char)}
    (optional : ReadsOptional read given result rest) :
    size result.toList + size rest = size given := by
  cases optional with
  | present found => simp [caseless.length found]
  | absent other => simp

private theorem ReadsVariants.size_le {given ordered : List (List Char)}
    (reads : ReadsVariants given ordered) : size ordered ≤ size given := by
  obtain ⟨variants, read, rfl⟩ := reads
  have same : size variants = size given := by
    induction read with
    | nil => rfl
    | cons found _ ih => rw [size_cons, size_cons, ih, variant_caseless.length found]
  exact (size_orderVariants variants).trans same.le

private theorem Reads.size_le (reads : Reads given tag) : size (parts tag) ≤ size given := by
  cases reads with
  | @mk first afterLanguage afterScript afterRegion _ language script region variants =>
    have ofLanguage := language_caseless.length language
    have ofScript := script.size script_caseless
    have ofRegion := region.size region_caseless
    have ofVariants := variants.size_le
    simp only [parts, size_cons, size_append]
    omega

/-- A tag is not longer than the text from which it is read. -/
theorem chars_length_le (found : parse? text = some tag) : tag.chars.length ≤ text.length := by
  have given := hyphenated_length (List.splitOn_ne_nil '-' text)
  have written : tag.chars.length + 1 = size (parts tag) := by
    rw [chars_eq]
    exact hyphenated_length (List.cons_ne_nil _ _)
  have smaller : size (parts tag) ≤ size (text.splitOn '-') :=
    (parse?_eq_some_iff.mp found).size_le
  rw [List.intercalate_splitOn] at given
  omega

/-- Each part is left as it is when it is read, and the variants are in order. -/
structure Canonical (tag : LanguageTag) : Prop where
  language : language? tag.language = some tag.language
  script : ∀ script ∈ tag.script, script? script = some script
  region : ∀ region ∈ tag.region, region? region = some region
  variants : ∀ variant ∈ tag.variants, variant? variant = some variant
  ordered : tag.variants.Pairwise (· < ·)

/-- Without script and region there is no variant in front that can be read as a script. -/
def Recognizable (tag : LanguageTag) : Prop :=
  tag.script = none → tag.region = none → ∀ first ∈ tag.variants.head?, script? first = none

private theorem ReadsOptional.again {read : List Char → Option (List Char)} (caseless : Caseless read)
    {rest : List (List Char)} {result : Option (List Char)}
    (optional : ReadsOptional read given result rest) : ∀ part ∈ result, read part = some part := by
  cases optional with
  | present found =>
    rintro part ⟨⟩
    exact caseless.again found
  | absent other => simp

private theorem ReadsOptional.respells {read : List Char → Option (List Char)}
    (caseless : Caseless read)
    {rest : List (List Char)} {result : Option (List Char)}
    (optional : ReadsOptional read given result rest) :
    (∀ part ∈ result, ∃ subtag ∈ given, lower part = lower subtag) ∧ rest ⊆ given := by
  cases optional with
  | @present subtag found _ read =>
    refine ⟨?_, List.subset_cons_self _ _⟩
    rintro part ⟨⟩
    exact ⟨subtag, List.mem_cons_self, caseless.respells _ _ read⟩
  | absent other => simp

private theorem ReadsVariants.mem {ordered : List (List Char)} (reads : ReadsVariants given ordered)
    {variant : List Char} (member : variant ∈ ordered) :
    ∃ subtag ∈ given, variant? subtag = some variant := by
  obtain ⟨variants, read, rfl⟩ := reads
  rw [mem_orderVariants] at member
  induction read with
  | nil => cases member
  | cons found _ ih =>
    rcases List.mem_cons.mp member with rfl | later
    · exact ⟨_, List.mem_cons_self, found⟩
    · obtain ⟨subtag, held, found⟩ := ih later
      exact ⟨subtag, List.mem_cons_of_mem _ held, found⟩

private theorem Reads.canonical (reads : Reads given tag) : Canonical tag := by
  cases reads with
  | mk language script region variants =>
    refine ⟨language_caseless.again language, script.again script_caseless,
      region.again region_caseless, ?_, ?_⟩
    · intro variant member
      obtain ⟨subtag, _, found⟩ := variants.mem member
      exact variant_caseless.again found
    · obtain ⟨read, _, ordered⟩ := variants
      rw [ordered]
      exact orderVariants_ordered read

/-- Each part is read from a subtag, and only its case is another one. -/
theorem Reads.respells (reads : Reads given tag) :
    ∀ part ∈ parts tag, ∃ subtag ∈ given, lower part = lower subtag := by
  cases reads with
  | @mk first afterLanguage afterScript afterRegion _ language script region variants =>
    have scriptPart := script.respells script_caseless
    have regionPart := region.respells region_caseless
    intro part member
    simp only [parts, List.mem_cons, List.mem_append, Option.mem_toList] at member
    rcases member with rfl | ofScript | ofRegion | ofVariants
    · exact ⟨first, by simp, language_caseless.respells _ _ language⟩
    · obtain ⟨subtag, held, same⟩ := scriptPart.1 part ofScript
      exact ⟨subtag, List.mem_cons_of_mem _ held, same⟩
    · obtain ⟨subtag, held, same⟩ := regionPart.1 part ofRegion
      exact ⟨subtag, List.mem_cons_of_mem _ (scriptPart.2 held), same⟩
    · obtain ⟨subtag, held, found⟩ := variants.mem ofVariants
      exact ⟨subtag, List.mem_cons_of_mem _ (scriptPart.2 (regionPart.2 held)),
        variant_caseless.respells _ _ found⟩

/-- The text of a tag has the parts of the tag for its subtags. -/
theorem subtags_chars (found : parse? text = some tag) : subtags tag.chars = parts tag := by
  have unhyphenated : ∀ part ∈ parts tag, '-' ∉ part := by
    intro part member hyphen
    obtain ⟨subtag, given, same⟩ := (parse?_eq_some_iff.mp found).respells part member
    exact (mem_subtags given).1 (mem_of_respelled (by decide) same hyphen)
  rw [chars_eq]
  exact List.splitOn_intercalate '-' unhyphenated (List.cons_ne_nil _ _)

/-- What is neither a letter nor a hyphen is in the text of a tag only if it is in the text from which
the tag is read. -/
theorem mem_of_mem_chars (found : parse? text = some tag) {mark : Char}
    (unlettered : mark.isAlpha = false) (unhyphenated : mark ≠ '-') (member : mark ∈ tag.chars) :
    mark ∈ text := by
  have inPart : ∃ part ∈ parts tag, mark ∈ part := by
    rw [chars_eq] at member
    cases split : parts tag with
    | nil => simp [split] at member
    | cons first rest =>
      rw [split, Occurrences.intercalate_cons] at member
      simpa [unhyphenated] using member
  obtain ⟨part, held, member⟩ := inPart
  obtain ⟨subtag, given, same⟩ := (parse?_eq_some_iff.mp found).respells part held
  exact (mem_subtags given).2 (mem_of_respelled unlettered same member)

private theorem script_of_region {subtag region : List Char} (found : region? subtag = some region) :
    script? subtag = none := by
  unfold region? at found
  have short : subtag.length = 2 ∨ subtag.length = 3 := by
    split at found
    · next letters => exact .inl letters.1
    · split at found
      · next digits => exact .inr digits.1
      · cases found
  rw [script?, if_neg]
  omega

private theorem region_of_variant {subtag variant : List Char}
    (found : variant? subtag = some variant) :
    region? subtag = none := by
  have long : 4 ≤ subtag.length := by
    simp only [variant?, Option.ite_none_right_eq_some] at found
    omega
  rw [region?, if_neg (by omega), if_neg (by omega)]

/-- A part that can be read is read again from the subtags in front of which it stands. -/
theorem readsOptional_self {read : List Char → Option (List Char)} {part : Option (List Char)}
    {rest : List (List Char)} (known : ∀ subtag ∈ part, read subtag = some subtag)
    (other : part = none → ∀ subtag ∈ rest.head?, read subtag = none) :
    ReadsOptional read (part.toList ++ rest) part rest := by
  cases part with
  | some subtag => exact .present (known subtag rfl)
  | none => exact .absent (other rfl)

private theorem Canonical.no_region_in_front (canonical : Canonical tag) {rest : List (List Char)}
    (inside : rest ⊆ tag.variants) : ∀ subtag ∈ rest.head?, region? subtag = none := by
  intro subtag front
  exact region_of_variant (canonical.variants subtag (inside (List.mem_of_head? front)))

private theorem Canonical.readsVariants (canonical : Canonical tag) {rest : List (List Char)}
    (inside : rest.Sublist tag.variants) : ReadsVariants rest rest := by
  have known : ∀ variant ∈ rest, variant? variant = some variant :=
    fun variant held => canonical.variants variant (inside.subset held)
  have ordered := orderVariants_of_ordered (canonical.ordered.sublist inside)
  exact ⟨rest, List.forall₂_same.mpr known, ordered.symm⟩

/-- The parts of a canonical tag are read as the tag. -/
theorem Canonical.reads (canonical : Canonical tag) (recognizable : Recognizable tag) :
    Reads (parts tag) tag := by
  refine .mk canonical.language (readsOptional_self canonical.script ?_)
    (readsOptional_self canonical.region fun _ => canonical.no_region_in_front (List.Subset.refl _))
    (canonical.readsVariants (List.Sublist.refl _))
  intro noScript subtag front
  cases region : tag.region with
  | some region' =>
    obtain rfl : region' = subtag := by simpa [region] using front
    exact script_of_region (canonical.region region' region)
  | none =>
    rw [region, Option.toList_none, List.nil_append] at front
    exact recognizable noScript region subtag front

/-- A variant in front that can be read as a script is read as one. -/
theorem Canonical.misread (canonical : Canonical tag) (noScript : tag.script = none)
    (noRegion : tag.region = none) {first script : List Char} {rest : List (List Char)}
    (variants : tag.variants = first :: rest) (found : script? first = some script) :
    Reads (parts tag) ⟨tag.language, some script, none, rest⟩ := by
  have inside : rest.Sublist tag.variants := by
    rw [variants]
    exact List.sublist_cons_self first rest
  have given : parts tag = tag.language :: first :: rest := by
    simp [parts, noScript, noRegion, variants]
  rw [given]
  exact .mk canonical.language (.present found)
    (.absent (canonical.no_region_in_front inside.subset)) (canonical.readsVariants inside)

private theorem capitalized_ne_lower {c : Char} {rest : List Char} (letter : c.isAlpha = true) :
    capitalized (c :: rest) ≠ lower (c :: rest) := by
  intro same
  have first : c.toUpper = c.toLower := (List.cons.inj same).1
  have notLower := Char.isLower_toUpper_eq_false c
  rw [first, Char.isLower_toLower_eq_isAlpha, letter] at notLower
  cases notLower

/-- A variant is in lower case, so it is not what it would be as a script. -/
theorem script_ne_variant {subtag script : List Char} (ofScript : script? subtag = some script)
    (ofVariant : variant? subtag = some subtag) : script ≠ subtag := by
  simp only [script?, Option.ite_none_right_eq_some, Option.some.injEq] at ofScript
  simp only [variant?, Option.ite_none_right_eq_some, Option.some.injEq] at ofVariant
  obtain ⟨⟨four, letters⟩, rfl⟩ := ofScript
  rw [← ofVariant.2, capitalized_lower]
  cases subtag with
  | nil => cases four
  | cons c rest =>
    rw [List.all_cons, Bool.and_eq_true] at letters
    exact capitalized_ne_lower letters.1

/-- The text of a tag is always read as a tag, and it is the text of this one exactly if no variant is
taken for a script. -/
theorem parse?_chars (found : parse? text = some tag) :
    ∃ again, parse? tag.chars = some again ∧ (again.chars = tag.chars ↔ Recognizable tag) := by
  have canonical := (parse?_eq_some_iff.mp found).canonical
  by_cases recognizable : Recognizable tag
  · refine ⟨tag, ?_, iff_of_true rfl recognizable⟩
    rw [parse?_eq_some_iff, subtags_chars found]
    exact canonical.reads recognizable
  · simp only [Recognizable, not_forall] at recognizable
    obtain ⟨noScript, noRegion, first, front, script⟩ := recognizable
    obtain ⟨script, read⟩ := Option.ne_none_iff_exists'.mp script
    obtain ⟨rest, variants⟩ := List.head?_eq_some_iff.mp front
    have again : parse? tag.chars = some ⟨tag.language, some script, none, rest⟩ := by
      rw [parse?_eq_some_iff, subtags_chars found]
      exact canonical.misread noScript noRegion variants read
    refine ⟨_, again, iff_of_false (fun same => ?_) ?_⟩
    -- The subtag is in lower case as a variant, but has a capital as a script.
    · have subtagsSame := congrArg subtags same
      rw [subtags_chars again, subtags_chars found] at subtagsSame
      have fromVariant := canonical.variants first (by simp [variants])
      refine script_ne_variant read fromVariant ?_
      simpa [parts, noScript, noRegion, variants] using subtagsSame
    · intro recognizable
      simp [recognizable noScript noRegion first front] at read

/-- The variant that comes to the front has four letters. -/
example : (parse? "en-zzzzz-abcd".toList).map chars = some "en-abcd-zzzzz".toList ∧
    (parse? "en-abcd-zzzzz".toList).map chars = some "en-Abcd-zzzzz".toList := by
  decide +kernel

end Questionnaire.LanguageTags
