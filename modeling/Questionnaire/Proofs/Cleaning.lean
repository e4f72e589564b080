import Mathlib.Data.List.Infix
import Questionnaire.Proofs.Tags

/-! What cleaning guarantees. Every pass deletes what it finds, but a deletion joins what stood apart:
a tag inside the pieces of another, or a control character between a `<` and its letter, leaves markup
behind. The cleaned text is free of markup exactly if cleaning it again changes nothing, and it is so
for every text in which each `<` either opens a tag or stands for itself. -/
namespace Questionnaire.Cleaning
open Text Markup Deletion Tags

/-- Neither a tag nor a script block is in the text. -/
def MarkupFree (text : List Char) : Prop :=
  ∀ part, part <:+: text → ¬ IsTag part ∧ ¬ IsScriptBlock part

def OpensTag (text : List Char) : Prop := ∃ tag, IsTag tag ∧ tag <+: text

/-- Behind the `<` comes what no pass deletes and no tag has in this place. -/
def StandsForItself (behind : List Char) : Prop :=
  ¬ OpensTag behind ∧ ∀ c ∈ behind.head?, c.isAlpha = false ∧ c ≠ '/' ∧ isControl c = false

/-- Each `<` opens a tag or stands for itself. -/
def Orderly (text : List Char) : Prop :=
  ∀ behind, '<' :: behind <:+ text → OpensTag ('<' :: behind) ∨ StandsForItself behind

theorem markupFree_iff {text : List Char} :
    MarkupFree text ↔ delete scriptWidth text = text ∧ delete tagWidth text = text := by
  have tagShown : ¬ IsTag [] := nofun
  have blockShown : ¬ IsScriptBlock [] := by
    rintro empty
    have found := (scriptBlocks_found []).mpr ⟨[], empty, List.prefix_rfl⟩
    exact absurd found (by decide)
  rw [tags_found.delete_eq_self_iff tagShown, scriptBlocks_found.delete_eq_self_iff blockShown]
  constructor
  · intro free
    exact ⟨fun part isBlock inside => (free part inside).2 isBlock,
      fun part isTag inside => (free part inside).1 isTag⟩
  · rintro ⟨noBlock, noTag⟩ part inside
    exact ⟨fun isTag => noTag part isTag inside, fun isBlock => noBlock part isBlock inside⟩

instance : DecidablePred MarkupFree := fun _ => decidable_of_iff _ markupFree_iff.symm

/-- Cleaning leaves a text as it is exactly if there is nothing to clean. -/
theorem cleanChars_eq_self_iff {text : List Char} :
    cleanChars text = text ↔ MarkupFree text ∧ ∀ c ∈ text, isControl c = false := by
  rw [markupFree_iff]
  constructor
  · intro same
    have filtered : (cleanChars text).Sublist (delete tagWidth (delete scriptWidth text)) :=
      List.filter_sublist
    have tagless := delete_sublist tagWidth (delete scriptWidth text)
    have blockless := delete_sublist scriptWidth text
    have noBlock : delete scriptWidth text = text :=
      blockless.antisymm (by simpa only [same] using filtered.trans tagless)
    rw [noBlock] at tagless filtered
    have noTag : delete tagWidth text = text :=
      tagless.antisymm (by simpa only [same] using filtered)
    have kept : text.filter (fun c => !isControl c) = text := by
      simpa only [cleanChars, noBlock, noTag] using same
    exact ⟨⟨noBlock, noTag⟩, by simpa using List.filter_eq_self.mp kept⟩
  · rintro ⟨⟨noBlock, noTag⟩, plain⟩
    simpa [cleanChars, noBlock, noTag] using plain

private theorem cleanChars_no_control (text : List Char) :
    ∀ c ∈ cleanChars text, isControl c = false := by
  intro c member
  simpa [cleanChars] using (List.mem_filter.mp member).2

instance : DecidablePred OpensTag := fun text =>
  decidable_of_iff (0 < tagWidth text) (tags_found text)

-- The instance is named: quantifiers over characters can be decided by trying all characters too.
instance : DecidablePred StandsForItself := fun behind =>
  @instDecidableAnd _ _ inferInstance behind.head?.decidableForallMem

/-- What is said of each `<` and of all that is behind it can be tried at all places of a text. -/
theorem forall_tails_iff {text : List Char} {p : List Char → Prop} :
    (∀ place ∈ text.tails, place.head? = some '<' → p place) ↔
      ∀ behind, '<' :: behind <:+ text → p ('<' :: behind) := by
  constructor
  · intro all behind place
    exact all ('<' :: behind) ((List.mem_tails _ _).mpr place) rfl
  · intro each place member opens
    obtain ⟨behind, rfl⟩ := List.head?_eq_some_iff.mp opens
    exact each behind ((List.mem_tails _ _).mp member)

instance : DecidablePred Orderly := fun text =>
  decidable_of_iff
    (∀ place ∈ text.tails, place.head? = some '<' →
      OpensTag place ∨ StandsForItself place.tail) forall_tails_iff

/-- No `<` has a letter or a slash behind it. -/
def Harmless (text : List Char) : Prop :=
  ∀ behind, '<' :: behind <:+ text → ∀ c ∈ behind.head?, c.isAlpha = false ∧ c ≠ '/'

instance : DecidablePred Harmless := fun text =>
  decidable_of_iff
    (∀ place ∈ text.tails, place.head? = some '<' →
      place.tail.head?.all (fun c => !c.isAlpha && c != '/') = true) <|
    forall_tails_iff.trans <| by simp [Harmless, Option.all_eq_true]

private theorem harmless_cons {c : Char} {rest : List Char} (later : Harmless rest)
    (here : c = '<' → ∀ d ∈ rest.head?, d.isAlpha = false ∧ d ≠ '/') : Harmless (c :: rest) := by
  intro behind place
  rcases List.suffix_cons_iff.mp place with whole | inside
  · obtain ⟨rfl, rfl⟩ := List.cons.inj whole
    exact here rfl
  · exact later behind inside

private theorem Harmless.behind {text : List Char} (harmless : Harmless text) {c : Char}
    {more : List Char} (inside : '<' :: c :: more <:+: text) : c.isAlpha = false ∧ c ≠ '/' := by
  obtain ⟨place, ⟨rest, rfl⟩, suffixed⟩ := List.infix_iff_prefix_suffix.mp inside
  exact harmless (c :: (more ++ rest)) (by simpa using suffixed) c (by simp)

/-- Tags begin with a letter or a slash behind the `<`, and script blocks end with a tag that has a
slash there. -/
theorem Harmless.markupFree {text : List Char} (harmless : Harmless text) : MarkupFree text := by
  refine fun part inside => ⟨?_, ?_⟩
  · rintro (⟨alpha, _⟩ | ⟨_, _⟩)
    · exact absurd alpha (by simp [(harmless.behind inside).1])
    · exact (harmless.behind inside).2 rfl
  · rintro ⟨_, closes⟩
    have closing := (List.suffix_append _ _).isInfix.trans inside
    cases closes
    exact (harmless.behind closing).2 rfl

private theorem Orderly.suffix {text behind : List Char} (orderly : Orderly text)
    (place : behind <:+ text) : Orderly behind :=
  fun more inside => orderly more (inside.trans place)

/-- A `<` that opens no tag keeps the character behind it. -/
theorem Orderly.harmless {text : List Char} (orderly : Orderly text) :
    Harmless ((delete tagWidth text).filter fun c => !isControl c) := by
  induction text using deletion_induction tagWidth with
  | nil => intro behind place; simp at place
  | matched c rest found ih =>
    rw [delete_match found]
    exact ih (orderly.suffix (List.drop_suffix _ _))
  | other c rest none ih =>
    have later := ih (orderly.suffix (List.suffix_cons _ _))
    rw [delete_other none]
    by_cases control : isControl c = true
    · simpa [control] using later
    · rw [List.filter_cons_of_pos (by simpa using control)]
      refine harmless_cons later ?_
      rintro rfl
      have stands : StandsForItself rest := by
        refine (orderly rest (List.suffix_refl _)).resolve_left fun opens => ?_
        exact absurd ((tags_found _).mpr opens) (by omega)
      cases rest with
      | nil => simp
      | cons d more =>
        obtain ⟨alpha, slash, plain⟩ := stands.2 d (by simp)
        have stays : tagWidth (d :: more) = 0 :=
          Nat.eq_zero_of_not_pos fun found => stands.1 ((tags_found _).mp found)
        rw [delete_other stays, List.filter_cons_of_pos (by simp [plain])]
        simpa using ⟨alpha, slash⟩

/-- Cleaning leaves no control character, and no markup exactly if it has nothing to do when it is
repeated. Where each `<` outside of the script blocks opens a tag or stands for itself, no markup is
left. -/
theorem cleaned_text_markup_free_iff (text : String) :
    (∀ c ∈ (clean text).toList, isControl c = false) ∧
      (MarkupFree (clean text).toList ↔ clean (clean text) = clean text) ∧
      (Orderly (delete scriptWidth text.toList) → MarkupFree (clean text).toList) := by
  have controls := cleanChars_no_control text.toList
  have again : clean (clean text) = clean text ↔
      cleanChars (cleanChars text.toList) = cleanChars text.toList := by
    simp only [clean, String.toList_ofList, String.ofList_inj]
  rw [again, cleanChars_eq_self_iff]
  simp only [clean, String.toList_ofList]
  exact ⟨controls, (and_iff_left controls).symm, fun orderly => orderly.harmless.markupFree⟩

/-- Comparisons, tags and a script with a comparison of its own. -/
theorem comparison_in_rich_text_cleaned :
    Orderly (delete scriptWidth "1 < 2 <b>and</b> 3 > 2<script>if (a<b) f()</script>".toList) ∧
      MarkupFree (clean "1 < 2 <b>and</b> 3 > 2<script>if (a<b) f()</script>").toList ∧
      clean "1 < 2 <b>and</b> 3 > 2<script>if (a<b) f()</script>" = "1 < 2 and 3 > 2" := by
  have orderly : Orderly
      (delete scriptWidth "1 < 2 <b>and</b> 3 > 2<script>if (a<b) f()</script>".toList) := by
    decide +kernel
  exact ⟨orderly, (cleaned_text_markup_free_iff _).2.2 orderly, by decide +kernel⟩

/-- Taking the inner tags out puts a script block together. -/
theorem script_block_assembled :
    clean "Name<<b>script>alert(1)<<b>/script>?" = "Name<script>alert(1)</script>?" ∧
      ¬ MarkupFree (clean "Name<<b>script>alert(1)<<b>/script>?").toList ∧
      clean (clean "Name<<b>script>alert(1)<<b>/script>?") = "Name?" := by
  decide +kernel

end Questionnaire.Cleaning
