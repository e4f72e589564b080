import Mathlib.Data.List.Perm.Subperm
import Questionnaire.Proofs.Cleaning

/-! Where cleaning deletes. The second pass works on a text that the first has shortened, so what is
deleted is traced back by carrying the place of each character along. Every match begins with `<` and
ends with `>`, both characters of the text that was there before: so a character that is deleted and is
no control character stands between two such places of the text, and what is in front of the first `<`
or behind the last `>` stays. -/
namespace Questionnaire.Survivors
open Text Markup Deletion Tags Cleaning

/-- Characters with their places in a text. -/
abbrev Placed := List (Char × Nat)

/-- Deletes the matches of a rule as `deleteFrom` does; what stays has its places. -/
def keepFrom (width : List Char → Nat) : (skip : Nat) → Placed → Placed
  | _, [] => []
  | skip + 1, _ :: rest => keepFrom width skip rest
  | 0, first :: rest =>
    match width ((first :: rest).map Prod.fst) with
    | 0 => first :: keepFrom width 0 rest
    | matched + 1 => keepFrom width matched rest

/-- What stays when the matches of a rule are deleted, with its places. -/
def keep (width : List Char → Nat) (placed : Placed) : Placed :=
  keepFrom width 0 placed

/-- What stays when a text is cleaned, with its places. -/
def survivors (text : List Char) : Placed :=
  (keep tagWidth (keep scriptWidth text.zipIdx)).filter fun place => !isControl place.1

variable {width : List Char → Nat}

private theorem keepFrom_chars (width : List Char → Nat) (skip : Nat) (placed : Placed) :
    (keepFrom width skip placed).map Prod.fst = deleteFrom width skip (placed.map Prod.fst) := by
  induction placed generalizing skip with
  | nil => cases skip <;> rfl
  | cons first rest ih =>
    cases skip with
    | succ skip => exact ih skip
    | zero =>
      rw [List.map_cons, keepFrom, deleteFrom, List.map_cons]
      cases width (first.1 :: rest.map Prod.fst) with
      | zero => exact congrArg _ (ih 0)
      | succ matched => exact ih matched

private theorem keepFrom_sublist (width : List Char → Nat) (skip : Nat) (placed : Placed) :
    (keepFrom width skip placed).Sublist placed := by
  induction placed generalizing skip with
  | nil => cases skip <;> exact .refl _
  | cons first rest ih =>
    cases skip with
    | succ skip => exact (ih skip).cons first
    | zero =>
      rw [keepFrom]
      cases width ((first :: rest).map Prod.fst) with
      | zero => exact (ih 0).cons_cons first
      | succ matched => exact (ih matched).cons first

private theorem keep_chars (width : List Char → Nat) (placed : Placed) :
    (keep width placed).map Prod.fst = delete width (placed.map Prod.fst) :=
  keepFrom_chars width 0 placed

private theorem keep_sublist (width : List Char → Nat) (placed : Placed) :
    (keep width placed).Sublist placed :=
  keepFrom_sublist width 0 placed

/-- What stays has the characters of the cleaned text. -/
theorem survivors_chars (text : List Char) : (survivors text).map Prod.fst = cleanChars text := by
  have kept : (keep tagWidth (keep scriptWidth text.zipIdx)).map Prod.fst =
      delete tagWidth (delete scriptWidth text) := by
    rw [keep_chars, keep_chars, List.zipIdx_map_fst]
  rw [cleanChars, ← kept, List.filter_map]
  rfl

private theorem survivors_sublist (text : List Char) : (survivors text).Sublist text.zipIdx :=
  List.filter_sublist.trans ((keep_sublist _ _).trans (keep_sublist _ _))

private theorem keepFrom_eq_drop (width : List Char → Nat) (skip : Nat) (placed : Placed) :
    keepFrom width skip placed = keep width (placed.drop skip) := by
  induction placed generalizing skip with
  | nil => cases skip <;> rfl
  | cons first rest ih =>
    cases skip with
    | zero => rfl
    | succ skip => exact ih skip

private theorem keep_match {first : Char × Nat} {rest : Placed}
    (found : 0 < width ((first :: rest).map Prod.fst)) :
    keep width (first :: rest) =
      keep width ((first :: rest).drop (width ((first :: rest).map Prod.fst))) := by
  obtain ⟨matched, size⟩ := Nat.exists_eq_succ_of_ne_zero (Nat.ne_of_gt found)
  rw [size, List.drop_succ_cons, ← keepFrom_eq_drop]
  simp only [keep, keepFrom, size]

private theorem keep_other {first : Char × Nat} {rest : Placed}
    (none : width ((first :: rest).map Prod.fst) = 0) :
    keep width (first :: rest) = first :: keep width rest := by
  simp only [keep, keepFrom, none]

/-- A text that begins with `<` and ends with `>`. -/
def Bracketed (part : List Char) : Prop :=
  part.head? = some '<' ∧ part.getLast? = some '>'

private theorem tag_bracketed {tag : List Char} (isTag : IsTag tag) : Bracketed tag := by
  cases isTag with
  | @opening letter inside =>
    exact ⟨rfl, List.getLast?_eq_some_iff.mpr ⟨'<' :: letter :: inside, rfl⟩⟩
  | @closing letter inside =>
    exact ⟨rfl, List.getLast?_eq_some_iff.mpr ⟨'<' :: '/' :: letter :: inside, rfl⟩⟩

private theorem scriptBlock_bracketed {block : List Char} (isBlock : IsScriptBlock block) :
    Bracketed block := by
  obtain ⟨opens, closes⟩ := isBlock
  obtain ⟨spelled, ends, within⟩ := opens
  obtain @⟨word, blanks, spelled, blank⟩ := closes
  have closing : '<' :: '/' :: (word ++ blanks ++ ['>']) = '<' :: '/' :: (word ++ blanks) ++ ['>'] :=
    rfl
  rw [closing, ← List.append_assoc]
  exact ⟨rfl, List.getLast?_concat⟩

theorem tags_bracketed : Takes tagWidth Bracketed :=
  fun text found => tag_bracketed (tags_taken text found)

theorem scriptBlocks_bracketed : Takes scriptWidth Bracketed :=
  fun text found => scriptBlock_bracketed (scriptBlocks_taken text found)

/-- Places follow each other. -/
def Ordered (placed : Placed) : Prop :=
  placed.Pairwise (·.2 < ·.2)

/-- There is a `<` at the place or before it, and a `>` at the place or behind it. -/
def Enclosed (placed : Placed) (place : Nat) : Prop :=
  (∃ first ≤ place, ('<', first) ∈ placed) ∧ ∃ last ≥ place, ('>', last) ∈ placed

private theorem Enclosed.mono {part placed : Placed} {place : Nat} (enclosed : Enclosed part place)
    (inside : part ⊆ placed) : Enclosed placed place := by
  obtain ⟨⟨first, before, opens⟩, last, behind, closes⟩ := enclosed
  exact ⟨⟨first, before, inside opens⟩, last, behind, inside closes⟩

/-- All of a match is between its first and its last character. -/
theorem bracketed_enclosed {part : Placed} (ordered : Ordered part)
    (bracketed : Bracketed (part.map Prod.fst)) {c : Char} {place : Nat} (held : (c, place) ∈ part) :
    Enclosed part place := by
  obtain ⟨opens, closes⟩ := bracketed
  rw [List.head?_map, Option.map_eq_some_iff] at opens
  rw [List.getLast?_map, Option.map_eq_some_iff] at closes
  obtain ⟨⟨_, first⟩, opens, rfl⟩ := opens
  obtain ⟨⟨_, last⟩, closes, rfl⟩ := closes
  refine ⟨⟨first, ?_, List.mem_of_head? opens⟩, last, ?_, List.mem_of_getLast? closes⟩
  · obtain ⟨rest, rfl⟩ := List.head?_eq_some_iff.mp opens
    rcases List.mem_cons.mp held with same | later
    · exact (congrArg Prod.snd same).ge
    · exact ((List.pairwise_cons.mp ordered).1 _ later).le
  · obtain ⟨front, rfl⟩ := List.getLast?_eq_some_iff.mp closes
    rcases List.mem_append.mp held with earlier | same
    · exact ((List.pairwise_append.mp ordered).2.2 _ earlier _ List.mem_cons_self).le
    · exact (congrArg Prod.snd (List.mem_singleton.mp same)).le

/-- A rule of which the matches begin with `<` and end with `>` deletes nothing else. -/
theorem removed_enclosed (bracketed : Takes width Bracketed) {placed : Placed}
    (ordered : Ordered placed) {c : Char} {place : Nat} (held : (c, place) ∈ placed)
    (removed : (c, place) ∉ keep width placed) : Enclosed placed place := by
  induction text : placed.map Prod.fst using deletion_induction width generalizing placed with
  | nil =>
    obtain rfl := List.map_eq_nil_iff.mp text
    cases held
  | matched d others found ih =>
    obtain ⟨first, rest, rfl, -, -⟩ := List.map_eq_cons_iff.mp text
    rw [← text] at found ih
    rw [keep_match found] at removed
    let size := width ((first :: rest).map Prod.fst)
    rw [← List.take_append_drop size (first :: rest)] at held
    rcases List.mem_append.mp held with matched | later
    · have part : Bracketed (((first :: rest).take size).map Prod.fst) := by
        rw [List.map_take]
        exact bracketed _ found
      exact (bracketed_enclosed (ordered.sublist (List.take_sublist _ _)) part matched).mono
        (List.take_subset _ _)
    · refine (ih (ordered.sublist (List.drop_sublist _ _)) later removed List.map_drop).mono
        (List.drop_subset _ _)
  | other d others none ih =>
    obtain ⟨first, rest, rfl, -, tail⟩ := List.map_eq_cons_iff.mp text
    rw [← text] at none
    rw [keep_other none] at removed
    rcases List.mem_cons.mp held with same | later
    · exact absurd (same ▸ List.mem_cons_self) removed
    · have deeper : (c, place) ∉ keep width rest := fun kept =>
        removed (List.mem_cons_of_mem _ kept)
      exact (ih (List.pairwise_cons.mp ordered).2 later deeper tail).mono (List.subset_cons_self _ _)

variable {text : List Char}

private theorem zipIdx_ordered (text : List Char) : Ordered text.zipIdx := by
  have places : (text.zipIdx.map Prod.snd).Pairwise (· < ·) := by
    rw [List.zipIdx_map_snd]
    exact List.pairwise_lt_range'
  exact List.pairwise_map.mp places

/-- What is deleted and is no control character is enclosed in the text, whichever pass deletes it. -/
theorem deleted_enclosed {c : Char} {place : Nat} (held : (c, place) ∈ text.zipIdx)
    (deleted : (c, place) ∉ survivors text) (visible : isControl c = false) :
    Enclosed text.zipIdx place := by
  have without := keep_sublist scriptWidth text.zipIdx
  by_cases first : (c, place) ∈ keep scriptWidth text.zipIdx
  · have second : (c, place) ∉ keep tagWidth (keep scriptWidth text.zipIdx) := fun kept =>
      deleted (List.mem_filter.mpr ⟨kept, by simp [visible]⟩)
    exact (removed_enclosed tags_bracketed ((zipIdx_ordered text).sublist without) first second).mono
      without.subset
  · exact removed_enclosed scriptBlocks_bracketed (zipIdx_ordered text) held first

/-- Where nothing is enclosed, only the control characters are deleted. -/
theorem unenclosed_kept {part : Placed} (inside : part ⊆ text.zipIdx)
    (free : ∀ place ∈ part, ¬ Enclosed text.zipIdx place.2) :
    (part.filter (· ∈ survivors text)).map Prod.fst =
      (part.map Prod.fst).filter fun c => !isControl c := by
  rw [List.filter_map]
  refine congrArg _ (List.filter_congr fun place held => ?_)
  cases control : isControl place.1 with
  | true =>
    have deleted : place ∉ survivors text := fun kept => by
      simp [survivors, control] at kept
    simp [deleted, control]
  | false =>
    have kept : place ∈ survivors text := by
      by_contra deleted
      exact free place held (deleted_enclosed (inside held) deleted control)
    simp [kept, control]

/-- Cleaning keeps of the places of a text those that survive. -/
theorem cleanChars_eq_filter (text : List Char) :
    cleanChars text = (text.zipIdx.filter (· ∈ survivors text)).map Prod.fst := by
  have inside := survivors_sublist text
  have distinct : text.zipIdx.Nodup :=
    (zipIdx_ordered text).imp fun less => ne_of_apply_ne Prod.snd less.ne
  have all : survivors text = text.zipIdx.filter (· ∈ survivors text) := by
    have kept : (survivors text).filter (· ∈ survivors text) = survivors text := by simp
    have within := inside.filter (· ∈ survivors text)
    rw [kept] at within
    refine within.eq_of_length_le (List.Subperm.length_le ?_)
    refine List.subperm_of_subset (distinct.filter _) fun place held => ?_
    simpa using (List.mem_filter.mp held).2
  rw [← all, survivors_chars]

/-- What is in front of the first `<` stays. -/
theorem front_kept {front : List Char} (plain : '<' ∉ front) (rest : List Char) :
    (front.filter fun c => !isControl c) <+: cleanChars (front ++ rest) := by
  have free : ∀ place ∈ front.zipIdx, ¬ Enclosed (front ++ rest).zipIdx place.2 := by
    rintro ⟨c, place⟩ held ⟨⟨first, before, opens⟩, -⟩
    have within : place < front.length := List.snd_lt_of_mem_zipIdx held
    rw [List.mem_zipIdx_iff_getElem?, List.getElem?_append_left (by omega)] at opens
    exact plain (List.mem_of_getElem? opens)
  have inside : front.zipIdx ⊆ (front ++ rest).zipIdx := by
    rw [List.zipIdx_append]
    exact List.subset_append_left _ _
  have kept := unenclosed_kept inside free
  rw [List.zipIdx_map_fst] at kept
  rw [cleanChars_eq_filter, List.zipIdx_append, List.filter_append, List.map_append, kept]
  exact List.prefix_append _ _

/-- What is behind the last `>` stays. -/
theorem back_kept {back : List Char} (plain : '>' ∉ back) (front : List Char) :
    (back.filter fun c => !isControl c) <:+ cleanChars (front ++ back) := by
  have free : ∀ place ∈ back.zipIdx (0 + front.length), ¬ Enclosed (front ++ back).zipIdx place.2 := by
    rintro ⟨c, place⟩ held ⟨-, last, behind, closes⟩
    have within : 0 + front.length ≤ place := List.le_snd_of_mem_zipIdx held
    rw [List.mem_zipIdx_iff_getElem?, List.getElem?_append_right (by omega)] at closes
    exact plain (List.mem_of_getElem? closes)
  have inside : back.zipIdx (0 + front.length) ⊆ (front ++ back).zipIdx := by
    rw [List.zipIdx_append]
    exact List.subset_append_right _ _
  have kept := unenclosed_kept inside free
  rw [List.zipIdx_map_fst] at kept
  rw [cleanChars_eq_filter, List.zipIdx_append, List.filter_append, List.map_append, kept]
  exact List.suffix_append _ _

/-- Where no `<` has a letter or a slash behind it, only the control characters are deleted. -/
theorem harmless_kept (harmless : Harmless text) :
    cleanChars text = text.filter fun c => !isControl c := by
  obtain ⟨noBlock, noTag⟩ := markupFree_iff.mp harmless.markupFree
  rw [cleanChars, noBlock, noTag]

/-- **Cleaning only deletes, and only where it should.** The cleaned text is what stays of the text, in
its order. A character that is deleted and is no ASCII control character has a `<` of the text at or
before its place and a `>` at or behind it, though the second pass works on what the first has left. So
apart from control characters what is in front of the first `<` and what is behind the last `>` stay, and
the whole text does if no `<` has a letter or a slash behind it. -/
theorem cleaning_deletes_between_brackets (text : String) :
    let raw := text.toList
    (clean text).toList.Sublist raw ∧
      (survivors raw).Sublist raw.zipIdx ∧ (survivors raw).map Prod.fst = (clean text).toList ∧
      (∀ c place, (c, place) ∈ raw.zipIdx → (c, place) ∉ survivors raw →
        isControl c = true ∨ Enclosed raw.zipIdx place) ∧
      (∀ front rest, raw = front ++ rest → '<' ∉ front →
        (front.filter fun c => !isControl c) <+: (clean text).toList) ∧
      (∀ front rest, raw = front ++ rest → '>' ∉ rest →
        (rest.filter fun c => !isControl c) <:+ (clean text).toList) ∧
      (Harmless raw → (clean text).toList = raw.filter fun c => !isControl c) := by
  intro raw
  have cleaned : (clean text).toList = cleanChars raw := String.toList_ofList
  have kept := survivors_sublist raw
  rw [cleaned]
  refine ⟨?_, kept, survivors_chars raw, ?_, ?_, ?_, harmless_kept⟩
  · have chars := kept.map Prod.fst
    rwa [survivors_chars, List.zipIdx_map_fst] at chars
  · intro c place held deleted
    cases control : isControl c with
    | true => exact .inl rfl
    | false => exact .inr (deleted_enclosed held deleted control)
  · rintro front rest split plain
    rw [split]
    exact front_kept plain rest
  · rintro front rest split plain
    rw [split]
    exact back_kept plain front

/-- A comparison, a tab and a `<` before a letter that is not of ASCII. -/
theorem comparison_kept : Harmless "1 < 2\t(<é>)".toList ∧ clean "1 < 2\t(<é>)" = "1 < 2(<é>)" := by
  have harmless : Harmless "1 < 2\t(<é>)".toList := by decide +kernel
  have kept := (cleaning_deletes_between_brackets "1 < 2\t(<é>)").2.2.2.2.2.2 harmless
  refine ⟨harmless, String.toList_injective (kept.trans ?_)⟩
  decide +kernel

/-- The tag that is deleted comes together when the script block in it is gone. -/
example : survivors "a<b<script></script>>c".toList = [('a', 0), ('c', 21)] := by
  decide +kernel

end Questionnaire.Survivors
