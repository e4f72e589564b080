import Mathlib.Data.List.TakeWhile
import Questionnaire.Proofs.Occurrences
import Questionnaire.Relevance.Expression

/-! How marking a variable acts on the segments of a condition. Tokens stay, free text is cut at
the variable and a token is put into every cut. -/
namespace Questionnaire.Segments
open Relevance Occurrences

/-- The segments that a variable's token brings into free text behind its first piece. -/
def marksBetween (token : List Char) (pieces : List (List Char)) : List Segment :=
  pieces.flatMap fun piece => .token token :: Segment.ofText piece

/-- Marked free text is its first piece and a token in front of each other piece. -/
theorem mark_text {word token text first : List Char} {others : List (List Char)}
    (pieces : Text.cuts word text = first :: others) :
    Segment.mark word token (.text text) =
      Segment.ofText first ++ marksBetween token others := by
  rw [Segment.mark, pieces, List.map_cons, intercalate_cons, List.flatMap_map]
  rfl

theorem markEntry_append (front back : List Segment) (entry : Spelling) :
    markEntry (front ++ back) entry = markEntry front entry ++ markEntry back entry :=
  List.flatMap_append

@[simp]
theorem markEntry_token (chars : List Char) (rest : List Segment) (entry : Spelling) :
    markEntry (.token chars :: rest) entry = .token chars :: markEntry rest entry := rfl

/-- Marking free text is the same whether or not it is empty. -/
theorem markEntry_ofText {text first : List Char} {others : List (List Char)} {entry : Spelling}
    (pieces : Text.cuts entry.word.toList text = first :: others) :
    markEntry (Segment.ofText text) entry =
      Segment.ofText first ++ marksBetween entry.token.toList others := by
  rw [← mark_text pieces]
  cases text with
  | nil => simp [markEntry, Segment.ofText, Segment.mark]
  | cons c rest => simp [markEntry, Segment.ofText]

@[simp]
theorem ofText_chars (text : List Char) : (Segment.ofText text).flatMap Segment.chars = text := by
  cases text <;> simp [Segment.ofText, Segment.chars]

theorem ofText_of_ne_nil {text : List Char} (filled : text ≠ []) :
    Segment.ofText text = [.text text] := by
  cases text with
  | nil => exact absurd rfl filled
  | cons c rest => rfl

theorem foldl_markEntry_append (entries : List Spelling) (front back : List Segment) :
    entries.foldl markEntry (front ++ back) =
      entries.foldl markEntry front ++ entries.foldl markEntry back := by
  induction entries generalizing front back with
  | nil => rfl
  | cons entry rest ih => rw [List.foldl_cons, markEntry_append, ih]; rfl

@[simp]
theorem foldl_markEntry_nil (entries : List Spelling) : entries.foldl markEntry [] = [] := by
  induction entries with
  | nil => rfl
  | cons entry rest ih => simpa [markEntry] using ih

theorem foldl_markEntry_token (entries : List Spelling) (chars : List Char) (rest : List Segment) :
    entries.foldl markEntry (.token chars :: rest) =
      .token chars :: entries.foldl markEntry rest := by
  induction entries generalizing rest with
  | nil => rfl
  | cons entry others ih => rw [List.foldl_cons, markEntry_token, ih]; rfl

/-- Characters from an opening brace to the next closing one. -/
def Bracketed (chars : List Char) : Prop :=
  ∃ inside, chars = '\x7b' :: inside ++ ['\x7d'] ∧ '\x7d' ∉ inside

/-- What the first bracketed run is: it begins with the first opening brace and ends with the next
closing one. -/
theorem firstBracketed?_spec {text before token behind : List Char}
    (found : firstBracketed? text = some (before, token, behind)) :
    text = before ++ token ++ behind ∧ Bracketed token := by
  unfold firstBracketed? at found
  split at found
  · simp at found
  · next opening rest behindFirst =>
    split at found
    · simp at found
    · next closing last behindInside =>
      simp only [Option.some.injEq, Prod.mk.injEq] at found
      obtain ⟨rfl, rfl, rfl⟩ := found
      have opens : opening = '\x7b' := by
        have head := List.head?_dropWhile_not (· != '\x7b') text
        simpa [behindFirst] using head
      have closes : closing = '\x7d' := by
        have head := List.head?_dropWhile_not (· != '\x7d') rest
        simpa [behindInside] using head
      subst opens closes
      refine ⟨?_, _, rfl, ?_⟩
      · have outer := List.takeWhile_append_dropWhile (p := (· != '\x7b')) (l := text)
        have inner := List.takeWhile_append_dropWhile (p := (· != '\x7d')) (l := rest)
        rw [behindInside] at inner
        rw [behindFirst, ← inner] at outer
        simpa using outer.symm
      · intro member
        simpa using List.mem_takeWhile_imp member

/-- A bracketed run that no opening brace precedes is the first one. -/
theorem firstBracketed?_of_run {before token behind : List Char} (unopened : '\x7b' ∉ before)
    (bracketed : Bracketed token) :
    firstBracketed? (before ++ token ++ behind) = some (before, token, behind) := by
  obtain ⟨inside, rfl, unclosed⟩ := bracketed
  have passed : ∀ c ∈ before, (c != '\x7b') = true := fun c member => by
    simpa using fun same : c = '\x7b' => unopened (same ▸ member)
  have enclosed : ∀ c ∈ inside, (c != '\x7d') = true := fun c member => by
    simpa using fun same : c = '\x7d' => unclosed (same ▸ member)
  simp [firstBracketed?, List.takeWhile_append_of_pos passed, List.dropWhile_append_of_pos passed,
    List.takeWhile_append_of_pos enclosed, List.dropWhile_append_of_pos enclosed]

/-- Where no opening brace has a closing one behind it, there is no bracketed run. -/
theorem unbracketed_of_unclosed {text : List Char}
    (unclosed : ∀ front back, text = front ++ '\x7b' :: back → '\x7d' ∉ back) :
    firstBracketed? text = none := by
  cases found : firstBracketed? text with
  | none => rfl
  | some run =>
    obtain ⟨before, token, behind⟩ := run
    obtain ⟨whole, inside, rfl, _⟩ := firstBracketed?_spec found
    have opens : text = before ++ '\x7b' :: (inside ++ '\x7d' :: behind) := by simpa using whole
    exact absurd (by simp) (unclosed _ _ opens)

theorem segmentsOf_bracketed {text before token behind : List Char}
    (found : firstBracketed? text = some (before, token, behind)) :
    segmentsOf text = Segment.ofText before ++ .token token :: segmentsOf behind := by
  rw [segmentsOf]
  split
  · next missing => simp [found] at missing
  · next first second third eq =>
    rw [found] at eq
    obtain ⟨rfl, rfl, rfl⟩ := eq
    rfl

theorem segmentsOf_unbracketed {text : List Char} (missing : firstBracketed? text = none) :
    segmentsOf text = Segment.ofText text := by
  rw [segmentsOf]
  split
  · rfl
  · next found => simp [missing] at found

/-- A condition without an opening brace is free text altogether. -/
theorem segmentsOf_braceless {text : List Char} (braceless : '\x7b' ∉ text) :
    segmentsOf text = Segment.ofText text := by
  refine segmentsOf_unbracketed (unbracketed_of_unclosed fun front back opens => ?_)
  exact absurd (by simp [opens]) braceless

theorem firstBracketed?_unopened {text before token behind : List Char}
    (found : firstBracketed? text = some (before, token, behind)) : '\x7b' ∉ before := by
  unfold firstBracketed? at found
  intro member
  split at found
  · simp at found
  · split at found
    · simp at found
    · simp only [Option.some.injEq, Prod.mk.injEq] at found
      rw [← found.1] at member
      simpa using List.mem_takeWhile_imp member

/-- Where no bracketed run is found, no opening brace has a closing one behind it: otherwise the first
opening brace would have one. -/
theorem unclosed_of_unbracketed {text front back : List Char} (missing : firstBracketed? text = none)
    (opens : text = front ++ '\x7b' :: back) : '\x7d' ∉ back := by
  intro closes
  have upTo : '\x7b' ∈ front ++ ['\x7b'] := by simp
  obtain ⟨before, rest, first, unopened⟩ := List.eq_append_cons_of_mem upTo
  have closesRest : '\x7d' ∈ rest ++ back := List.mem_append_right rest closes
  obtain ⟨inside, behind, next, unclosed⟩ := List.eq_append_cons_of_mem closesRest
  have whole : text = before ++ ('\x7b' :: inside ++ ['\x7d']) ++ behind :=
    calc text = (front ++ ['\x7b']) ++ back := by simpa using opens
      _ = before ++ '\x7b' :: (rest ++ back) := by simp [first]
      _ = before ++ ('\x7b' :: inside ++ ['\x7d']) ++ behind := by simp [next]
  have bracketed : Bracketed ('\x7b' :: inside ++ ['\x7d']) := ⟨inside, rfl, unclosed⟩
  simp only [whole, firstBracketed?_of_run unopened bracketed, reduceCtorEq] at missing

theorem mem_ofText {chars text : List Char} (member : .text chars ∈ Segment.ofText text) :
    chars = text ∧ text ≠ [] := by
  cases text with
  | nil => cases member
  | cons c rest => simpa [Segment.ofText] using member

/-- Cutting at brackets loses nothing. -/
theorem segmentsOf_chars (text : List Char) : (segmentsOf text).flatMap Segment.chars = text := by
  induction text using segmentsOf.induct with
  | case1 text missing => rw [segmentsOf_unbracketed missing, ofText_chars]
  | case2 text before token behind found ih =>
    rw [segmentsOf_bracketed found, List.flatMap_append, List.flatMap_cons, ofText_chars, ih,
      (firstBracketed?_spec found).1, List.append_assoc]
    rfl

end Questionnaire.Segments
