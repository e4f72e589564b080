import Mathlib.Data.List.Chain
import Questionnaire.Proofs.Segments

/-! The segments of a condition among all ways to cut it. A token is a bracketed run, free text is in
as few segments as can be and holds no bracketed run, and no brace is left open before the last segment.
These rules leave no choice: from left to right each of them forces the next cut, so a condition has one
segmentation that keeps them, and cutting at brackets finds it. -/
namespace Questionnaire.CanonicalSegments
open Relevance Segments

def IsText : Segment → Prop
  | .text _ => True
  | .token _ => False

/-- Two segments that may follow each other: one of them is a token. -/
def Apart (first second : Segment) : Prop :=
  ¬ (IsText first ∧ IsText second)

/-- What is asked of the segments of a condition, whatever has cut it: tokens are bracketed runs; no free
text is empty, next to another one or holds a bracketed run; and only the last segment leaves a brace
open. -/
structure Canonical (segments : List Segment) : Prop where
  bracketed : ∀ chars, .token chars ∈ segments → Bracketed chars
  filled : .text [] ∉ segments
  apart : segments.IsChain Apart
  unclosed : ∀ front back, .text (front ++ '\x7b' :: back) ∈ segments → '\x7d' ∉ back
  unopened : ∀ chars, .text chars ∈ segments.dropLast → '\x7b' ∉ chars

private theorem canonical_nil : Canonical [] where
  bracketed _ member := by cases member
  filled member := by cases member
  apart := .nil
  unclosed _ _ member := by cases member
  unopened _ member := by cases member

private theorem Canonical.tail {segment : Segment} {rest : List Segment}
    (canonical : Canonical (segment :: rest)) : Canonical rest where
  bracketed chars member := canonical.bracketed chars (List.mem_cons_of_mem _ member)
  filled member := canonical.filled (List.mem_cons_of_mem _ member)
  apart := canonical.apart.tail
  unclosed front back member := canonical.unclosed front back (List.mem_cons_of_mem _ member)
  unopened chars member := by
    refine canonical.unopened chars ?_
    cases rest with
    | nil => cases member
    | cons next later => exact List.mem_cons_of_mem _ member

/-- Free text that holds no bracketed run may be the last segment. -/
theorem canonical_text {text : List Char} (filled : text ≠ [])
    (unclosed : ∀ front back, text = front ++ '\x7b' :: back → '\x7d' ∉ back) :
    Canonical [.text text] where
  bracketed _ member := by simp at member
  filled member := by simp [filled.symm] at member
  apart := .singleton _
  unclosed front back member := unclosed front back (by simpa [eq_comm] using member)
  unopened _ member := by cases member

/-- A bracketed run may stand in front of all segments. -/
theorem Canonical.token_cons {token : List Char} {later : List Segment}
    (canonical : Canonical later) (bracketed : Bracketed token) :
    Canonical (.token token :: later) where
  bracketed chars member := by
    rcases List.mem_cons.mp member with same | behind
    · exact (Segment.token.inj same) ▸ bracketed
    · exact canonical.bracketed chars behind
  filled member := canonical.filled (by simpa using member)
  apart := List.isChain_cons.mpr ⟨fun _ _ both => both.1, canonical.apart⟩
  unclosed front back member := canonical.unclosed front back (by simpa using member)
  unopened chars member := by
    cases later with
    | nil => cases member
    | cons next rest => exact canonical.unopened chars (by simpa using member)

/-- In front of a token there may be free text in which no brace is left open. -/
theorem Canonical.text_cons {text token : List Char} {later : List Segment}
    (canonical : Canonical (.token token :: later)) (filled : text ≠ []) (unopened : '\x7b' ∉ text) :
    Canonical (.text text :: .token token :: later) where
  bracketed chars member := canonical.bracketed chars (by simpa using member)
  filled member := by
    rcases List.mem_cons.mp member with same | behind
    · exact filled (Segment.text.inj same).symm
    · exact canonical.filled behind
  apart := .cons_cons (fun both => both.2) canonical.apart
  unclosed front back member := by
    rcases List.mem_cons.mp member with same | behind
    · simp [← Segment.text.inj same] at unopened
    · exact canonical.unclosed front back behind
  unopened chars member := by
    rw [List.dropLast_cons_cons] at member
    rcases List.mem_cons.mp member with same | before
    · exact (Segment.text.inj same) ▸ unopened
    · exact canonical.unopened chars before

/-- Cutting a condition gives canonical segments. -/
theorem segmentsOf_canonical (condition : List Char) : Canonical (segmentsOf condition) := by
  induction condition using segmentsOf.induct with
  | case1 condition missing =>
    rw [segmentsOf_unbracketed missing]
    cases condition with
    | nil => exact canonical_nil
    | cons c rest =>
      exact canonical_text (List.cons_ne_nil c rest) fun _ _ => unclosed_of_unbracketed missing
  | case2 condition before token behind found ih =>
    rw [segmentsOf_bracketed found]
    have behindText := ih.token_cons (firstBracketed?_spec found).2
    cases before with
    | nil => exact behindText
    | cons c rest =>
      exact behindText.text_cons (List.cons_ne_nil c rest) (firstBracketed?_unopened found)

private theorem segmentsOf_token_append {token : List Char} (bracketed : Bracketed token)
    (behind : List Char) :
    segmentsOf (token ++ behind) = .token token :: segmentsOf behind :=
  segmentsOf_bracketed (firstBracketed?_of_run List.not_mem_nil bracketed)

/-- Free text in front of a token is cut off as a segment of its own. -/
theorem segmentsOf_text_append {text token : List Char} (filled : text ≠ [])
    (unopened : '\x7b' ∉ text) (bracketed : Bracketed token) (behind : List Char) :
    segmentsOf (text ++ (token ++ behind)) = .text text :: segmentsOf (token ++ behind) := by
  rw [segmentsOf_token_append bracketed, ← List.append_assoc,
    segmentsOf_bracketed (firstBracketed?_of_run unopened bracketed), ofText_of_ne_nil filled]
  rfl

/-- Cutting finds every canonical segmentation again: the next segment is a token, a text in front of a
token or the last text, and each of them is what is cut off from the characters. -/
theorem segmentsOf_flatMap_chars {segments : List Segment} (canonical : Canonical segments) :
    segmentsOf (segments.flatMap Segment.chars) = segments := by
  induction segments with
  | nil => exact segmentsOf_braceless List.not_mem_nil
  | cons segment rest ih =>
    have later := ih canonical.tail
    cases segment with
    | token token =>
      rw [List.flatMap_cons, Segment.chars,
        segmentsOf_token_append (canonical.bracketed token List.mem_cons_self), later]
    | text text =>
      have filled : text ≠ [] := by
        rintro rfl
        exact canonical.filled List.mem_cons_self
      cases rest with
      | nil =>
        have unclosed : ∀ front back, text = front ++ '\x7b' :: back → '\x7d' ∉ back :=
          fun front back opens => canonical.unclosed front back (by simp [opens])
        rw [List.flatMap_cons, List.flatMap_nil, List.append_nil, Segment.chars,
          segmentsOf_unbracketed (unbracketed_of_unclosed unclosed), ofText_of_ne_nil filled]
      | cons next others =>
        cases next with
        | text _ => exact absurd ⟨trivial, trivial⟩ (List.isChain_cons_cons.mp canonical.apart).1
        | token token =>
          have unopened := canonical.unopened text (by simp)
          have bracketed := canonical.bracketed token (by simp)
          rw [List.flatMap_cons] at later
          rw [List.flatMap_cons, List.flatMap_cons]
          exact (segmentsOf_text_append filled unopened bracketed _).trans (congrArg _ later)

/-- One round of cutting goes on with what stands behind the first bracketed run. -/
def Leaves (behind text : List Char) : Prop :=
  ∃ before token, firstBracketed? text = some (before, token, behind)

/-- No text can be cut over and over: each round leaves fewer characters. -/
theorem leaves_wellFounded : WellFounded Leaves := by
  refine Subrelation.wf ?_ (measure List.length).wf
  rintro behind text ⟨before, token, found⟩
  exact firstBracketed?_length found

/-- **Cutting at brackets is lossless and canonical.** For every condition it ends after finitely many
rounds, and of all lists of segments its result is the one that makes up the condition and is
canonical. -/
theorem segments_alone_canonical (condition : List Char) :
    Acc Leaves condition ∧
      ∀ segments, segmentsOf condition = segments ↔
        segments.flatMap Segment.chars = condition ∧ Canonical segments := by
  refine ⟨leaves_wellFounded.apply condition, fun segments => ?_⟩
  constructor
  · rintro rfl
    exact ⟨segmentsOf_chars condition, segmentsOf_canonical condition⟩
  · rintro ⟨rfl, canonical⟩
    exact segmentsOf_flatMap_chars canonical

/-- Stray braces stand in free text, and an opening brace inside of a run does not begin another. -/
example : segmentsOf "\x7d\x7ba\x7bb\x7d\x7d\x7bc".toList =
    [.text ['\x7d'], .token "\x7ba\x7bb\x7d".toList, .text "\x7d\x7bc".toList] := by
  decide +kernel

end Questionnaire.CanonicalSegments
