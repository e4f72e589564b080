/-! Occurrences of a word in a text: whether there is one, and the pieces of the text between the
leftmost occurrences that do not overlap. Replacing a word is putting another between the
pieces. -/
namespace Questionnaire.Text

/-- A word occurs in a text when it is a run of neighbouring characters of it. -/
def occurs (word : List Char) : List Char → Bool
  | [] => word.isEmpty
  | c :: rest => word.isPrefixOf (c :: rest) || occurs word rest

/-- A word occurs exactly where it is an infix. -/
theorem occurs_iff {word text : List Char} : occurs word text = true ↔ word <:+: text := by
  induction text with
  | nil => simp [occurs]
  | cons c rest ih => simp [occurs, ih, List.infix_cons_iff]

/-- A word occurs properly in a text that it does not exhaust. -/
def occursProperly (word text : List Char) : Bool :=
  occurs word text && word != text

/-- Proper occurrence is being an infix and not the whole. -/
theorem occursProperly_iff {word text : List Char} :
    occursProperly word text = true ↔ word <:+: text ∧ word ≠ text := by
  simp [occursProperly, occurs_iff]

/-- The pieces of a text around the occurrences of a word; the first `skip` characters still
belong to the occurrence met last. -/
def cutsFrom (word : List Char) : (skip : Nat) → List Char → List (List Char)
  | _, [] => [[]]
  | skip + 1, _ :: rest => cutsFrom word skip rest
  | 0, c :: rest =>
    if word ≠ [] ∧ word.isPrefixOf (c :: rest) then
      [] :: cutsFrom word (word.length - 1) rest
    else
      (cutsFrom word 0 rest).modifyHead (c :: ·)

/-- The pieces of a text between the leftmost occurrences of a word that do not overlap; an empty
word cuts nothing. -/
def cuts (word text : List Char) : List (List Char) :=
  cutsFrom word 0 text

/-- Skipped characters leave no trace. -/
theorem cutsFrom_eq_drop (word : List Char) (skip : Nat) (text : List Char) :
    cutsFrom word skip text = cuts word (text.drop skip) := by
  induction text generalizing skip with
  | nil => cases skip <;> rfl
  | cons c rest ih =>
    cases skip with
    | zero => rfl
    | succ skip => simpa [cutsFrom] using ih skip

@[simp]
theorem cuts_nil (word : List Char) : cuts word [] = [[]] := rfl

/-- A cut is made where the word begins, and the search goes on behind it. -/
theorem cuts_of_isPrefixOf {word rest : List Char} {c : Char} (nonempty : word ≠ [])
    (here : word.isPrefixOf (c :: rest) = true) :
    cuts word (c :: rest) = [] :: cuts word ((c :: rest).drop word.length) := by
  obtain ⟨first, tail, rfl⟩ := List.exists_cons_of_ne_nil nonempty
  simp only [cuts, cutsFrom, here, ne_eq, reduceCtorEq, not_false_eq_true, and_self, ↓reduceIte,
    List.length_cons, Nat.add_one_sub_one, List.drop_succ_cons]
  rw [cutsFrom_eq_drop]
  rfl

/-- Elsewhere the character joins the piece behind it. -/
theorem cuts_of_not_isPrefixOf {word rest : List Char} {c : Char}
    (elsewhere : word.isPrefixOf (c :: rest) = false) :
    cuts word (c :: rest) = (cuts word rest).modifyHead (c :: ·) := by
  simp [cuts, cutsFrom, elsewhere]

/-- Puts another word in the place of every occurrence that `cuts` finds. -/
def replaceAll (word other text : List Char) : List Char :=
  other.intercalate (cuts word text)

end Questionnaire.Text
