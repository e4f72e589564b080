import Questionnaire.Proofs.WrittenValues

/-! The layout of the indented text. It differs from the text without blanks in nothing but blanks
between tokens: leaving them out, and keeping those that stand in quoted texts, gives that text. Quotes
and backslashes in quoted texts are escaped, so a quoted text is left only at its closing quote. -/
namespace Questionnaire.Layout
open Json WrittenScalars WrittenValues

/-- Leaving out the blanks of one text gives the other one, whatever follows. -/
def Tightens (loose tight : List Char) : Prop :=
  ∀ rest, withoutSpaces .outside (loose ++ rest) = tight ++ withoutSpaces .outside rest

private theorem Tightens.append {loose tight looseNext tightNext : List Char}
    (first : Tightens loose tight) (second : Tightens looseNext tightNext) :
    Tightens (loose ++ looseNext) (tight ++ tightNext) := by
  intro rest
  rw [List.append_assoc, first, second, List.append_assoc]

private theorem tightens_blanks {blanks : List Char} (blank : ∀ c ∈ blanks, isSpace c = true) :
    Tightens blanks [] := by
  intro rest
  induction blanks with
  | nil => rfl
  | cons c blanks ih =>
    have space := blank c List.mem_cons_self
    rw [List.cons_append, withoutSpaces, if_pos ⟨rfl, space⟩]
    exact ih fun c later => blank c (List.mem_cons_of_mem _ later)

private theorem tightens_solid {text : List Char}
    (solid : ∀ c ∈ text, isSpace c = false ∧ c ≠ '"') : Tightens text text := by
  intro rest
  induction text with
  | nil => rfl
  | cons c text ih =>
    obtain ⟨visible, unquoted⟩ := solid c List.mem_cons_self
    have outside : Place.behind c .outside = .outside := if_neg unquoted
    rw [List.cons_append, withoutSpaces, if_neg (by simp [visible]), outside,
      ih fun c later => solid c (List.mem_cons_of_mem _ later), List.cons_append]

private theorem tightens_mark {c : Char} (solid : isSpace c = false ∧ c ≠ '"') : Tightens [c] [c] :=
  tightens_solid (List.forall_mem_singleton.mpr solid)

/-- Nothing is left out of an escaped character, and behind it a quoted text goes on. -/
theorem withoutSpaces_escape (c : Char) (rest : List Char) :
    withoutSpaces .inString (escape c ++ rest) = escape c ++ withoutSpaces .inString rest := by
  have digits : ∀ digit : Fin 16,
      Nat.digitChar digit.val ≠ '"' ∧ Nat.digitChar digit.val ≠ '\\' := by decide
  unfold escape
  split
  case h_8 quote backslash _ _ _ _ _ =>
    split
    · next control =>
      have high := digits ⟨c.toNat / 16, by omega⟩
      have low := digits ⟨c.toNat % 16, by omega⟩
      rw [escapeControl_eq control]
      simp [withoutSpaces, Place.behind, high, low]
    · have inside : Place.behind c .inString = .inString := by
        rw [Place.behind, if_neg quote, if_neg backslash]
      simp [withoutSpaces, inside]
  all_goals simp [withoutSpaces, Place.behind]

private theorem tightens_quote (text : String) : Tightens (quote text) (quote text) := by
  intro rest
  have inside : ∀ text : List Char, withoutSpaces .inString (text.flatMap escape ++ '"' :: rest) =
      text.flatMap escape ++ '"' :: withoutSpaces .outside rest := by
    intro text
    induction text with
    | nil => simp [withoutSpaces, Place.behind]
    | cons c text ih =>
      rw [List.flatMap_cons, List.append_assoc, withoutSpaces_escape, ih, List.append_assoc]
  have opened := inside text.toList
  simp [quote, withoutSpaces, Place.behind, isSpace, opened]

/-- Between entries stand the same commas. -/
theorem tightens_intercalate {α : Type} {loose tight : α → List Char} {entries : List α}
    (each : ∀ entry ∈ entries, Tightens (loose entry) (tight entry)) :
    Tightens ([','].intercalate (entries.map loose)) ([','].intercalate (entries.map tight)) := by
  have comma : Tightens [','] [','] := tightens_mark (by decide)
  induction entries with
  | nil => exact fun _ => rfl
  | cons entry entries ih =>
    have here := each entry List.mem_cons_self
    have later := ih fun entry held => each entry (List.mem_cons_of_mem _ held)
    cases entries with
    | nil => simpa using here
    | cons next entries =>
      simpa using (here.append comma).append later

/-- What stands between brackets is tightened there. -/
theorem tightens_listing {loose tight blanks : List Char} {left right : Char}
    (opening : Tightens [left] [left]) (closing : Tightens [right] [right])
    (blank : ∀ c ∈ blanks, isSpace c = true) (inner : Tightens loose tight) :
    Tightens (left :: (loose ++ (blanks ++ [right]))) (left :: (tight ++ [right])) :=
  opening.append (inner.append ((tightens_blanks blank).append closing))

/-- Leaving out the blanks of the indented text of a value gives its text without blanks. -/
theorem tightens_pretty {value : Json} (integral : Integral value) (depth : Nat) :
    Tightens (prettyChars depth value) (compactChars value) := by
  have mark : Tightens [':'] [':'] := tightens_mark (by decide)
  have space : Tightens [' '] [] := tightens_blanks (List.forall_mem_singleton.mpr rfl)
  have colon : Tightens [':', ' '] [':'] := mark.append space
  have null : Tightens (scalarChars .null) (scalarChars .null) :=
    tightens_solid (by simp [scalarChars, isSpace])
  have bool : ∀ truth, Tightens (scalarChars (.bool truth)) (scalarChars (.bool truth)) :=
    fun truth => tightens_solid (by cases truth <;> simp [scalarChars, isSpace])
  induction integral generalizing depth with
  | null => exact null
  | bool truth => exact bool truth
  | integer fits => exact tightens_solid fun c held => integer_chars_solid held
  | string text => exact tightens_quote text
  | array _ ih =>
    rw [prettyChars_array, compactChars_array]
    refine tightens_listing (tightens_mark (by decide)) (tightens_mark (by decide))
      (lastLine_blank depth _) ?_
    refine tightens_intercalate fun item member => ?_
    exact (tightens_blanks (newLine_blank (depth + 1))).append (ih item member (depth + 1))
  | object _ ih =>
    rw [prettyChars_object, compactChars_object]
    refine tightens_listing (tightens_mark (by decide)) (tightens_mark (by decide))
      (lastLine_blank depth _) ?_
    refine tightens_intercalate fun member held => ?_
    have value := colon.append (ih member held (depth + 1))
    exact (tightens_blanks (newLine_blank (depth + 1))).append
      ((tightens_quote member.1).append value)

theorem withoutSpaces_pretty {value : Json} (integral : Integral value) :
    withoutSpaces .outside value.pretty.toList = value.compact.toList := by
  have whole := tightens_pretty integral 0 []
  simpa [pretty, compact, withoutSpaces] using whole

end Questionnaire.Layout
