import Questionnaire.Json.Reader
import Questionnaire.Json.Value
import Questionnaire.Proofs.Numerals

/-! Integers and texts as they are written. The numeral of an integer is one token as long as nothing
behind it could belong to a number, a text between quotes is one token whatever stands behind it, and
both are read back as what they were. A control character is written by its code and read back from
it, so no text is out of reach. -/
namespace Questionnaire.WrittenScalars
open Decimal Json

/-- What is read from a string or number that is written correctly. -/
def lexemeOf {α : Type} (value : α) : Lexeme α where
  read := .ok value
  skip := none

/-- The characters that a numeral would swallow if they stood behind it. -/
def Apart (rest : List Char) : Prop :=
  ∀ c ∈ rest.head?, c.isDigit = false ∧ c ≠ '.' ∧ c ≠ 'e' ∧ c ≠ 'E'

theorem apart_nil : Apart [] := by
  simp [Apart]

theorem apart_cons {c : Char} {rest : List Char}
    (outside : c.isDigit = false ∧ c ≠ '.' ∧ c ≠ 'e' ∧ c ≠ 'E') : Apart (c :: rest) := by
  simpa [Apart] using outside

theorem scan_blank {c : Char} (blank : isSpace c = true) (rest : List Char) :
    scan (c :: rest) = scan rest := by
  rw [scan, if_pos blank]

theorem scan_solid {c : Char} (solid : isSpace c = false) (rest : List Char) :
    scan (c :: rest) = (scanToken c rest).1 :: scan (scanToken c rest).2 := by
  rw [scan, if_neg (by simp [solid])]

/-- The decimal digits of a number. -/
def digitsOf (n : Nat) : List Char :=
  Nat.toDigits 10 n

private theorem digitsOf_isDigit {n : Nat} {c : Char} (member : c ∈ digitsOf n) : c.isDigit = true :=
  Nat.isDigit_of_mem_toDigits (by decide) (by decide) member

private theorem ofDigits_digitsOf (n : Nat) : ofDigits (digitsOf n) = n :=
  Nat.ofDigitChars_toDigits (by decide) (by decide)

/-- Only the number zero is written with a zero in front. -/
theorem digitsOf_head {n : Nat} (positive : 0 < n) : (digitsOf n).head? ≠ some '0' := by
  induction n using Nat.strongRecOn with
  | _ n ih =>
    by_cases single : n < 10
    · rw [digitsOf, Nat.toDigits_of_lt_base single]
      have nonzero : ∀ digit : Fin 10, 0 < digit.val →
          [Nat.digitChar digit.val].head? ≠ some '0' := by decide
      exact nonzero ⟨n, single⟩ positive
    · have earlier := ih (n / 10) (by omega) (by omega)
      have nonempty : Nat.toDigits 10 (n / 10) ≠ [] := Nat.toDigits_ne_nil
      rw [digitsOf, Nat.toDigits_of_base_le (by decide) (by omega), List.head?_append]
      cases front : Nat.toDigits 10 (n / 10) with
      | nil => exact absurd front nonempty
      | cons digit digits => simpa [digitsOf, front] using earlier

private theorem le_foldl_appendDigit (digits : List Char) (n : Nat) :
    n ≤ digits.foldl appendDigit n := by
  induction digits generalizing n with
  | nil => exact Nat.le_refl n
  | cons digit digits ih =>
    have grown : n ≤ appendDigit n digit := by
      unfold appendDigit
      omega
    exact Nat.le_trans grown (ih (appendDigit n digit))

/-- All digits are gathered if their number fits into 64 bits: every shorter run fits, too. -/
theorem gather_of_fits {digits : List Char} {n : Nat}
    (fits : digits.foldl appendDigit n < twoTo 64) :
    gather n digits = (digits.foldl appendDigit n, []) := by
  induction digits generalizing n with
  | nil => rfl
  | cons digit digits ih =>
    have shorter : appendDigit n digit < twoTo 64 :=
      Nat.lt_of_le_of_lt (le_foldl_appendDigit digits (appendDigit n digit)) fits
    rw [gather, if_pos shorter, List.foldl_cons]
    exact ih fits

/-- Digits alone are an integer of 64 bits; with a sign, it has one bit less and is not zero. -/
theorem numberOf_digitsOf {negative : Bool} {n : Nat} (fits : n < twoTo 64)
    (signed : negative = true → 0 < n ∧ n ≤ twoTo 63) :
    numberOf ⟨negative, digitsOf n, none, none⟩ =
      .ok (.integer (if negative then -(n : Int) else n)) := by
  have whole : gather 0 (digitsOf n) = (n, []) := by
    have value : (digitsOf n).foldl appendDigit 0 = n := ofDigits_digitsOf n
    rw [gather_of_fits (value.symm ▸ fits), value]
  have plain : (negative && (decide (n = 0) || decide (twoTo 63 < n))) = false := by
    cases negative with
    | false => rfl
    | true =>
      obtain ⟨positive, bounded⟩ := signed rfl
      simp [Nat.ne_of_gt positive, bounded]
  simp [numberOf, whole, gather, Literal.isPlain, plain]

private theorem splitDigits_digitsOf {rest : List Char} (n : Nat) (apart : Apart rest) :
    splitDigits (digitsOf n ++ rest) = (digitsOf n, rest) :=
  Numerals.splitDigits_append (fun _ => digitsOf_isDigit) fun c first => (apart c first).1

/-- Behind digits neither a fraction nor a power of ten follows. -/
theorem scanFraction_apart {rest : List Char} (negative : Bool) (whole : List Char)
    (apart : Apart rest) :
    scanFraction negative whole rest = (numberLexeme ⟨negative, whole, none, none⟩, rest) := by
  cases rest with
  | nil => rfl
  | cons c rest =>
    obtain ⟨-, point, small, capital⟩ := apart c rfl
    have unsplit : splitFraction (c :: rest) = (none, c :: rest) := by
      unfold splitFraction
      split
      · next same => exact absurd (List.cons.inj same).1 point
      · rfl
    simp [scanFraction, unsplit, scanExponent, small, capital]

private theorem scanUnsigned_digitsOf {rest : List Char} (negative : Bool) (n : Nat)
    (apart : Apart rest) :
    scanUnsigned negative (digitsOf n ++ rest) =
      (numberLexeme ⟨negative, digitsOf n, none, none⟩, rest) := by
  unfold scanUnsigned
  rw [splitDigits_digitsOf n apart]
  split
  · next nothing => exact absurd (Prod.mk.inj nothing).1 Nat.toDigits_ne_nil
  · next padded =>
    have digits := (Prod.mk.inj padded).1
    rcases Nat.eq_zero_or_pos n with rfl | positive
    · cases digits
    · exact absurd (by rw [digits]; rfl) (digitsOf_head positive)
  · next split =>
    obtain ⟨rfl, rfl⟩ := Prod.mk.inj split
    exact scanFraction_apart negative _ apart

private theorem scanToken_digit {c : Char} (digit : c.isDigit = true) (rest : List Char) :
    scanToken c rest =
      (.number (scanUnsigned false (c :: rest)).1, (scanUnsigned false (c :: rest)).2) := by
  unfold scanToken
  split <;> first | exact absurd digit (by decide) | simp [digit]

private theorem isSpace_of_isDigit {c : Char} (digit : c.isDigit = true) : isSpace c = false := by
  rw [Bool.eq_false_iff]
  intro blank
  simp only [isSpace, Bool.or_eq_true, beq_iff_eq] at blank
  rcases blank with ((rfl | rfl) | rfl) | rfl <;> exact absurd digit (by decide)

/-- An integer that is written out and read back as an integer. -/
def Fits (value : Int) : Prop :=
  -(twoTo 63 : Int) ≤ value ∧ value < twoTo 64

private theorem integer_text_ofNat (n : Nat) : (Number.integer (.ofNat n)).text.toList = digitsOf n :=
  Nat.toList_repr

private theorem integer_text_negSucc (n : Nat) :
    (Number.integer (.negSucc n)).text.toList = '-' :: digitsOf (n + 1) := by
  simp [Number.text, Int.toString_eq_repr, Int.repr, digitsOf]

/-- The numeral of an integer is one token. -/
theorem scan_integer {value : Int} {rest : List Char} (fits : Fits value) (apart : Apart rest) :
    scan ((Number.integer value).text.toList ++ rest) =
      .number (lexemeOf (.integer value)) :: scan rest := by
  obtain ⟨least, greatest⟩ := fits
  cases value with
  | ofNat n =>
    have read : numberOf ⟨false, digitsOf n, none, none⟩ = .ok (.integer (.ofNat n)) :=
      numberOf_digitsOf (by simpa using greatest) (by simp)
    rw [integer_text_ofNat]
    cases digits : digitsOf n with
    | nil => exact absurd digits Nat.toDigits_ne_nil
    | cons c others =>
      have digit : c.isDigit = true := digitsOf_isDigit (digits ▸ List.mem_cons_self)
      rw [List.cons_append, scan_solid (isSpace_of_isDigit digit), scanToken_digit digit,
        ← List.cons_append, ← digits, scanUnsigned_digitsOf false n apart, numberLexeme, read]
      rfl
  | negSucc n =>
    have bounded : n + 1 ≤ twoTo 63 := by omega
    have within : twoTo 63 < twoTo 64 := by decide
    have read : numberOf ⟨true, digitsOf (n + 1), none, none⟩ = .ok (.integer (.negSucc n)) :=
      numberOf_digitsOf (by omega) fun _ => ⟨by omega, bounded⟩
    rw [integer_text_negSucc, List.cons_append, scan_solid (by decide)]
    simp only [scanToken]
    rw [scanUnsigned_digitsOf true (n + 1) apart, numberLexeme, read]
    rfl

/-- A numeral has neither blanks nor quotes. -/
theorem integer_chars_solid {value : Int} {c : Char}
    (member : c ∈ (Number.integer value).text.toList) : isSpace c = false ∧ c ≠ '"' := by
  have digit : ∀ n, c ∈ digitsOf n → isSpace c = false ∧ c ≠ '"' := by
    intro n held
    have digit := digitsOf_isDigit held
    exact ⟨isSpace_of_isDigit digit, by rintro rfl; exact absurd digit (by decide)⟩
  cases value with
  | ofNat n => exact digit n (integer_text_ofNat n ▸ member)
  | negSucc n =>
    rw [integer_text_negSucc] at member
    rcases List.mem_cons.mp member with rfl | held
    · decide
    · exact digit (n + 1) held

/-- What a character is scanned as: control characters without a letter of their own are scanned as
code units. -/
def pieceOf (c : Char) : Piece :=
  if c.toNat < 0x20 ∧ c ∉ ['\x08', '\x0c', '\n', '\r', '\t'] then .unit c.toNat else .char c

/-- A control character is written by four digits, of which the first two are zero. -/
theorem escapeControl_eq {c : Char} (control : c.toNat < 0x20) :
    escapeControl c =
      ['\\', 'u', '0', '0', Nat.digitChar (c.toNat / 16), Nat.digitChar (c.toNat % 16)] := by
  have all : ∀ code : Fin 0x20, escapeControl (Char.ofNat code.val) =
      ['\\', 'u', '0', '0', Nat.digitChar (code.val / 16), Nat.digitChar (code.val % 16)] := by
    decide
  have this := all ⟨c.toNat, control⟩
  rwa [Char.ofNat_toNat] at this

private theorem hexNumber?_control {code : Nat} (control : code < 0x20) :
    Text.hexNumber? ['0', '0', Nat.digitChar (code / 16), Nat.digitChar (code % 16)] =
      some code := by
  have all : ∀ code : Fin 0x20, Text.hexNumber?
      ['0', '0', Nat.digitChar (code.val / 16), Nat.digitChar (code.val % 16)] =
        some code.val := by decide
  exact all ⟨code, control⟩

private theorem scanInside_closed (rest : List Char) :
    scanInside ('"' :: rest) = ⟨[], none, rest⟩ := by
  rw [scanInside.eq_def]
  rfl

private theorem scanInside_plain {c : Char} (quote : c ≠ '"') (backslash : c ≠ '\\')
    (visible : ¬ c.toNat < 0x20) (rest : List Char) :
    scanInside (c :: rest) = (scanInside rest).cons (.char c) := by
  rw [scanInside.eq_def]
  simp only [if_neg quote, if_neg backslash, if_neg visible]

private theorem scanInside_escape (c : Char) (rest : List Char) :
    scanInside (escape c ++ rest) = (scanInside rest).cons (pieceOf c) := by
  unfold escape
  split
  case h_8 quote backslash back feed line start tab =>
    by_cases control : c.toNat < 0x20
    · have code := hexNumber?_control control
      have unnamed : pieceOf c = .unit c.toNat := by simp_all [pieceOf]
      rw [if_pos control, escapeControl_eq control, unnamed]
      simp [scanInside, code]
    · have visible : pieceOf c = .char c := by simp [pieceOf, control]
      rw [if_neg control, visible]
      exact scanInside_plain quote backslash control rest
  all_goals simp [scanInside, shortEscape?, pieceOf]

private theorem scanInside_escaped (text rest : List Char) :
    scanInside (text.flatMap escape ++ '"' :: rest) = ⟨text.map pieceOf, none, rest⟩ := by
  induction text with
  | nil => exact scanInside_closed rest
  | cons c text ih =>
    rw [List.flatMap_cons, List.append_assoc, scanInside_escape, ih]
    rfl

/-- A code unit below the halves of surrogate pairs is read as its character. -/
theorem readPieces_control {code : Nat} (control : code < 0x20) (pieces : List Piece) :
    readPieces none (.unit code :: pieces) =
      (readPieces none pieces).map (Char.ofNat code :: ·) := by
  have first : isFirstHalf code = false := by
    simp only [isFirstHalf, Bool.and_eq_false_iff, decide_eq_false_iff_not]
    omega
  have second : isSecondHalf code = false := by
    simp only [isSecondHalf, Bool.and_eq_false_iff, decide_eq_false_iff_not]
    omega
  cases pieces with
  | nil => simp [readPieces, first, second, Except.map]
  | cons next pieces => simp [readPieces, first, second]

private theorem readPieces_map (text : List Char) :
    readPieces none (text.map pieceOf) = .ok text := by
  induction text with
  | nil => rfl
  | cons c text ih =>
    rw [List.map_cons, pieceOf]
    split
    · next control => rw [readPieces_control control.1, ih, Char.ofNat_toNat]; rfl
    · rw [readPieces, ih]; rfl

/-- A quoted text is one token. -/
theorem scan_quote (text : String) (rest : List Char) :
    scan (quote text ++ rest) = .string (lexemeOf text) :: scan rest := by
  have inside : scanInside (text.toList.flatMap escape ++ '"' :: rest) =
      ⟨text.toList.map pieceOf, none, rest⟩ := scanInside_escaped text.toList rest
  have read : Inside.lexeme ⟨text.toList.map pieceOf, none, rest⟩ = lexemeOf text := by
    simp [Inside.lexeme, readPieces_map, Except.map, lexemeOf]
  have opened : quote text ++ rest = '"' :: (text.toList.flatMap escape ++ '"' :: rest) := by
    simp [quote]
  rw [opened, scan_solid (by decide)]
  simp only [scanToken, inside, read]

end Questionnaire.WrittenScalars
