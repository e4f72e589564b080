import Mathlib.Algebra.Order.Field.Power
import Mathlib.Algebra.Ring.Parity
import Mathlib.Data.Rat.Cast.Order
import Mathlib.Data.Rat.Floor
import Mathlib.Tactic.FieldSimp
import Mathlib.Tactic.Linarith
import Mathlib.Tactic.NormNum
import Mathlib.Tactic.Positivity
import Mathlib.Tactic.Ring
import Questionnaire.Decimal.Binary64

/-! Rounding to a binary floating-point number of 64 bits, said of rational numbers: the result is a
magnitude, none is nearer, and of two that are equally near it is the one with an even mantissa. There
is at most one such magnitude, and the arithmetic with quotients finds it. -/
namespace Questionnaire.Rounding
open Decimal Binary64

/-- The value of one unit in the last place. -/
def unit (exponent : ℤ) : ℚ :=
  2 ^ exponent

private theorem unit_pos (q : ℤ) : 0 < unit q :=
  zpow_pos (by decide) q

private theorem unit_mul (p q : ℤ) : unit (p + q) = unit p * unit q :=
  zpow_add₀ (by decide) p q

private theorem unit_sub (p q : ℤ) : unit (p - q) = unit p / unit q :=
  zpow_sub₀ (by decide) p q

theorem unit_natCast (n : ℕ) : unit n = (2 ^ n : ℕ) := by
  rw [unit, zpow_natCast, Nat.cast_pow]
  rfl

private theorem unit_add (q : ℤ) (n : ℕ) : unit (q + n) = (2 ^ n : ℕ) * unit q := by
  rw [unit_mul, unit_natCast, mul_comm]

theorem unit_le_iff {p q : ℤ} : unit p ≤ unit q ↔ p ≤ q :=
  zpow_le_zpow_iff_right₀ (by decide)

/-- A finer unit is at most half as large. -/
theorem two_unit_le {p q : ℤ} (finer : p < q) : 2 * unit p ≤ unit q := by
  have next := unit_add p 1
  have le : unit (p + 1) ≤ unit q := unit_le_iff.mpr finer
  norm_num at next le
  linarith

/-- A magnitude: a mantissa of at most 53 bits times a power of two. -/
def IsMagnitude (r : ℚ) : Prop :=
  ∃ (m : ℕ) (q : ℤ), m < 2 ^ 53 ∧ minExponent ≤ q ∧ q ≤ maxExponent ∧ r = m * unit q

/-- A mantissa with the exponent that goes with it: it has all its bits unless the exponent is the
least one. -/
structure Canonical (m : ℕ) (q : ℤ) : Prop where
  short : m < 2 ^ 53
  least : minExponent ≤ q
  full : 2 ^ 52 ≤ m ∨ q = minExponent

/-- The mantissa of a magnitude is even. -/
def HasEvenMantissa (r : ℚ) : Prop :=
  ∃ (m : ℕ) (q : ℤ), Canonical m q ∧ q ≤ maxExponent ∧ Even m ∧ r = m * unit q

/-- A magnitude is what a number is rounded to: none is nearer, and if another one is as near, its
mantissa is even. Only finite magnitudes are looked at. -/
structure RoundsTo (x r : ℚ) : Prop where
  magnitude : IsMagnitude r
  nearest : ∀ s, IsMagnitude s → |r - x| ≤ |s - x|
  tie : ∀ s, IsMagnitude s → s ≠ r → |s - x| = |r - x| → HasEvenMantissa r

/-- With a smaller unit the bits are too few to reach a mantissa that has all of them. -/
theorem Canonical.finer_lt {m n : ℕ} {p q : ℤ} (canonical : Canonical m q) (short : n < 2 ^ 53)
    (least : minExponent ≤ p) (finer : p < q) : (n : ℚ) * unit p < m * unit q := by
  have full : 2 ^ 52 ≤ m := canonical.full.resolve_right (by omega)
  have shorter : (n : ℚ) < 2 ^ 53 := by exact_mod_cast short
  have fuller : (2 ^ 52 : ℚ) ≤ m := by exact_mod_cast full
  calc (n : ℚ) * unit p < 2 ^ 53 * unit p := mul_lt_mul_of_pos_right shorter (unit_pos p)
    _ = 2 ^ 52 * (2 * unit p) := by ring
    _ ≤ 2 ^ 52 * unit q := mul_le_mul_of_nonneg_left (two_unit_le finer) (by positivity)
    _ ≤ m * unit q := mul_le_mul_of_nonneg_right fuller (unit_pos q).le

/-- No magnitude is between a canonical mantissa and the next one. -/
theorem Canonical.beside {m : ℕ} {q : ℤ} {s : ℚ} (canonical : Canonical m q)
    (magnitude : IsMagnitude s) :
    s ≤ m * unit q ∨ (m + 1) * unit q ≤ s := by
  obtain ⟨n, p, short, least, -, rfl⟩ := magnitude
  by_cases finer : p < q
  · exact .inl (canonical.finer_lt short least finer).le
  · obtain ⟨d, rfl⟩ := Int.le.dest (Int.not_lt.mp finer)
    rw [unit_add, ← mul_assoc, ← Nat.cast_mul]
    rcases Nat.lt_or_ge m (n * 2 ^ d) with above | below
    · exact .inr (mul_le_mul_of_nonneg_right (by exact_mod_cast above) (unit_pos q).le)
    · exact .inl (mul_le_mul_of_nonneg_right (by exact_mod_cast below) (unit_pos q).le)

/-- Two neighbours do not both have an even mantissa. -/
theorem not_even_neighbours {m n : ℕ} {p q : ℤ} (first : Canonical m q) (second : Canonical n p)
    (firstEven : Even m) (secondEven : Even n) : (n : ℚ) * unit p ≠ (m + 1) * unit q := by
  by_cases finer : p < q
  · have below := first.finer_lt second.short second.least finer
    have next : (m : ℚ) * unit q < (m + 1) * unit q :=
      mul_lt_mul_of_pos_right (lt_add_one _) (unit_pos q)
    exact (below.trans next).ne
  · intro next
    obtain ⟨d, rfl⟩ := Int.le.dest (Int.not_lt.mp finer)
    rw [unit_add, ← mul_assoc, mul_left_inj' (unit_pos q).ne'] at next
    have mantissas : n * 2 ^ d = m + 1 := by exact_mod_cast next
    have evenSuccessor : Even (m + 1) := mantissas ▸ secondEven.mul_right _
    exact Nat.not_even_iff_odd.mpr firstEven.add_one evenSuccessor

section Crossing
variable {x r b : ℚ}

/-- Rounding does not go past a magnitude. -/
theorem RoundsTo.ge (rounds : RoundsTo x r) (magnitude : IsMagnitude b) (le : b ≤ x) : b ≤ r := by
  by_contra less
  have near := rounds.nearest b magnitude
  rw [abs_of_nonpos (by linarith), abs_of_nonpos (by linarith)] at near
  linarith

theorem RoundsTo.le (rounds : RoundsTo x r) (magnitude : IsMagnitude b) (le : x ≤ b) : r ≤ b := by
  by_contra more
  have near := rounds.nearest b magnitude
  rw [abs_of_nonneg (by linarith), abs_of_nonneg (by linarith)] at near
  linarith

end Crossing

/-- A magnitude is rounded to itself. -/
theorem IsMagnitude.rounds {r : ℚ} (magnitude : IsMagnitude r) : RoundsTo r r where
  magnitude := magnitude
  nearest s _ := by
    rw [sub_self, abs_zero]
    exact abs_nonneg _
  tie s _ different same := by
    rw [sub_self, abs_zero, abs_eq_zero, sub_eq_zero] at same
    exact absurd same different

/-- What a number is rounded to is not below another such magnitude: the number would be in the middle
between neighbours with even mantissas. -/
theorem RoundsTo.not_below {x r s : ℚ} (first : RoundsTo x r) (second : RoundsTo x s) : ¬ r < s := by
  intro less
  have same : |s - x| = |r - x| :=
    le_antisymm (second.nearest r first.magnitude) (first.nearest s second.magnitude)
  have middle : s - x = x - r := by
    rcases abs_eq_abs.mp same with equal | opposite
    · linarith
    · linarith
  obtain ⟨m, q, canonical, inRange, even, rfl⟩ := first.tie s second.magnitude less.ne' same
  obtain ⟨n, p, otherCanonical, -, otherEven, rfl⟩ := second.tie _ first.magnitude less.ne same.symm
  have next : IsMagnitude ((m + 1) * unit q) := by
    have short : m + 1 < 2 ^ 53 := by
      have bound := canonical.short
      obtain ⟨half, rfl⟩ := even
      omega
    exact ⟨m + 1, q, short, canonical.least, inRange, by push_cast; rfl⟩
  have step : (m : ℚ) * unit q < (m + 1) * unit q :=
    mul_lt_mul_of_pos_right (lt_add_one _) (unit_pos q)
  -- the next mantissa is a magnitude, too, so the second result cannot be behind it
  rcases canonical.beside second.magnitude with below | above
  · exact absurd less (not_lt.mpr below)
  · have nearer := first.nearest _ next
    rw [abs_of_neg (by linarith)] at nearer
    refine not_even_neighbours canonical otherCanonical even otherEven (le_antisymm ?_ above)
    rcases abs_cases ((m + 1) * unit q - x) with ⟨size, -⟩ | ⟨size, -⟩
    · linarith
    · linarith

theorem RoundsTo.unique {x r s : ℚ} (first : RoundsTo x r) (second : RoundsTo x s) : r = s :=
  le_antisymm (le_of_not_gt (second.not_below first)) (le_of_not_gt (first.not_below second))

/-- A number between two neighbours is rounded to the nearer one, and in the middle to the one with an
even mantissa. -/
theorem rounds_to_neighbour {m : ℕ} {q : ℤ} {x r : ℚ} (canonical : Canonical m q)
    (above : m * unit q ≤ x) (below : x ≤ (m + 1) * unit q)
    (neighbour : r = m * unit q ∨ r = (m + 1) * unit q) (magnitude : IsMagnitude r)
    (near : 2 * |r - x| ≤ unit q) (tie : 2 * |r - x| = unit q → HasEvenMantissa r) : RoundsTo x r := by
  -- any other magnitude is behind one of the two neighbours; it can be as near only from the side of the
  -- one that is not taken, and then the number is in the middle
  have others (s : ℚ) (other : IsMagnitude s) (different : s ≠ r) :
      |r - x| ≤ |s - x| ∧ (|s - x| = |r - x| → 2 * |r - x| = unit q) := by
    rcases neighbour with rfl | rfl
    · rw [abs_of_nonpos (by linarith)] at near ⊢
      rcases canonical.beside other with before | beyond
      · rw [abs_of_nonpos (by linarith)]
        exact ⟨by linarith, fun same => absurd (by linarith) different⟩
      · rw [abs_of_nonneg (by linarith)]
        exact ⟨by linarith, fun same => by linarith⟩
    · rw [abs_of_nonneg (by linarith)] at near ⊢
      rcases canonical.beside other with before | beyond
      · rw [abs_of_nonpos (by linarith)]
        exact ⟨by linarith, fun same => by linarith⟩
      · rw [abs_of_nonneg (by linarith)]
        exact ⟨by linarith, fun same => absurd (by linarith) different⟩
  refine ⟨magnitude, ?_, ?_⟩
  · intro s other
    by_cases same : s = r
    · rw [same]
    · exact (others s other same).1
  · intro s other different same
    exact tie ((others s other different).2 same)

/-- A quotient is rounded to one of the two integers around it, to the nearer one, and in the middle to
the even one. -/
theorem roundQuotient_spec (num : ℕ) {den : ℕ} (positive : 0 < den) :
    (roundQuotient num den = num / den ∨ roundQuotient num den = num / den + 1) ∧
      2 * |(roundQuotient num den : ℚ) - num / den| ≤ 1 ∧
      (2 * |(roundQuotient num den : ℚ) - num / den| = 1 → Even (roundQuotient num den)) := by
  have denPositive : (0 : ℚ) < den := by exact_mod_cast positive
  obtain ⟨part, partEq⟩ : ∃ part : ℚ, part = (num % den : ℕ) / den := ⟨_, rfl⟩
  have whole : (num : ℚ) / den = (num / den : ℕ) + part := by
    have split : (num : ℚ) = den * (num / den : ℕ) + (num % den : ℕ) := by
      exact_mod_cast (Nat.div_add_mod num den).symm
    rw [partEq, eq_comm, ← eq_sub_iff_add_eq', div_eq_iff denPositive.ne', sub_mul,
      div_mul_cancel₀ _ denPositive.ne']
    linarith
  have nonnegative : 0 ≤ part := partEq ▸ by positivity
  have less : part < 1 := by
    rw [partEq, div_lt_one denPositive]
    exact_mod_cast Nat.mod_lt num positive
  have down : |((num / den : ℕ) : ℚ) - num / den| = part := by
    rw [whole, sub_add_cancel_left, abs_neg, abs_of_nonneg nonnegative]
  have up : |((num / den + 1 : ℕ) : ℚ) - num / den| = 1 - part := by
    rw [whole, Nat.cast_add_one, add_sub_add_left_eq_sub, abs_of_pos (by linarith)]
  unfold roundQuotient
  by_cases before : 2 * (num % den) < den
  · have half : 2 * part < 1 := by
      rw [partEq, ← mul_div_assoc, div_lt_one denPositive]
      exact_mod_cast before
    rw [if_pos before, down]
    exact ⟨.inl rfl, half.le, fun middle => absurd middle half.ne⟩
  · by_cases behind : den < 2 * (num % den)
    · have half : 1 < 2 * part := by
        rw [partEq, ← mul_div_assoc, one_lt_div denPositive]
        exact_mod_cast behind
      rw [if_neg before, if_pos behind, up]
      exact ⟨.inr rfl, by linarith, fun middle => absurd middle (by linarith)⟩
    · have half : 2 * part = 1 := by
        rw [partEq, ← mul_div_assoc, div_eq_one_iff_eq denPositive.ne']
        exact_mod_cast (show 2 * (num % den) = den by omega)
      rw [if_neg before, if_neg behind]
      rcases Nat.mod_two_eq_zero_or_one (num / den) with even | odd
      · rw [even, Nat.add_zero, down]
        exact ⟨.inl rfl, half.le, fun _ => Nat.even_iff.mpr even⟩
      · rw [odd, up]
        exact ⟨.inr rfl, by linarith, fun _ => (Nat.odd_iff.mpr odd).add_one⟩

/-- The integer part of a quotient in units of a power of two. -/
def floorAt (num den : ℕ) (q : ℤ) : ℕ :=
  (overPower num den q).1 / (overPower num den q).2

private theorem twoTo_cast (n : ℕ) : (twoTo n : ℚ) = unit n :=
  (unit_natCast n).symm

private theorem overPower_pos (num : ℕ) {den : ℕ} (positive : 0 < den) (q : ℤ) :
    0 < (overPower num den q).2 := by
  unfold overPower
  split
  · exact positive
  · exact Nat.mul_pos positive (twoTo_pos _)

/-- Dividing a quotient by a power of two. -/
theorem overPower_ratio (num : ℕ) {den : ℕ} (positive : 0 < den) (q : ℤ) :
    ((overPower num den q).1 : ℚ) / (overPower num den q).2 * unit q = num / den := by
  have denPositive : (0 : ℚ) < den := by exact_mod_cast positive
  have scale := unit_pos q
  unfold overPower
  split
  · next negative =>
    have power : (q.natAbs : ℤ) = 0 - q := by omega
    have one : unit 0 = 1 := rfl
    rw [Nat.cast_mul, twoTo_cast, power, unit_sub, one]
    field_simp
  · next nonnegative =>
    have power : (q.natAbs : ℤ) = q := by omega
    rw [Nat.cast_mul, twoTo_cast, power]
    field_simp

private theorem floorAt_lt_iff (num : ℕ) {den : ℕ} (positive : 0 < den) (q : ℤ) (bound : ℕ) :
    floorAt num den q < bound ↔ (num : ℚ) / den < bound * unit q := by
  have scaledPositive := overPower_pos num positive q
  have scaled : (0 : ℚ) < (overPower num den q).2 := by exact_mod_cast scaledPositive
  rw [floorAt, Nat.div_lt_iff_lt_mul scaledPositive, ← overPower_ratio num positive q,
    mul_lt_mul_iff_left₀ (unit_pos q), div_lt_iff₀ scaled]
  exact_mod_cast Iff.rfl

private theorem log2_bounds {n : ℕ} (positive : 0 < n) :
    unit (Nat.log2 n) ≤ n ∧ (n : ℚ) < unit (Nat.log2 n + 1) := by
  constructor
  · rw [unit_natCast]
    exact_mod_cast Nat.log2_self_le positive.ne'
  · have next : unit (Nat.log2 n + 1) = (2 ^ (Nat.log2 n + 1) : ℕ) := unit_natCast (Nat.log2 n + 1)
    rw [next]
    exact_mod_cast Nat.lt_log2_self

/-- The power of two at which a quotient has a mantissa of full precision. -/
def fullExponent (num den : ℕ) : ℤ :=
  let estimate := (Nat.log2 num : ℤ) - Nat.log2 den - 52
  if floorAt num den estimate < 2 ^ 52 then estimate - 1 else estimate

private theorem exponentFor_eq (num den : ℕ) :
    exponentFor num den = max (fullExponent num den) minExponent := rfl

private theorem fullExponent_bounds {num den : ℕ} (numPositive : 0 < num) (denPositive : 0 < den) :
    2 ^ 52 * unit (fullExponent num den) ≤ (num : ℚ) / den ∧
      (num : ℚ) / den < 2 ^ 53 * unit (fullExponent num den) := by
  obtain ⟨numLower, numUpper⟩ := log2_bounds numPositive
  obtain ⟨denLower, denUpper⟩ := log2_bounds denPositive
  have den' : (0 : ℚ) < den := by exact_mod_cast denPositive
  obtain ⟨estimate, isEstimate⟩ :
      ∃ estimate : ℤ, estimate = (Nat.log2 num : ℤ) - Nat.log2 den - 52 := ⟨_, rfl⟩
  have upper : (num : ℚ) / den < 2 ^ 53 * unit estimate := by
    have exponent : (Nat.log2 num : ℤ) + 1 - Nat.log2 den = estimate + 53 := by omega
    calc (num : ℚ) / den < unit (Nat.log2 num + 1) / unit (Nat.log2 den) :=
          div_lt_div₀ numUpper denLower (unit_pos _).le (unit_pos _)
      _ = unit (estimate + 53) := by rw [← unit_sub, exponent]
      _ = 2 ^ 53 * unit estimate := by exact_mod_cast unit_add estimate 53
  have lower : 2 ^ 52 * unit (estimate - 1) ≤ (num : ℚ) / den := by
    have exponent : (Nat.log2 num : ℤ) - (Nat.log2 den + 1) = estimate - 1 + 52 := by omega
    calc 2 ^ 52 * unit (estimate - 1) = unit (estimate - 1 + 52) := by
          exact_mod_cast (unit_add (estimate - 1) 52).symm
      _ = unit (Nat.log2 num) / unit (Nat.log2 den + 1) := by rw [← unit_sub, exponent]
      _ ≤ (num : ℚ) / den := div_le_div₀ (by positivity) numLower den' denUpper.le
  have finer : 2 * unit (estimate - 1) = unit estimate := by
    have next := unit_add (estimate - 1) 1
    norm_num at next
    exact next.symm
  have atEstimate := floorAt_lt_iff num denPositive estimate (2 ^ 52)
  rw [fullExponent, ← isEstimate]
  split
  · next short =>
    refine ⟨lower, ?_⟩
    have less := atEstimate.mp short
    push_cast at less
    linarith
  · next full =>
    refine ⟨?_, upper⟩
    have reached := not_lt.mp (fun less => full (atEstimate.mpr less))
    push_cast at reached
    exact reached

private theorem exponentFor_canonical {num den : ℕ} (numPositive : 0 < num) (denPositive : 0 < den) :
    Canonical (floorAt num den (exponentFor num den)) (exponentFor num den) := by
  obtain ⟨lower, upper⟩ := fullExponent_bounds numPositive denPositive
  rw [exponentFor_eq]
  refine ⟨?_, le_max_right _ _, ?_⟩
  · rw [floorAt_lt_iff num denPositive]
    have coarser : unit (fullExponent num den) ≤ unit (max (fullExponent num den) minExponent) :=
      unit_le_iff.mpr (le_max_left _ _)
    push_cast
    linarith
  · rcases max_choice (fullExponent num den) minExponent with full | least
    · rw [full]
      refine .inl (not_lt.mp fun short => ?_)
      rw [floorAt_lt_iff num denPositive] at short
      push_cast at short
      linarith
    · exact .inr least

/-- What a computed magnitude says of the exact number: a finite one is what the number is rounded to,
and an infinite one says that the number is large. -/
def Approximates : Binary64 → ℚ → Prop
  | finite m q, x => RoundsTo x (m * unit q)
  | infinite, x => unit 1023 ≤ x

private theorem Canonical.large {m : ℕ} {q : ℤ} {x : ℚ} (canonical : Canonical m q)
    (above : m * unit q ≤ x)
    (high : maxExponent ≤ q) : unit 1023 ≤ x := by
  have full : 2 ^ 52 ≤ m := canonical.full.resolve_right (by
    rintro rfl
    exact absurd high (by decide))
  have mantissa : (2 ^ 52 : ℚ) ≤ m := by exact_mod_cast full
  calc unit 1023 = 2 ^ 52 * unit maxExponent := by
        exact_mod_cast unit_add maxExponent 52
    _ ≤ 2 ^ 52 * unit q := mul_le_mul_of_nonneg_left (unit_le_iff.mpr high) (by positivity)
    _ ≤ m * unit q := mul_le_mul_of_nonneg_right mantissa (unit_pos q).le
    _ ≤ x := above

/-- Putting a rounded mantissa in order again if it has grown by one bit. -/
theorem normalized_approximates {m k : ℕ} {q : ℤ} {x : ℚ} (canonical : Canonical m q)
    (above : m * unit q ≤ x) (below : x ≤ (m + 1) * unit q) (neighbour : k = m ∨ k = m + 1)
    (near : 2 * |k * unit q - x| ≤ unit q) (tie : 2 * |k * unit q - x| = unit q → Even k) :
    Approximates (normalized k q) x := by
  have neighbours : (k : ℚ) * unit q = m * unit q ∨ (k : ℚ) * unit q = (m + 1) * unit q := by
    rcases neighbour with rfl | rfl
    · exact .inl rfl
    · exact .inr (by push_cast; rfl)
  have bound := canonical.short
  have power : twoTo precision = 2 ^ 53 := rfl
  unfold normalized
  by_cases grown : k = twoTo precision
  · rw [if_pos grown]
    by_cases high : maxExponent < q + 1
    · simp only [if_pos high, Approximates]
      exact canonical.large above (by omega)
    · have next : Canonical (twoTo (precision - 1)) (q + 1) :=
        ⟨by decide, by have := canonical.least; omega, .inl (by decide)⟩
      have same : ((twoTo (precision - 1) : ℕ) : ℚ) * unit (q + 1) = k * unit q := by
        have step : unit (q + 1) = 2 * unit q := by exact_mod_cast unit_add q 1
        have twice : twoTo precision = twoTo (precision - 1) * 2 := rfl
        rw [grown, step, twice, Nat.cast_mul, mul_assoc]
        rfl
      simp only [if_neg high, Approximates]
      rw [same]
      refine rounds_to_neighbour canonical above below neighbours ?_ near fun _ => ?_
      · exact ⟨_, _, next.short, next.least, by omega, same.symm⟩
      · exact ⟨_, _, next, by omega, by decide, same.symm⟩
  · rw [if_neg grown]
    by_cases high : maxExponent < q
    · simp only [if_pos high, Approximates]
      exact canonical.large above high.le
    · have short : k < 2 ^ 53 := by omega
      simp only [if_neg high, Approximates]
      refine rounds_to_neighbour canonical above below neighbours ?_ near fun middle => ?_
      · exact ⟨k, q, short, canonical.least, by omega, rfl⟩
      · have full : 2 ^ 52 ≤ k ∨ q = minExponent := by
          rcases canonical.full with full | least
          · exact .inl (by omega)
          · exact .inr least
        exact ⟨k, q, ⟨short, canonical.least, full⟩, by omega, tie middle, rfl⟩

theorem zero_isMagnitude : IsMagnitude 0 :=
  ⟨0, minExponent, by decide, le_rfl, by decide, by simp⟩

/-- A number of at most half the least unit is rounded to zero. -/
theorem tiny_approximates {x : ℚ} (nonnegative : 0 ≤ x) (tiny : 2 * x ≤ unit minExponent) :
    Approximates zero x := by
  have canonical : Canonical 0 minExponent := ⟨by decide, le_rfl, .inr rfl⟩
  have value : ((0 : ℕ) : ℚ) * unit minExponent = 0 := by simp
  have distance : |0 - x| = x := by rw [zero_sub, abs_neg, abs_of_nonneg nonnegative]
  rw [zero, Approximates, value]
  refine rounds_to_neighbour canonical (by linarith) (by linarith) (.inl value.symm) zero_isMagnitude ?_
    fun _ => ⟨0, minExponent, canonical, by decide, Even.zero, value.symm⟩
  rw [distance]
  exact tiny

/-- The nearest magnitude to a quotient is what it is rounded to. -/
theorem nearest_approximates (num : ℕ) {den : ℕ} (positive : 0 < den) :
    Approximates (nearest num den) (num / den) := by
  by_cases none : num = 0
  · rw [nearest, if_pos none, none, Nat.cast_zero, zero_div]
    exact tiny_approximates le_rfl (by simpa using (unit_pos minExponent).le)
  · obtain ⟨q, isExponent⟩ : ∃ q, q = exponentFor num den := ⟨_, rfl⟩
    have canonical := exponentFor_canonical (Nat.pos_of_ne_zero none) positive
    have above := not_lt.mp fun less => lt_irrefl _ ((floorAt_lt_iff num positive q _).mpr less)
    have below := (floorAt_lt_iff num positive q _).mp (Nat.lt_succ_self _)
    have ratio := overPower_ratio num positive q
    obtain ⟨neighbour, near, tie⟩ :=
      roundQuotient_spec (overPower num den q).1 (overPower_pos num positive q)
    obtain ⟨k, isRounded⟩ : ∃ k, k = roundQuotient (overPower num den q).1 (overPower num den q).2 :=
      ⟨_, rfl⟩
    rw [← isRounded] at neighbour near tie
    -- the distances of the rounded quotient, in units of the last place
    have distance : |(k : ℚ) * unit q - num / den| =
        |(k : ℚ) - (overPower num den q).1 / (overPower num den q).2| * unit q := by
      rw [← ratio, ← sub_mul, abs_mul, abs_of_pos (unit_pos q)]
    rw [← isExponent] at canonical
    have normal : nearest num den = normalized k q := by
      rw [nearest, if_neg none, isRounded, isExponent]
    rw [normal]
    refine normalized_approximates canonical above (by exact_mod_cast below.le) neighbour ?_ ?_
    · rw [distance, ← mul_assoc]
      exact mul_le_of_le_one_left (unit_pos q).le near
    · intro middle
      rw [distance, ← mul_assoc, mul_eq_right₀ (unit_pos q).ne'] at middle
      exact tie middle

private theorem digit_bounds {n : ℕ} (positive : 0 < n) :
    (10 : ℚ) ^ ((Nat.toDigits 10 n).length - 1 : ℤ) ≤ n ∧
      (n : ℚ) < 10 ^ ((Nat.toDigits 10 n).length : ℤ) := by
  obtain ⟨length, isLength⟩ : ∃ length, (Nat.toDigits 10 n).length = length + 1 :=
    Nat.exists_eq_succ_of_ne_zero Nat.length_toDigits_pos.ne'
  have fits (k : ℕ) (some : 0 < k) := @Nat.length_toDigits_le_iff 10 n k (by decide) some
  rw [isLength, Nat.cast_succ, add_sub_cancel_right, zpow_natCast]
  constructor
  · cases length with
    | zero =>
      rw [pow_zero]
      exact_mod_cast positive
    | succ length =>
      refine not_lt.mp fun short => ?_
      have shorter := (fits (length + 1) (Nat.succ_pos _)).mpr (by exact_mod_cast short)
      omega
  · have upper := (fits (length + 1) (Nat.succ_pos _)).mp isLength.le
    exact_mod_cast upper

private theorem tenTo_cast (n : ℕ) : ((tenTo n : ℕ) : ℚ) = 10 ^ (n : ℤ) := by
  rw [zpow_natCast]
  exact_mod_cast rfl

/-- Thirty-three bits are less than ten digits. -/
theorem bits_le_digits (n : ℕ) : unit (33 * n) ≤ (10 : ℚ) ^ (10 * n : ℤ) := by
  have thirtyThree : (2 : ℚ) ^ (33 : ℤ) ≤ 10 ^ (10 : ℤ) := by norm_num
  rw [unit, zpow_mul, zpow_mul, zpow_natCast, zpow_natCast]
  exact pow_le_pow_left₀ (by positivity) thirtyThree n

/-- A decimal number is rounded to what is found, and where its number of digits alone decides, this
agrees with its value. -/
theorem ofScaled_approximates (coefficient : ℕ) (scale : ℤ) :
    Approximates (ofScaled coefficient scale) (coefficient * 10 ^ scale) := by
  have nonnegative : (0 : ℚ) ≤ coefficient * 10 ^ scale := by positivity
  have powerPositive : (0 : ℚ) < 10 ^ scale := by positivity
  obtain ⟨order, isOrder⟩ :
      ∃ order : ℤ, order = ((Nat.toDigits 10 coefficient).length : ℤ) + scale := ⟨_, rfl⟩
  rw [ofScaled, ← isOrder]
  by_cases none : coefficient = 0
  · simp only [if_pos (Or.inl none : coefficient = 0 ∨ order < -330)]
    refine tiny_approximates nonnegative ?_
    simpa [none] using (unit_pos minExponent).le
  obtain ⟨lower, upper⟩ := digit_bounds (Nat.pos_of_ne_zero none)
  by_cases tiny : order < -330
  · simp only [if_pos (Or.inr tiny : coefficient = 0 ∨ order < -330)]
    refine tiny_approximates nonnegative ?_
    have below : (coefficient : ℚ) * 10 ^ scale ≤ 10 ^ (-331 : ℤ) := by
      calc (coefficient : ℚ) * 10 ^ scale
          ≤ 10 ^ ((Nat.toDigits 10 coefficient).length : ℤ) * 10 ^ scale :=
            mul_le_mul_of_nonneg_right upper.le powerPositive.le
        _ = 10 ^ order := by rw [isOrder, zpow_add₀ (by decide)]
        _ ≤ 10 ^ (-331 : ℤ) := zpow_le_zpow_right₀ (by decide) (by omega)
    have least : (10 : ℚ) ^ (-331 : ℤ) ≤ unit (minExponent - 1) := by
      have positive : (0 : ℚ) < 10 ^ (331 : ℤ) := by positivity
      have bits : unit 1075 ≤ (10 : ℚ) ^ (331 : ℤ) := by
        calc unit 1075 ≤ unit (33 * 33) := unit_le_iff.mpr (by decide)
          _ ≤ (10 : ℚ) ^ (10 * 33 : ℤ) := bits_le_digits 33
          _ ≤ (10 : ℚ) ^ (331 : ℤ) := zpow_le_zpow_right₀ (by decide) (by decide)
      have inverse : unit (minExponent - 1) = (unit 1075)⁻¹ := zpow_neg 2 1075
      rw [inverse, zpow_neg]
      exact inv_anti₀ (unit_pos 1075) bits
    have half : 2 * unit (minExponent - 1) = unit minExponent := by
      exact_mod_cast (unit_add (minExponent - 1) 1).symm
    linarith
  · rw [if_neg (by simp [none, tiny])]
    by_cases large : 310 < order
    · rw [if_pos large, Approximates]
      calc unit 1023 ≤ (10 : ℚ) ^ (310 : ℤ) := bits_le_digits 31
        _ ≤ 10 ^ (((Nat.toDigits 10 coefficient).length : ℤ) - 1 + scale) :=
          zpow_le_zpow_right₀ (by decide) (by omega)
        _ = 10 ^ (((Nat.toDigits 10 coefficient).length : ℤ) - 1) * 10 ^ scale :=
          zpow_add₀ (by decide) _ _
        _ ≤ coefficient * 10 ^ scale := mul_le_mul_of_nonneg_right lower powerPositive.le
    · rw [if_neg large]
      split
      · next negative =>
        have power : (scale.natAbs : ℤ) = -scale := by omega
        have value : (coefficient : ℚ) * 10 ^ scale = coefficient / (tenTo scale.natAbs : ℕ) := by
          rw [tenTo_cast, power, zpow_neg, div_inv_eq_mul]
        rw [value]
        exact nearest_approximates coefficient (tenTo_pos _)
      · next nonneg =>
        have power : (scale.natAbs : ℤ) = scale := by omega
        have value : (coefficient : ℚ) * 10 ^ scale =
            (coefficient * tenTo scale.natAbs : ℕ) / (1 : ℕ) := by
          rw [Nat.cast_mul, tenTo_cast, power, Nat.cast_one, div_one]
        rw [value]
        exact nearest_approximates _ Nat.one_pos

/-- Up to as many bits as a mantissa has every natural number is a magnitude. -/
theorem natural_isMagnitude {n : ℕ} (short : n ≤ 2 ^ 53) : IsMagnitude n := by
  by_cases whole : n = 2 ^ 53
  · refine ⟨1, 53, by decide, by decide, by decide, ?_⟩
    have power : unit 53 = (2 ^ 53 : ℕ) := unit_natCast 53
    rw [power, whole, Nat.cast_one, one_mul]
  · have one : unit 0 = 1 := rfl
    exact ⟨n, 0, by omega, by decide, by decide, by rw [one, mul_one]⟩

theorem power_isMagnitude {n : ℕ} (bounded : n ≤ 971) : IsMagnitude (2 ^ n : ℕ) := by
  refine ⟨1, n, by decide, ?_, ?_, by rw [unit_natCast, Nat.cast_one, one_mul]⟩
  · exact le_trans (by decide) (Int.natCast_nonneg n)
  · have greatest : maxExponent = (971 : ℕ) := rfl
    rw [greatest]
    exact_mod_cast bounded

/-- Magnitudes with places behind the point are so small that the integers on both sides are magnitudes,
too: a natural number is not rounded past them. -/
theorem RoundsTo.natural {n : ℕ} {r : ℚ} (rounds : RoundsTo n r) : ∃ k : ℕ, r = k := by
  obtain ⟨m, q, short, -, -, value⟩ := rounds.magnitude
  by_cases fractional : q < 0
  · have nonnegative : 0 ≤ r := value ▸ mul_nonneg (Nat.cast_nonneg m) (unit_pos q).le
    have bounded : r < 2 ^ 53 := by
      have mantissa : (m : ℚ) < 2 ^ 53 := by exact_mod_cast short
      have one : unit 0 = 1 := rfl
      have unitLess : unit q ≤ 1 := one ▸ unit_le_iff.mpr fractional.le
      have within : (m : ℚ) * unit q ≤ m := mul_le_of_le_one_right (Nat.cast_nonneg m) unitLess
      linarith
    have lower := Nat.floor_le nonnegative
    have floorShort : ⌊r⌋₊ < 2 ^ 53 := (Nat.floor_lt nonnegative).mpr (by exact_mod_cast bounded)
    refine ⟨⌊r⌋₊, le_antisymm ?_ lower⟩
    rcases Nat.lt_or_ge ⌊r⌋₊ n with above | below
    · have next : ((⌊r⌋₊ + 1 : ℕ) : ℚ) ≤ r :=
        rounds.ge (natural_isMagnitude floorShort) (by exact_mod_cast above)
      have less := Nat.lt_floor_add_one r
      push_cast at next
      linarith
    · exact rounds.le (natural_isMagnitude floorShort.le) (by exact_mod_cast below)
  · obtain ⟨d, rfl⟩ := Int.eq_ofNat_of_zero_le (Int.not_lt.mp fractional)
    exact ⟨m * 2 ^ d, by rw [value, unit_natCast, Nat.cast_mul]⟩

private theorem toNat?_finite_iff {m n : ℕ} {q : ℤ} :
    (finite m q).toNat? = some n ↔ (n : ℚ) = m * unit q := by
  obtain ⟨num, den, isPair⟩ : ∃ num den, (num, den) = overPower m 1 (-q) := ⟨_, _, rfl⟩
  have positive : 0 < den := by
    have scaled := overPower_pos m Nat.one_pos (-q)
    rwa [← isPair] at scaled
  have denPositive : (0 : ℚ) < den := by exact_mod_cast positive
  have value : (m : ℚ) * unit q = num / den := by
    have ratio := overPower_ratio m Nat.one_pos (-q)
    have one : unit (-q) * unit q = 1 := by
      rw [← unit_mul, neg_add_cancel]
      rfl
    rw [← isPair, Nat.cast_one, div_one] at ratio
    rw [← ratio, mul_assoc, one, mul_one]
  have whole : (n : ℚ) = num / den ↔ num = n * den := by
    rw [eq_div_iff denPositive.ne', eq_comm]
    exact_mod_cast Iff.rfl
  rw [value, whole, toNat?, quotient, ← isPair]
  simp only [Option.ite_none_right_eq_some, Option.some.injEq]
  constructor
  · rintro ⟨divides, rfl⟩
    exact (Nat.div_mul_cancel (Nat.dvd_of_mod_eq_zero divides)).symm
  · rintro rfl
    exact ⟨Nat.mul_mod_left n den, Nat.mul_div_cancel n positive⟩

/-- A computed magnitude is a natural number in the range of integers exactly if the exact number is
rounded to this natural number. -/
theorem Approximates.toNat?_iff {b : Binary64} {x : ℚ} (approximates : Approximates b x) {n : ℕ}
    (bounded : n < 2 ^ 64) : b.toNat? = some n ↔ RoundsTo x n := by
  cases b with
  | finite m q =>
    rw [toNat?_finite_iff]
    refine ⟨fun same => same ▸ approximates, fun rounds => rounds.unique approximates⟩
  | infinite =>
    refine iff_of_false (by simp [toNat?]) fun rounds => ?_
    have past : ((2 ^ 64 : ℕ) : ℚ) ≤ x := by
      rw [← unit_natCast]
      exact le_trans (unit_le_iff.mpr (by decide)) approximates
    have large : 2 ^ 64 ≤ n := by exact_mod_cast rounds.ge (power_isMagnitude (by decide)) past
    exact absurd bounded (Nat.not_lt.mpr large)

end Questionnaire.Rounding
