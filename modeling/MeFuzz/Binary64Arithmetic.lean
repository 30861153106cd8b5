import MeFuzz.Binary64

namespace MeFuzz.Binary64

open Float.Model
open Float.Model.UnpackedFloat

/-!
# Arithmetic in double precision

Sums, products and quotients of nonnegative doubles are right up to their last
place, comparisons are exact, and so are whole numbers of up to 53 bits.
-/

variable {mantissa : Nat}
variable {exponent : Int}

theorem log2_mul_two_pow
    (positive : 0 < mantissa)
    (amount : Nat) :
    (mantissa * 2 ^ amount).log2 = mantissa.log2 + amount := by
  rw [Nat.log2_eq_iff (by positivity), pow_add]
  constructor
  · exact Nat.mul_le_mul_right _ (Nat.log2_self_le positive.ne')
  · rw [Nat.add_right_comm, pow_add]
    exact Nat.mul_lt_mul_of_pos_right Nat.lt_log2_self (by positivity)

/-- The mantissa of a number that has been spread out to its target. -/
def spread
    (mantissa : Nat)
    (exponent : Int) : Nat :=
  mantissa * 2 ^ (exponent - target mantissa exponent).toNat

/-- The exponent of a number that has been spread out to its target. -/
def spreadExponent
    (mantissa : Nat)
    (exponent : Int) : Int :=
  exponent - (exponent - target mantissa exponent).toNat

theorem round_eq (mantissa : Nat) (exponent : Int) :
    round .binary64 .positive mantissa exponent =
      roundWithAccuracy .binary64 .positive (spread mantissa exponent)
        (spreadExponent mantissa exponent) .exact := by
  unfold spread
  rw [← Nat.shiftLeft_eq]
  rfl

theorem spread_value (mantissa : Nat) (exponent : Int) :
    (spread mantissa exponent : ℚ) * 2 ^ spreadExponent mantissa exponent =
      mantissa * 2 ^ exponent := by
  unfold spread spreadExponent
  push_cast
  rw [zpow_sub₀ two_ne_zero, zpow_natCast]
  field_simp

theorem target_spread
    (positive : 0 < mantissa) :
    target (spread mantissa exponent) (spreadExponent mantissa exponent) =
      target mantissa exponent := by
  have log :
      (spread mantissa exponent).log2 =
        mantissa.log2 + (exponent - target mantissa exponent).toNat :=
    log2_mul_two_pow positive _
  rw [target_eq, target_eq, log, spreadExponent]
  omega

theorem spread_enough
    (positive : 0 < mantissa) :
    2 ^ 52 ≤ spread mantissa exponent ∨
      spreadExponent mantissa exponent ≤ -1074 := by
  have isTarget := target_eq mantissa exponent
  by_cases isLow : spreadExponent mantissa exponent ≤ -1074
  · exact .inr isLow
  left
  unfold spreadExponent at isLow
  have log : 52 ≤ mantissa.log2 + (exponent - target mantissa exponent).toNat := by
    omega
  unfold spread
  refine (Nat.pow_le_pow_right two_pos log).trans ?_
  rw [pow_add]
  exact Nat.mul_le_mul_right _ (Nat.log2_self_le positive.ne')

theorem holds_round
    (positive : 0 < mantissa)
    (least : -1074 ≤ exponent)
    (fits : (mantissa : ℚ) * 2 ^ exponent < 2 ^ 1023) :
    ∃ value,
      Holds
          (Float.Model.pack (round .binary64 .positive mantissa exponent)).unpack
          value ∧
        |value - mantissa * 2 ^ exponent| ≤ mantissa * 2 ^ exponent / 2 ^ 52 ∧
        (target mantissa exponent ≤ exponent →
          value = mantissa * 2 ^ exponent) := by
  have enough := @spread_enough mantissa exponent positive
  have sameValue := spread_value mantissa exponent
  have covers := covers_exact (spread mantissa exponent)
  have exact :
      target mantissa exponent ≤ exponent →
        (roundedTo (spread mantissa exponent) (spreadExponent mantissa exponent)
              .exact : ℚ) *
            2 ^ target (spread mantissa exponent)
              (spreadExponent mantissa exponent) =
          mantissa * 2 ^ exponent := by
    intro notAbove
    have noShift :
        shift (spread mantissa exponent) (spreadExponent mantissa exponent) =
          0 := by
      unfold shift
      rw [target_spread positive, spreadExponent]
      omega
    have sameMantissa :
        roundedTo (spread mantissa exponent) (spreadExponent mantissa exponent)
            .exact =
          spread mantissa exponent := by
      rw [roundedTo, noShift]
      rfl
    have sameExponent := add_shift enough
    rw [noShift, Nat.cast_zero, add_zero] at sameExponent
    rw [sameMantissa, ← sameExponent, sameValue]
  refine ⟨_, ?_, ?_, exact⟩
  · rw [round_eq]
    refine holds_roundWithAccuracy enough ?_
    exact target_le enough covers.least (sameValue ▸ fits)
  · by_cases notAbove : target mantissa exponent ≤ exponent
    · rw [exact notAbove, sub_self, abs_zero]
      positivity
    · have error := error_roundedTo enough covers
      rw [sameValue] at error
      refine error.trans ?_
      rcases place_le enough covers.least with small | isLeast
      · rwa [sameValue] at small
      · rw [target_spread positive] at isLeast
        omega

theorem Holds.canonical
    {float : Float.Model}
    {value : ℚ}
    (holds : Holds float.unpack value) :
    (∃ sign, float.unpack = .zero sign ∧ value = 0) ∨
      ∃ mantissa exponent,
        ∃ positive : 0 < mantissa,
          float.unpack = .finite .positive mantissa exponent positive ∧
            value = mantissa * 2 ^ exponent ∧ Canonical mantissa exponent := by
  generalize isFloat : float.unpack = unpacked at holds
  cases holds with
  | zero sign =>
      exact .inl ⟨sign, rfl, rfl⟩
  | finite mantissa exponent positive =>
      exact .inr
        ⟨mantissa, exponent, positive, rfl, rfl, canonical_of_unpack isFloat⟩

theorem decreaseExponent_value
    {common : Int}
    (notAbove : common ≤ exponent) :
    ((decreaseExponent mantissa exponent common).1 : ℚ) * 2 ^ common =
      mantissa * 2 ^ exponent := by
  have split : exponent = ((exponent - common).toNat : Int) + common := by omega
  change ((mantissa <<< (exponent - common).toNat : Nat) : ℚ) * _ = _
  rw [Nat.shiftLeft_eq]
  conv_rhs => rw [split]
  rw [zpow_add₀ two_ne_zero, zpow_natCast]
  push_cast
  ring

theorem decreaseExponent_positive
    {common : Int}
    (positive : 0 < mantissa) :
    0 < (decreaseExponent mantissa exponent common).1 := by
  change 0 < mantissa <<< _
  rw [Nat.shiftLeft_eq]
  positivity

theorem add_finite
    {first second : Nat}
    {firstExponent secondExponent : Int}
    (firstPositive : 0 < first)
    (secondPositive : 0 < second) :
    UnpackedFloat.add .binary64
        (.finite .positive first firstExponent firstPositive)
        (.finite .positive second secondExponent secondPositive) =
      round .binary64 .positive
        ((decreaseExponent first firstExponent
              (min firstExponent secondExponent)).1 +
          (decreaseExponent second secondExponent
              (min firstExponent secondExponent)).1)
        (min firstExponent secondExponent) := by
  have positive :
      (0 : Int) <
        ((decreaseExponent first firstExponent
              (min firstExponent secondExponent)).1 : Int) +
          (decreaseExponent second secondExponent
              (min firstExponent secondExponent)).1 := by
    have := @decreaseExponent_positive first firstExponent
      (min firstExponent secondExponent) firstPositive
    omega
  unfold UnpackedFloat.add
  change
    UnpackedFloat.normalize _
        ((decreaseExponent _ _ _).1 + (decreaseExponent _ _ _).1) _ _ =
      _
  unfold UnpackedFloat.normalize
  rw [Int.compare_eq_gt.mpr positive]
  rfl

theorem HasValue.add
    {first second : Float}
    {firstValue secondValue : ℚ}
    (hasFirst : HasValue first firstValue)
    (hasSecond : HasValue second secondValue)
    (fits : firstValue + secondValue < 2 ^ 1023) :
    ∃ value,
      HasValue (first + second) value ∧
        |value - (firstValue + secondValue)| ≤
          (firstValue + secondValue) / 2 ^ 52 := by
  change
    ∃ value,
      Holds
          (Float.Model.pack
            (UnpackedFloat.add .binary64 first.toModel.unpack
              second.toModel.unpack)).unpack
          value ∧
        _
  rcases hasFirst.canonical with
    ⟨firstSign, isFirst, rfl⟩ |
      ⟨first, firstExponent, firstPositive, isFirst, rfl, firstCanonical⟩
  · rcases hasSecond.canonical with
      ⟨secondSign, isSecond, rfl⟩ |
        ⟨second, secondExponent, secondPositive, isSecond, rfl, canonical⟩
    · refine ⟨0, ?_, by simp⟩
      rw [isFirst, isSecond]
      cases firstSign <;> cases secondSign <;> exact holds_zero _
    · refine ⟨second * 2 ^ secondExponent, ?_, ?_⟩
      · rw [isFirst, isSecond]
        exact holds_finite canonical secondPositive
      · rw [zero_add, sub_self, abs_zero]
        positivity
  · rcases hasSecond.canonical with
      ⟨secondSign, isSecond, rfl⟩ |
        ⟨second, secondExponent, secondPositive, isSecond, rfl, canonical⟩
    · refine ⟨first * 2 ^ firstExponent, ?_, ?_⟩
      · rw [isFirst, isSecond]
        exact holds_finite firstCanonical firstPositive
      · rw [add_zero, sub_self, abs_zero]
        positivity
    · rw [isFirst, isSecond, add_finite]
      have least : -1074 ≤ min firstExponent secondExponent :=
        le_min firstCanonical.least canonical.least
      have sum :
          ((decreaseExponent first firstExponent
                    (min firstExponent secondExponent)).1 +
                (decreaseExponent second secondExponent
                    (min firstExponent secondExponent)).1 :
              Nat) *
              (2 : ℚ) ^ min firstExponent secondExponent =
            first * 2 ^ firstExponent + second * 2 ^ secondExponent := by
        rw [Nat.cast_add, add_mul,
          decreaseExponent_value (min_le_left _ _),
          decreaseExponent_value (min_le_right _ _)]
      obtain ⟨value, holds, error, _⟩ :=
        holds_round
          (Nat.add_pos_left (decreaseExponent_positive firstPositive) _) least
          (sum ▸ fits)
      exact ⟨value, holds, sum ▸ error⟩

theorem HasValue.mul
    {first second : Float}
    {firstValue secondValue : ℚ}
    (hasFirst : HasValue first firstValue)
    (hasSecond : HasValue second secondValue)
    (fits : firstValue * secondValue < 2 ^ 1023) :
    ∃ value,
      HasValue (first * second) value ∧
        |value - firstValue * secondValue| ≤
          max (firstValue * secondValue / 2 ^ 52) (2 ^ (-1074 : Int)) := by
  change
    ∃ value,
      Holds
          (Float.Model.pack
            (UnpackedFloat.mul .binary64 first.toModel.unpack
              second.toModel.unpack)).unpack
          value ∧
        _
  rcases hasFirst.canonical with
    ⟨firstSign, isFirst, rfl⟩ |
      ⟨first, firstExponent, firstPositive, isFirst, rfl, firstCanonical⟩
  · refine ⟨0, ?_, by simp⟩
    rcases hasSecond.canonical with
      ⟨secondSign, isSecond, rfl⟩ | ⟨_, _, _, isSecond, rfl, _⟩
    · rw [isFirst, isSecond]
      exact holds_zero _
    · rw [isFirst, isSecond]
      exact holds_zero _
  · rcases hasSecond.canonical with
      ⟨secondSign, isSecond, rfl⟩ |
        ⟨second, secondExponent, secondPositive, isSecond, rfl, canonical⟩
    · refine ⟨0, ?_, by simp⟩
      rw [isFirst, isSecond]
      exact holds_zero _
    · rw [isFirst, isSecond]
      have product :
          ((first * second : Nat) : ℚ) *
              2 ^ (firstExponent + secondExponent) =
            first * 2 ^ firstExponent * (second * 2 ^ secondExponent) := by
        rw [zpow_add₀ two_ne_zero]
        push_cast
        ring
      have enough :
          2 ^ 52 ≤ first * second ∨ firstExponent + secondExponent ≤ -1074 := by
        rcases firstCanonical.full with full | isLeast
        · exact .inl (full.trans (Nat.le_mul_of_pos_right _ secondPositive))
        · rcases canonical.full with full | isLeastToo
          · exact .inl (full.trans (Nat.le_mul_of_pos_left _ firstPositive))
          · exact .inr (by omega)
      obtain ⟨value, holds, error⟩ :=
        exists_holds_roundWithAccuracy enough (covers_exact (first * second))
          (product ▸ fits)
      exact ⟨value, holds, product ▸ error⟩

theorem covers_quotient
    {dividend divisor : Nat}
    (positive : 0 < divisor) :
    Covers
      (ExtendedMantissa.ofMantissaAndAccuracy (dividend / divisor)
        (accuracyOfFraction (dividend % divisor) divisor))
      (dividend / divisor) where
  least := by
    rw [mantissa_ofMantissaAndAccuracy]
    exact Nat.cast_div_le
  below := by
    rw [mantissa_ofMantissaAndAccuracy,
      div_lt_iff₀ (by exact_mod_cast positive), mul_comm]
    exact_mod_cast Nat.lt_mul_div_succ dividend positive
  exact := by
    intro noRound noSticky
    rw [mantissa_ofMantissaAndAccuracy]
    have noRemainder : dividend % divisor = 0 := by
      by_contra remainder
      rw [accuracyOfFraction, if_neg remainder] at noRound noSticky
      generalize compare (2 * (dividend % divisor)) divisor = ordering
        at noRound noSticky
      cases ordering with
      | lt =>
          cases noSticky
      | eq =>
          cases noRound
      | gt =>
          cases noRound
    exact (Nat.cast_div (Nat.dvd_of_mod_eq_zero noRemainder)
      (by exact_mod_cast positive.ne')).symm

/-- The exponent that a quotient is computed at. -/
def quotientExponent
    (first : Nat)
    (firstExponent : Int)
    (second : Nat)
    (secondExponent : Int) : Int :=
  min (firstExponent - secondExponent)
    (max (first.log2 + firstExponent - (second.log2 + secondExponent) - 53)
      (-1074))

/-- The dividend at the exponent that a quotient is computed at. -/
def dividend
    (first : Nat)
    (firstExponent : Int)
    (second : Nat)
    (secondExponent : Int) : Nat :=
  first *
    2 ^ (firstExponent - secondExponent -
          quotientExponent first firstExponent second secondExponent).toNat

section

variable {first second : Nat}
variable {firstExponent secondExponent : Int}

theorem div_finite
    (firstPositive : 0 < first)
    (secondPositive : 0 < second) :
    UnpackedFloat.div .binary64
        (.finite .positive first firstExponent firstPositive)
        (.finite .positive second secondExponent secondPositive) =
      roundWithAccuracy .binary64 .positive
        (dividend first firstExponent second secondExponent / second)
        (quotientExponent first firstExponent second secondExponent)
        (accuracyOfFraction
          (dividend first firstExponent second secondExponent % second)
          second) := by
  have sameExponent :
      min (firstExponent - secondExponent)
          (Format.binary64.targetExponent
            (totalExponent first firstExponent -
              totalExponent second secondExponent)) =
        quotientExponent first firstExponent second secondExponent := by
    change
      min _
          (max
            ((first.log2 : Int) + 1 + firstExponent -
                ((second.log2 : Int) + 1 + secondExponent) -
              53)
            (-1074)) =
        _
    unfold quotientExponent
    congr 2
    ring
  unfold UnpackedFloat.div divCore
  dsimp only
  rw [sameExponent, Nat.shiftLeft_eq]
  rfl

theorem dividend_value
    (secondPositive : 0 < second) :
    (dividend first firstExponent second secondExponent / second : ℚ) *
        2 ^ quotientExponent first firstExponent second secondExponent =
      first * 2 ^ firstExponent / (second * 2 ^ secondExponent) := by
  have notAbove :
      quotientExponent first firstExponent second secondExponent ≤
        firstExponent - secondExponent :=
    min_le_left _ _
  have split :
      firstExponent =
        ((firstExponent - secondExponent -
              quotientExponent first firstExponent second secondExponent).toNat :
            Int) +
          quotientExponent first firstExponent second secondExponent +
          secondExponent := by
    omega
  have power : (2 : ℚ) ^ secondExponent ≠ 0 := zpow_ne_zero _ two_ne_zero
  have divisor : (second : ℚ) ≠ 0 := by exact_mod_cast secondPositive.ne'
  conv_rhs => rw [split]
  unfold dividend
  rw [zpow_add₀ two_ne_zero, zpow_add₀ two_ne_zero, zpow_natCast]
  push_cast
  field_simp

theorem quotient_enough
    (firstPositive : 0 < first)
    (secondPositive : 0 < second)
    (below : first < 2 ^ 53) :
    2 ^ 52 ≤ dividend first firstExponent second secondExponent / second ∨
      quotientExponent first firstExponent second secondExponent ≤ -1074 := by
  by_cases isLow :
      quotientExponent first firstExponent second secondExponent ≤ -1074
  · exact .inr isLow
  left
  have log : first.log2 ≤ 52 :=
    Nat.le_of_lt_succ ((Nat.log2_lt firstPositive.ne').mpr below)
  rw [Nat.le_div_iff_mul_le secondPositive]
  have amount :
      52 + (second.log2 + 1) ≤
        first.log2 +
          (firstExponent - secondExponent -
              quotientExponent first firstExponent second secondExponent).toNat := by
    unfold quotientExponent at isLow ⊢
    omega
  calc 2 ^ 52 * second
      ≤ 2 ^ 52 * 2 ^ (second.log2 + 1) :=
        Nat.mul_le_mul_left _ Nat.lt_log2_self.le
    _ ≤ 2 ^ (first.log2 + _) := by
        rw [← pow_add]
        exact Nat.pow_le_pow_right two_pos amount
    _ ≤ dividend first firstExponent second secondExponent := by
        rw [pow_add]
        exact Nat.mul_le_mul_right _ (Nat.log2_self_le firstPositive.ne')

end

variable {firstValue secondValue : ℚ}
variable {first second : Float}

theorem HasValue.div
    (hasFirst : HasValue first firstValue)
    (hasSecond : HasValue second secondValue)
    (notZero : 0 < secondValue)
    (fits : firstValue / secondValue < 2 ^ 1023) :
    ∃ value,
      HasValue (first / second) value ∧
        |value - firstValue / secondValue| ≤
          max (firstValue / secondValue / 2 ^ 52) (2 ^ (-1074 : Int)) := by
  change
    ∃ value,
      Holds
          (Float.Model.pack
            (UnpackedFloat.div .binary64 first.toModel.unpack
              second.toModel.unpack)).unpack
          value ∧
        _
  rcases hasSecond.canonical with
    ⟨_, _, rfl⟩ |
      ⟨second, secondExponent, secondPositive, isSecond, rfl, canonical⟩
  · exact absurd notZero (lt_irrefl 0)
  rcases hasFirst.canonical with
    ⟨firstSign, isFirst, rfl⟩ |
      ⟨first, firstExponent, firstPositive, isFirst, rfl, firstCanonical⟩
  · refine ⟨0, ?_, by simp⟩
    rw [isFirst, isSecond]
    exact holds_zero _
  · rw [isFirst, isSecond, div_finite]
    have quotient :=
      @dividend_value first second firstExponent secondExponent secondPositive
    obtain ⟨value, holds, error⟩ :=
      exists_holds_roundWithAccuracy
        (@quotient_enough first second firstExponent secondExponent
          firstPositive secondPositive firstCanonical.below)
        (covers_quotient secondPositive)
        (quotient ▸ fits)
    exact ⟨value, holds, quotient ▸ error⟩

theorem value_lt_of_exponent_lt
    {first second : Nat}
    {firstExponent secondExponent : Int}
    (firstCanonical : Canonical first firstExponent)
    (canonical : Canonical second secondExponent)
    (below : firstExponent < secondExponent) :
    (first : ℚ) * 2 ^ firstExponent < second * 2 ^ secondExponent := by
  have full : 2 ^ 52 ≤ second := by
    have := firstCanonical.least
    exact canonical.full.resolve_right (by omega)
  have firstBelow : (first : ℚ) < 2 ^ 53 := by
    exact_mod_cast firstCanonical.below
  have secondFull : (2 : ℚ) ^ 52 ≤ second := by
    exact_mod_cast full
  have power : (0 : ℚ) < 2 ^ firstExponent := zpow_pos two_pos _
  calc (first : ℚ) * 2 ^ firstExponent
      < 2 ^ 53 * 2 ^ firstExponent := mul_lt_mul_of_pos_right firstBelow power
    _ = 2 ^ 52 * 2 ^ (firstExponent + 1) := by
        rw [zpow_add₀ two_ne_zero]
        ring
    _ ≤ 2 ^ 52 * 2 ^ secondExponent := by
        refine mul_le_mul_of_nonneg_left ?_ (by positivity)
        exact zpow_le_zpow_right₀ one_le_two (by omega)
    _ ≤ second * 2 ^ secondExponent :=
        mul_le_mul_of_nonneg_right secondFull (by positivity)

theorem compare_eq
    {first second : Float.Model}
    (holdsFirst : Holds first.unpack firstValue)
    (holdsSecond : Holds second.unpack secondValue) :
    UnpackedFloat.compare first.unpack second.unpack =
      some (compare firstValue secondValue) := by
  rcases holdsFirst.canonical with
    ⟨firstSign, isFirst, rfl⟩ |
      ⟨first, firstExponent, firstPositive, isFirst, rfl, firstCanonical⟩
  · rcases holdsSecond.canonical with
      ⟨secondSign, isSecond, rfl⟩ |
        ⟨second, secondExponent, secondPositive, isSecond, rfl, canonical⟩
    · rw [isFirst, isSecond]
      rfl
    · rw [isFirst, isSecond, compare_lt_iff_lt.mpr (by positivity)]
      rfl
  · rcases holdsSecond.canonical with
      ⟨secondSign, isSecond, rfl⟩ |
        ⟨second, secondExponent, secondPositive, isSecond, rfl, canonical⟩
    · rw [isFirst, isSecond, compare_gt_iff_gt.mpr (by positivity)]
      rfl
    · rw [isFirst, isSecond]
      change
        some
            ((compare firstExponent secondExponent).then
              (compare first second)) =
          _
      congr 1
      rcases lt_trichotomy firstExponent secondExponent with
        below | rfl | above
      · rw [compare_lt_iff_lt.mpr below,
          compare_lt_iff_lt.mpr
            (value_lt_of_exponent_lt firstCanonical canonical below)]
        rfl
      · have power : (0 : ℚ) < 2 ^ firstExponent := zpow_pos two_pos _
        rw [compare_eq_iff_eq.mpr rfl, Ordering.eq_then]
        rcases lt_trichotomy first second with below | rfl | above
        · rw [compare_lt_iff_lt.mpr below, compare_lt_iff_lt.mpr]
          exact mul_lt_mul_of_pos_right (by exact_mod_cast below) power
        · rw [compare_eq_iff_eq.mpr rfl, compare_eq_iff_eq.mpr rfl]
        · rw [compare_gt_iff_gt.mpr above, compare_gt_iff_gt.mpr]
          exact mul_lt_mul_of_pos_right (by exact_mod_cast above) power
      · rw [compare_gt_iff_gt.mpr above,
          compare_gt_iff_gt.mpr
            (value_lt_of_exponent_lt canonical firstCanonical above)]
        rfl

theorem HasValue.lt_iff
    (hasFirst : HasValue first firstValue)
    (hasSecond : HasValue second secondValue) :
    first < second ↔ firstValue < secondValue := by
  have compares := compare_eq hasFirst hasSecond
  change
    decide (UnpackedFloat.lt first.toModel.unpack second.toModel.unpack = true) =
        true ↔
      _
  rw [decide_eq_true_eq, UnpackedFloat.lt, compares,
    ← @compare_lt_iff_lt _ _ firstValue secondValue]
  cases compare firstValue secondValue <;> decide

theorem HasValue.le_iff
    (hasFirst : HasValue first firstValue)
    (hasSecond : HasValue second secondValue) :
    first ≤ second ↔ firstValue ≤ secondValue := by
  have compares := compare_eq hasFirst hasSecond
  change
    decide (UnpackedFloat.le first.toModel.unpack second.toModel.unpack = true) =
        true ↔
      _
  rw [decide_eq_true_eq, UnpackedFloat.le, compares,
    ← @compare_le_iff_le _ _ firstValue secondValue]
  cases compare firstValue secondValue <;> decide

theorem HasValue.beq_iff
    (hasFirst : HasValue first firstValue)
    (hasSecond : HasValue second secondValue) :
    (first == second) = true ↔ firstValue = secondValue := by
  have compares := compare_eq hasFirst hasSecond
  change UnpackedFloat.beq first.toModel.unpack second.toModel.unpack = true ↔ _
  rw [UnpackedFloat.beq, compares, ← @compare_eq_iff_eq _ _ firstValue secondValue]
  cases compare firstValue secondValue <;> decide

theorem hasValue_toFloat
    (number : UInt64)
    (below : number.toNat < 2 ^ 53) :
    HasValue number.toFloat number.toNat := by
  change
    Holds
      (Float.Model.pack
        (UnpackedFloat.normalize .binary64 (number.toNat : Int) 0
          .positive)).unpack
      _
  generalize number.toNat = whole at below ⊢
  unfold UnpackedFloat.normalize
  rcases whole.eq_zero_or_pos with rfl | positive
  · exact holds_zero _
  · rw [Int.compare_eq_gt.mpr (by exact_mod_cast positive)]
    have small : (whole : ℚ) * 2 ^ (0 : Int) < 2 ^ 1023 := by
      rw [zpow_zero, mul_one]
      refine lt_of_lt_of_le (by exact_mod_cast below : (whole : ℚ) < 2 ^ 53) ?_
      exact pow_le_pow_right₀ one_le_two (by norm_num)
    obtain ⟨value, holds, _, exact⟩ := holds_round positive (by norm_num) small
    have notAbove : target whole 0 ≤ 0 := by
      have log := (Nat.log2_lt positive.ne').mpr below
      rw [target_eq]
      omega
    rw [exact notAbove, zpow_zero, mul_one] at holds
    exact holds

end MeFuzz.Binary64
