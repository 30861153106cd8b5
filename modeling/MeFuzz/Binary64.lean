import Mathlib

namespace MeFuzz.Binary64

open Float.Model
open Float.Model.UnpackedFloat

/-!
# Rounding in double precision

The nonnegative doubles stand for rational numbers.  This module computes what
packing, rounding and the operations do to these numbers, up to the last place.
-/

/-- A float that stands for a nonnegative number. -/
inductive Holds : UnpackedFloat → ℚ → Prop where
  | zero (sign : Sign) :
      Holds (.zero sign) 0
  | finite
      (mantissa : Nat)
      (exponent : Int)
      (positive : 0 < mantissa) :
      Holds (.finite .positive mantissa exponent positive)
        (mantissa * 2 ^ exponent)

/-- A double that stands for a nonnegative number. -/
def HasValue
    (float : Float)
    (value : ℚ) : Prop :=
  Holds float.toModel.unpack value

/-- The mantissas and exponents that doubles have. -/
structure Canonical
    (mantissa : Nat)
    (exponent : Int) : Prop where
  below : mantissa < 2 ^ 53
  least : -1074 ≤ exponent
  most : exponent ≤ 971
  full : 2 ^ 52 ≤ mantissa ∨ exponent = -1074

theorem Holds.nonneg
    {float : UnpackedFloat}
    {value : ℚ}
    (holds : Holds float value) :
    0 ≤ value := by
  cases holds with
  | zero sign =>
      exact le_rfl
  | finite mantissa exponent positive =>
      positivity

theorem Holds.unique
    {float : UnpackedFloat}
    {first second : ℚ}
    (holds : Holds float first)
    (holdsToo : Holds float second) :
    first = second := by
  cases holds <;> cases holdsToo <;> rfl

theorem toNat_implicit
    {bits : Nat}
    (mantissa : BitVec bits) :
    (1#1 ++ mantissa).toNat = 2 ^ bits + mantissa.toNat := by
  rw [BitVec.toNat_append, ← Nat.shiftLeft_add_eq_or_of_lt mantissa.isLt]
  simp [Nat.shiftLeft_eq]

theorem unpack_normal
    {spec : Format}
    {exponent : BitVec spec.exponentBits}
    {mantissa : BitVec spec.mantissaBitsWithoutImplicit}
    (notAll : exponent ≠ -1#_)
    (notZero : exponent ≠ 0#_) :
    unpack spec (packComponents spec .positive exponent mantissa) =
      .finite .positive (1#1 ++ mantissa).toNat
        (exponent.toNat - (spec.exponentBias + spec.mantissaBitsWithoutImplicit))
        (by simp) := by
  unfold UnpackedFloat.unpack
  simp only [unpackExponent_packComponents, unpackMantissa_packComponents,
    unpackSign_packComponents, Sign.ofBitVec_toBitVec, if_neg notAll,
    if_neg notZero]

theorem unpack_subnormal
    {spec : Format}
    {mantissa : BitVec spec.mantissaBitsWithoutImplicit}
    (notAll : BitVec.ofNat spec.exponentBits 0 ≠ -1#_)
    (positive : 0 < mantissa.toNat) :
    unpack spec (packComponents spec .positive 0#_ mantissa) =
      .finite .positive mantissa.toNat
        (-(spec.exponentBias + spec.mantissaBitsWithoutImplicit) + 1)
        positive := by
  have notZero : mantissa ≠ 0#_ := by
    rintro rfl
    simp at positive
  unfold UnpackedFloat.unpack
  simp only [unpackExponent_packComponents, unpackMantissa_packComponents,
    unpackSign_packComponents, Sign.ofBitVec_toBitVec, if_neg notAll, if_pos,
    dif_neg notZero, BitVec.toNat_zero, Nat.cast_zero, zero_sub]

variable {mantissa : Nat}
variable {exponent : Int}

/-- The exponent field of a normal double. -/
def biased (exponent : Int) : Nat :=
  (exponent + 1023 + 52).toNat

theorem unpack_pack_normal
    (least : -1074 ≤ exponent)
    (most : exponent ≤ 971)
    (full : 2 ^ 52 ≤ mantissa)
    (below : mantissa < 2 ^ 53)
    (positive : 0 < mantissa) :
    unpack .binary64
        (pack .binary64 (.finite .positive mantissa exponent positive)) =
      .finite .positive mantissa exponent positive := by
  have log : mantissa.log2 = 52 :=
    (Nat.log2_eq_iff positive.ne').mpr ⟨full, below⟩
  have isBiased : (biased exponent : Int) = exponent + 1075 := by
    unfold biased
    omega
  have isPacked :
      pack .binary64 (.finite .positive mantissa exponent positive) =
        packComponents .binary64 .positive (BitVec.ofNat 11 (biased exponent))
          (BitVec.ofNat 52 mantissa) := by
    have notInfinite :
        ¬2 ^ Format.binary64.exponentBits ≤ biased exponent + 1 := by
      change ¬2 ^ 11 ≤ _
      omega
    have isNormal : mantissa.log2 + 1 = Format.binary64.mantissaBits := by
      rw [log]
      rfl
    unfold UnpackedFloat.pack
    exact (if_neg notInfinite).trans (if_pos isNormal)
  have field : (BitVec.ofNat 11 (biased exponent)).toNat = biased exponent := by
    rw [BitVec.toNat_ofNat]
    exact Nat.mod_eq_of_lt (by omega)
  have notAll : BitVec.ofNat 11 (biased exponent) ≠ -1#11 := by
    intro same
    have isMax := (congrArg BitVec.toNat same).symm.trans field
    change 2047 = biased exponent at isMax
    omega
  have notZero : BitVec.ofNat 11 (biased exponent) ≠ 0#11 := by
    intro same
    have isMin := (congrArg BitVec.toNat same).symm.trans field
    change 0 = biased exponent at isMin
    omega
  have sameMantissa :
      (1#1 ++ BitVec.ofNat 52 mantissa).toNat = mantissa := by
    rw [toNat_implicit, BitVec.toNat_ofNat]
    omega
  have sameExponent :
      ((BitVec.ofNat 11 (biased exponent)).toNat : Int) - (1023 + 52) =
        exponent := by
    rw [field]
    omega
  rw [isPacked]
  refine (unpack_normal notAll notZero).trans ?_
  congr 1

theorem unpack_pack_subnormal
    (below : mantissa < 2 ^ 52)
    (positive : 0 < mantissa) :
    unpack .binary64
        (pack .binary64 (.finite .positive mantissa (-1074) positive)) =
      .finite .positive mantissa (-1074) positive := by
  have log : mantissa.log2 < 52 := (Nat.log2_lt positive.ne').mpr below
  have field : (BitVec.ofNat 52 mantissa).toNat = mantissa := by
    rw [BitVec.toNat_ofNat]
    exact Nat.mod_eq_of_lt below
  have isPacked :
      pack .binary64 (.finite .positive mantissa (-1074) positive) =
        packComponents .binary64 .positive 0#11 (BitVec.ofNat 52 mantissa) := by
    have notInfinite :
        ¬2 ^ Format.binary64.exponentBits ≤ biased (-1074) + 1 := by
      decide
    have notNormal : ¬mantissa.log2 + 1 = Format.binary64.mantissaBits := by
      change ¬mantissa.log2 + 1 = 53
      omega
    unfold UnpackedFloat.pack
    exact (if_neg notInfinite).trans (if_neg notNormal)
  rw [isPacked]
  refine (unpack_subnormal (by decide) (field.symm ▸ positive)).trans ?_
  congr 1

theorem unpack_pack
    (canonical : Canonical mantissa exponent)
    (positive : 0 < mantissa) :
    (Float.Model.pack (.finite .positive mantissa exponent positive)).unpack =
      .finite .positive mantissa exponent positive := by
  change
    unpack .binary64
        (pack .binary64 (.finite .positive mantissa exponent positive)) =
      _
  obtain ⟨below, least, most, full⟩ := canonical
  by_cases isFull : 2 ^ 52 ≤ mantissa
  · exact unpack_pack_normal least most isFull below positive
  · obtain rfl := full.resolve_left isFull
    exact unpack_pack_subnormal (not_le.mp isFull) positive

theorem holds_finite
    (canonical : Canonical mantissa exponent)
    (positive : 0 < mantissa) :
    Holds
      (Float.Model.pack (.finite .positive mantissa exponent positive)).unpack
      (mantissa * 2 ^ exponent) := by
  rw [unpack_pack canonical]
  exact .finite _ _ _

theorem holds_zero (sign : Sign) :
    Holds (Float.Model.pack (.zero sign)).unpack 0 := by
  cases sign <;> exact .zero _

theorem canonical_of_unpack
    {float : Float.Model}
    {sign : Sign}
    {positive : 0 < mantissa}
    (unpacks : float.unpack = .finite sign mantissa exponent positive) :
    Canonical mantissa exponent := by
  let fraction := @unpackMantissa Format.binary64 float.toBits.toBitVec
  let field := @unpackExponent Format.binary64 float.toBits.toBitVec
  have fractionBelow : fraction.toNat < 2 ^ 52 := fraction.isLt
  have fieldBelow : field.toNat < 2 ^ 11 := field.isLt
  unfold Float.Model.unpack UnpackedFloat.unpack at unpacks
  dsimp only at unpacks
  split at unpacks
  · split at unpacks <;> cases unpacks
  · rename_i notAll
    have notMax : field.toNat ≠ 2047 := fun isMax =>
      notAll (BitVec.eq_of_toNat_eq isMax)
    split at unpacks
    · rename_i isZero
      have isMin : field.toNat = 0 := congrArg BitVec.toNat isZero
      split at unpacks
      · cases unpacks
      · injection unpacks with _ sameMantissa sameExponent
        change fraction.toNat = mantissa at sameMantissa
        change (field.toNat : Int) - (1023 + 52) + 1 = exponent at sameExponent
        exact ⟨by omega, by omega, by omega, .inr (by omega)⟩
    · rename_i notZero
      have notMin : field.toNat ≠ 0 := fun isMin =>
        notZero (BitVec.eq_of_toNat_eq isMin)
      injection unpacks with _ sameMantissa sameExponent
      change (field.toNat : Int) - (1023 + 52) = exponent at sameExponent
      rw [toNat_implicit] at sameMantissa
      change 2 ^ 52 + fraction.toNat = mantissa at sameMantissa
      exact ⟨by omega, by omega, by omega, .inl (by omega)⟩

/--
An extended mantissa stands for a number in the last place above it, which is
the mantissa itself when no residual bit is set.
-/
structure Covers
    (extended : ExtendedMantissa)
    (number : ℚ) : Prop where
  least : (extended.mantissa : ℚ) ≤ number
  below : number < extended.mantissa + 1
  exact :
    extended.roundBit = false → extended.stickyBit = false →
      number = extended.mantissa

theorem Covers.shiftRightOne
    {extended : ExtendedMantissa}
    {number : ℚ}
    (covers : Covers extended number) :
    Covers extended.shiftRightOne (number / 2) := by
  obtain ⟨least, below, exact⟩ := covers
  obtain ⟨mantissa, roundBit, stickyBit⟩ := extended
  have parts : (2 * (mantissa / 2 : Nat) + (mantissa % 2 : Nat) : ℚ) = mantissa := by
    exact_mod_cast Nat.div_add_mod mantissa 2
  have bit : ((mantissa % 2 : Nat) : ℚ) ≤ 1 := by
    exact_mod_cast Nat.le_of_lt_succ (Nat.mod_lt mantissa two_pos)
  have bitNonneg : (0 : ℚ) ≤ (mantissa % 2 : Nat) := Nat.cast_nonneg _
  dsimp only at least below exact
  constructor
  · change ((mantissa / 2 : Nat) : ℚ) ≤ number / 2
    linarith
  · change number / 2 < ((mantissa / 2 : Nat) : ℚ) + 1
    linarith
  · intro noRound noSticky
    change (mantissa % 2 != 0) = false at noRound
    change (roundBit || stickyBit) = false at noSticky
    rw [Bool.or_eq_false_iff] at noSticky
    have even : mantissa % 2 = 0 := by simpa using noRound
    have isExact := exact noSticky.1 noSticky.2
    change number / 2 = ((mantissa / 2 : Nat) : ℚ)
    rw [even, Nat.cast_zero] at parts
    linarith

theorem Covers.shiftRight
    {extended : ExtendedMantissa}
    {number : ℚ}
    (covers : Covers extended number)
    (amount : Nat) :
    Covers (extended >>> amount) (number / 2 ^ amount) := by
  change Covers (amount.repeat ExtendedMantissa.shiftRightOne extended) _
  induction amount with
  | zero =>
      simpa [Nat.repeat] using covers
  | succ amount ih =>
      rw [pow_succ, ← div_div]
      exact ih.shiftRightOne

theorem mantissa_shiftRight
    (extended : ExtendedMantissa)
    (amount : Nat) :
    (extended >>> amount).mantissa = extended.mantissa / 2 ^ amount := by
  change (amount.repeat ExtendedMantissa.shiftRightOne extended).mantissa = _
  induction amount with
  | zero =>
      simp [Nat.repeat]
  | succ amount ih =>
      rw [pow_succ, ← Nat.div_div_eq_div_mul, ← ih]
      rfl

theorem roundedMantissa_cases (extended : ExtendedMantissa) :
    extended.roundedMantissa = extended.mantissa ∨
      extended.roundedMantissa = extended.mantissa + 1 := by
  obtain ⟨mantissa, roundBit, stickyBit⟩ := extended
  cases roundBit <;> cases stickyBit
  · exact .inl rfl
  · exact .inl rfl
  · change mantissa + mantissa % 2 = mantissa ∨
      mantissa + mantissa % 2 = mantissa + 1
    omega
  · exact .inr rfl

theorem Covers.rounded
    {extended : ExtendedMantissa}
    {number : ℚ}
    (covers : Covers extended number) :
    |(extended.roundedMantissa : ℚ) - number| ≤ 1 := by
  have least := covers.least
  have below := covers.below
  rcases roundedMantissa_cases extended with same | up
  · rw [same, abs_le]
    constructor <;> linarith
  · rw [up, Nat.cast_add, Nat.cast_one, abs_le]
    constructor <;> linarith

/-- The exponent that a mantissa and an exponent are rounded to. -/
def target
    (mantissa : Nat)
    (exponent : Int) : Int :=
  Format.binary64.targetExponent (totalExponent mantissa exponent)

theorem target_eq (mantissa : Nat) (exponent : Int) :
    target mantissa exponent = max (mantissa.log2 + exponent - 52) (-1074) := by
  change max ((mantissa.log2 : Int) + 1 + exponent - 53) (-1074) = _
  congr 1
  ring

/-- How far a mantissa is shifted to its target. -/
def shift
    (mantissa : Nat)
    (exponent : Int) : Nat :=
  (target mantissa exponent - exponent).toNat

theorem shiftToTargetExponent_eq
    (mantissa : Nat)
    (exponent : Int)
    (accuracy : Accuracy) :
    shiftToTargetExponent .binary64 mantissa exponent accuracy =
      (ExtendedMantissa.ofMantissaAndAccuracy mantissa accuracy >>>
          shift mantissa exponent,
        exponent + shift mantissa exponent) :=
  rfl

@[simp] theorem mantissa_ofMantissaAndAccuracy
    (mantissa : Nat)
    (accuracy : Accuracy) :
    (ExtendedMantissa.ofMantissaAndAccuracy mantissa accuracy).mantissa =
      mantissa := by
  cases accuracy with
  | exact =>
      rfl
  | inexact ordering =>
      cases ordering <;> rfl

theorem shiftToTargetExponent_of_lt
    (below : mantissa < 2 ^ 53)
    (least : -1074 ≤ exponent) :
    shiftToTargetExponent .binary64 mantissa exponent .exact =
      (⟨mantissa, false, false⟩, exponent) := by
  have log : mantissa.log2 ≤ 52 := by
    by_cases isZero : mantissa = 0
    · subst isZero
      decide
    · exact Nat.le_of_lt_succ ((Nat.log2_lt isZero).mpr below)
  have noShift : shift mantissa exponent = 0 := by
    unfold shift
    rw [target_eq]
    omega
  rw [shiftToTargetExponent_eq, noShift, Nat.cast_zero, add_zero]
  rfl

theorem shiftToTargetExponent_of_eq
    (least : -1074 ≤ exponent) :
    shiftToTargetExponent .binary64 (2 ^ 53) exponent .exact =
      (⟨2 ^ 52, false, false⟩, exponent + 1) := by
  have oneShift : shift (2 ^ 53) exponent = 1 := by
    unfold shift
    rw [target_eq, Nat.log2_two_pow]
    omega
  rw [shiftToTargetExponent_eq, oneShift]
  rfl

variable {accuracy : Accuracy}
variable {number : ℚ}

/-- What the mantissa is rounded to in the first shift. -/
def roundedTo
    (mantissa : Nat)
    (exponent : Int)
    (accuracy : Accuracy) : Nat :=
  (ExtendedMantissa.ofMantissaAndAccuracy mantissa accuracy >>>
    shift mantissa exponent).roundedMantissa

theorem roundedTo_cases :
    roundedTo mantissa exponent accuracy =
        mantissa / 2 ^ shift mantissa exponent ∨
      roundedTo mantissa exponent accuracy =
        mantissa / 2 ^ shift mantissa exponent + 1 := by
  have cases :=
    roundedMantissa_cases
      (ExtendedMantissa.ofMantissaAndAccuracy mantissa accuracy >>>
        shift mantissa exponent)
  rwa [mantissa_shiftRight, mantissa_ofMantissaAndAccuracy] at cases

theorem roundedTo_le : roundedTo mantissa exponent accuracy ≤ 2 ^ 53 := by
  have quotient : mantissa / 2 ^ shift mantissa exponent < 2 ^ 53 := by
    rw [Nat.div_lt_iff_lt_mul (by positivity), ← pow_add]
    refine Nat.lt_log2_self.trans_le (Nat.pow_le_pow_right two_pos ?_)
    unfold shift
    rw [target_eq]
    omega
  have cases := @roundedTo_cases mantissa exponent accuracy
  omega

theorem roundedTo_full
    (enough : 2 ^ 52 ≤ mantissa ∨ exponent ≤ -1074) :
    2 ^ 52 ≤ roundedTo mantissa exponent accuracy ∨
      target mantissa exponent = -1074 := by
  by_cases isLeast : target mantissa exponent = -1074
  · exact .inr isLeast
  left
  have isTarget := target_eq mantissa exponent
  have log : 52 ≤ mantissa.log2 := by
    rcases enough with full | low
    · have positive : mantissa ≠ 0 := by omega
      exact (Nat.le_log2 positive).mpr full
    · omega
  have positive : mantissa ≠ 0 := by
    rintro rfl
    simp at log
  have quotient : 2 ^ 52 ≤ mantissa / 2 ^ shift mantissa exponent := by
    rw [Nat.le_div_iff_mul_le (by positivity), ← pow_add]
    refine le_trans (Nat.pow_le_pow_right two_pos ?_) (Nat.log2_self_le positive)
    unfold shift
    omega
  have cases := @roundedTo_cases mantissa exponent accuracy
  omega

theorem add_shift
    (enough : 2 ^ 52 ≤ mantissa ∨ exponent ≤ -1074) :
    exponent + shift mantissa exponent = target mantissa exponent := by
  have notBelow : exponent ≤ target mantissa exponent := by
    rw [target_eq]
    rcases enough with full | low
    · have positive : mantissa ≠ 0 := by omega
      have log := (Nat.le_log2 positive).mpr full
      omega
    · omega
  unfold shift
  omega

/-- A float after its second shift. -/
def ofShifted (shifted : ExtendedMantissa × Int) : UnpackedFloat :=
  if isZero : shifted.1.mantissa = 0 then .zero .positive
  else
    .finite .positive shifted.1.mantissa shifted.2 (Nat.pos_of_ne_zero isZero)

theorem roundWithAccuracy_eq
    (enough : 2 ^ 52 ≤ mantissa ∨ exponent ≤ -1074) :
    roundWithAccuracy .binary64 .positive mantissa exponent accuracy =
      ofShifted
        (shiftToTargetExponent .binary64
          (roundedTo mantissa exponent accuracy) (target mantissa exponent)
          .exact) := by
  rw [← add_shift enough]
  rfl

theorem holds_roundWithAccuracy
    (enough : 2 ^ 52 ≤ mantissa ∨ exponent ≤ -1074)
    (fits : target mantissa exponent ≤ 970) :
    Holds
      (Float.Model.pack
        (roundWithAccuracy .binary64 .positive mantissa exponent accuracy)).unpack
      (roundedTo mantissa exponent accuracy *
        2 ^ target mantissa exponent) := by
  have least : -1074 ≤ target mantissa exponent := by
    rw [target_eq]
    exact le_max_right _ _
  have full := @roundedTo_full mantissa exponent accuracy enough
  have bound := @roundedTo_le mantissa exponent accuracy
  rw [roundWithAccuracy_eq enough]
  generalize roundedTo mantissa exponent accuracy = rounded at full bound ⊢
  generalize target mantissa exponent = place at fits least full ⊢
  rcases bound.lt_or_eq with below | rfl
  · rw [shiftToTargetExponent_of_lt below least, ofShifted]
    split
    · rename_i isZero
      dsimp only at isZero
      rw [isZero, Nat.cast_zero, zero_mul]
      exact .zero .positive
    · rename_i notZero
      rw [unpack_pack ⟨below, least, by omega, full⟩]
      exact .finite _ _ _
  · have notZero : (2 ^ 52 : Nat) ≠ 0 := by decide
    rw [shiftToTargetExponent_of_eq least, ofShifted, dif_neg notZero,
      unpack_pack ⟨by decide, by omega, by omega, .inl le_rfl⟩]
    have same :
        ((2 ^ 53 : Nat) : ℚ) * 2 ^ place =
          (2 ^ 52 : Nat) * 2 ^ (place + 1) := by
      rw [zpow_add₀ two_ne_zero]
      push_cast
      ring
    rw [same]
    exact .finite _ _ _

theorem error_roundedTo
    (enough : 2 ^ 52 ≤ mantissa ∨ exponent ≤ -1074)
    (covers :
      Covers (ExtendedMantissa.ofMantissaAndAccuracy mantissa accuracy) number) :
    |(roundedTo mantissa exponent accuracy : ℚ) * 2 ^ target mantissa exponent -
        number * 2 ^ exponent| ≤
      2 ^ target mantissa exponent := by
  have moved :=
    (covers.shiftRight (shift mantissa exponent)).rounded
  have sameValue :
      number / 2 ^ shift mantissa exponent * 2 ^ target mantissa exponent =
        number * 2 ^ exponent := by
    rw [← add_shift enough, zpow_add₀ two_ne_zero, zpow_natCast]
    field_simp
  have place : (0 : ℚ) < 2 ^ target mantissa exponent :=
    zpow_pos two_pos _
  rw [← sameValue, ← sub_mul, abs_mul, abs_of_pos place]
  exact (mul_le_mul_of_nonneg_right moved (by positivity)).trans_eq (one_mul _)

theorem place_le
    (enough : 2 ^ 52 ≤ mantissa ∨ exponent ≤ -1074)
    (least : (mantissa : ℚ) ≤ number) :
    (2 : ℚ) ^ target mantissa exponent ≤ number * 2 ^ exponent / 2 ^ 52 ∨
      target mantissa exponent = -1074 := by
  have isTarget := target_eq mantissa exponent
  by_cases isLeast : target mantissa exponent = -1074
  · exact .inr isLeast
  left
  have positive : mantissa ≠ 0 := by
    rintro rfl
    rcases enough with full | low
    · omega
    · rw [Nat.log2_zero] at isTarget
      omega
  have isHigh :
      target mantissa exponent = mantissa.log2 + exponent - 52 := by
    omega
  rw [isHigh, zpow_sub₀ two_ne_zero, zpow_add₀ two_ne_zero, zpow_natCast]
  have log : (2 : ℚ) ^ mantissa.log2 ≤ mantissa := by
    exact_mod_cast Nat.log2_self_le positive
  have power : (0 : ℚ) < 2 ^ exponent := zpow_pos two_pos exponent
  refine div_le_div_of_nonneg_right ?_ (by positivity)
  exact mul_le_mul_of_nonneg_right (log.trans least) power.le

theorem target_le
    (enough : 2 ^ 52 ≤ mantissa ∨ exponent ≤ -1074)
    (least : (mantissa : ℚ) ≤ number)
    (fits : number * 2 ^ exponent < 2 ^ 1023) :
    target mantissa exponent ≤ 970 := by
  rcases @place_le mantissa exponent number enough least with small | isLeast
  · have bound :
        (2 : ℚ) ^ target mantissa exponent < 2 ^ (971 : Int) := by
      refine small.trans_lt ?_
      rw [div_lt_iff₀ (by positivity)]
      refine fits.trans_eq ?_
      rw [← zpow_natCast, ← zpow_natCast, ← zpow_add₀ two_ne_zero]
      rfl
    have := (zpow_lt_zpow_iff_right₀ one_lt_two).mp bound
    omega
  · omega

theorem exists_holds_roundWithAccuracy
    (enough : 2 ^ 52 ≤ mantissa ∨ exponent ≤ -1074)
    (covers :
      Covers (ExtendedMantissa.ofMantissaAndAccuracy mantissa accuracy) number)
    (fits : number * 2 ^ exponent < 2 ^ 1023) :
    ∃ value,
      Holds
          (Float.Model.pack
            (roundWithAccuracy .binary64 .positive mantissa exponent
              accuracy)).unpack
          value ∧
        |value - number * 2 ^ exponent| ≤
          max (number * 2 ^ exponent / 2 ^ 52) (2 ^ (-1074 : Int)) := by
  have least : (mantissa : ℚ) ≤ number := by
    simpa using covers.least
  refine ⟨_, holds_roundWithAccuracy enough (target_le enough least fits),
    (error_roundedTo enough covers).trans ?_⟩
  rcases @place_le mantissa exponent number enough least with small | isLeast
  · exact small.trans (le_max_left _ _)
  · rw [isLeast]
    exact le_max_right _ _

theorem covers_exact (mantissa : Nat) :
    Covers (ExtendedMantissa.ofMantissaAndAccuracy mantissa .exact)
      mantissa where
  least := le_rfl
  below := lt_add_one _
  exact := fun _ _ => rfl

end MeFuzz.Binary64
