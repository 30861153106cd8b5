import MeFuzz.Binary64Arithmetic

namespace MeFuzz.Binary64

open Float.Model (UnpackedFloat)

/-!
# Sums in double precision

Each addition moves a sum of nonnegative doubles by a part of it that is as small as
the last place.  Sums of the same numbers in two orders therefore differ by a part that
grows with the count of the numbers only.
-/

/-- The part of a sum that one addition may move it by. -/
def place : ℚ := 1 / 2 ^ 52

/-- The factor that some additions may lower a sum by. -/
def lowered (count : Nat) : ℚ :=
  (1 - place) ^ count

/-- The factor that some additions may raise a sum by. -/
def raised (count : Nat) : ℚ :=
  (1 + place) ^ count

theorem place_pos : 0 < place := by
  norm_num [place]

theorem one_sub_place_pos : 0 < 1 - place := by
  norm_num [place]

theorem lowered_pos (count : Nat) : 0 < lowered count :=
  pow_pos one_sub_place_pos count

theorem one_le_raised (count : Nat) : 1 ≤ raised count :=
  one_le_pow₀ (by linarith [place_pos])

variable {float : Float}

theorem hasValue_of_unpack
    {mantissa : Nat}
    {exponent : Int}
    {positive : 0 < mantissa}
    (unpacked : float.toModel.unpack = .finite .positive mantissa exponent positive) :
    HasValue float (mantissa * 2 ^ exponent) := by
  rw [HasValue, unpacked]
  exact .finite _ _ _

theorem hasValue_zero : HasValue 0.0 0 := by
  have unpacked : (0.0 : Float).toModel.unpack = .zero .positive := by rfl
  rw [HasValue, unpacked]
  exact .zero _

theorem unpack_one :
    (1.0 : Float).toModel.unpack =
      .finite .positive 4503599627370496 (-52) (by decide) := by
  rfl

theorem hasValue_of_unpack_one
    (unpacked :
      float.toModel.unpack =
        .finite .positive 4503599627370496 (-52) (by decide)) :
    HasValue float 1 := by
  have value : (1 : ℚ) = (4503599627370496 : Nat) * 2 ^ (-52 : Int) := by norm_num
  rw [value]
  exact hasValue_of_unpack unpacked

theorem hasValue_one : HasValue 1.0 1 :=
  hasValue_of_unpack_one unpack_one

variable {value : ℚ}

theorem HasValue.zero_mul
    {first second : Float}
    (isZero : HasValue first 0)
    (hasSecond : HasValue second value) :
    HasValue (first * second) 0 := by
  obtain ⟨product, hasProduct, error⟩ := isZero.mul hasSecond (by norm_num)
  change
    Holds
      (Float.Model.pack
        (UnpackedFloat.mul .binary64 first.toModel.unpack
          second.toModel.unpack)).unpack
      0
  rcases isZero.canonical with
    ⟨sign, isFirst, _⟩ | ⟨mantissa, exponent, positive, _, notZero, _⟩
  · rcases hasSecond.canonical with
      ⟨_, isSecond, _⟩ | ⟨_, _, _, isSecond, _, _⟩
    · rw [isFirst, isSecond]
      exact holds_zero _
    · rw [isFirst, isSecond]
      exact holds_zero _
  · have : (0 : ℚ) < mantissa * 2 ^ exponent := by positivity
    exact absurd notZero this.ne

/-- Doubles end below `2 ^ 1024`. -/
theorem HasValue.lt_top
    (hasValue : HasValue float value) :
    value < 2 ^ 1024 := by
  rcases hasValue.canonical with
    ⟨_, _, rfl⟩ | ⟨mantissa, exponent, _, _, rfl, canonical⟩
  · positivity
  · have below : (mantissa : ℚ) < 2 ^ 53 := by
      exact_mod_cast canonical.below
    have most : (2 : ℚ) ^ exponent ≤ 2 ^ (971 : Int) :=
      zpow_le_zpow_right₀ one_le_two canonical.most
    calc
      (mantissa : ℚ) * 2 ^ exponent < 2 ^ 53 * 2 ^ exponent :=
        mul_lt_mul_of_pos_right below (zpow_pos two_pos _)
      _ ≤ 2 ^ 53 * 2 ^ (971 : Int) :=
        mul_le_mul_of_nonneg_left most (by positivity)
      _ = 2 ^ 1024 := by
        rw [zpow_ofNat, ← pow_add]

/-- Doubles that stand for numbers, one by one. -/
abbrev HaveValues (floats : List Float) (values : List ℚ) : Prop :=
  List.Forall₂ HasValue floats values

variable {values : List ℚ}

theorem HaveValues.perm
    {floats rearranged : List Float}
    (haveValues : HaveValues floats values)
    (isPerm : rearranged.Perm floats) :
    ∃ others, HaveValues rearranged others ∧ others.Perm values := by
  obtain ⟨others, haveOthers, othersPerm⟩ :=
    List.perm_comp_forall₂ isPerm haveValues
  exact ⟨others, haveOthers, othersPerm⟩

theorem HaveValues.unique
    {floats : List Float}
    {values others : List ℚ}
    (haveValues : HaveValues floats values)
    (haveOthers : HaveValues floats others) :
    values = others := by
  induction haveValues generalizing others with
  | nil =>
      cases haveOthers
      rfl
  | cons hasFirst _ ih =>
      cases haveOthers with
      | cons hasOther later =>
          rw [Holds.unique hasFirst hasOther, ih later]

theorem HaveValues.sum_nonneg
    {floats : List Float}
    (haveValues : HaveValues floats values) :
    0 ≤ values.sum := by
  induction haveValues with
  | nil =>
      exact le_rfl
  | cons hasFirst _ ih =>
      rw [List.sum_cons]
      exact add_nonneg (Holds.nonneg hasFirst) ih

theorem HaveValues.sum
    {floats : List Float}
    {start : Float}
    {startValue : ℚ}
    (haveValues : HaveValues floats values)
    (hasStart : HasValue start startValue)
    (fits : (startValue + values.sum) * raised floats.length < 2 ^ 1023) :
    ∃ value,
      HasValue (floats.foldl (· + ·) start) value ∧
        (startValue + values.sum) * lowered floats.length ≤ value ∧
          value ≤ (startValue + values.sum) * raised floats.length := by
  induction haveValues generalizing start startValue with
  | nil =>
      refine ⟨startValue, hasStart, ?_, ?_⟩
      · simp [lowered]
      · simp [raised]
  | @cons float first floats values hasFirst later ih =>
      rw [List.sum_cons, List.length_cons] at fits ⊢
      have restNonneg := HaveValues.sum_nonneg later
      have firstNonneg := Holds.nonneg hasFirst
      have startNonneg := Holds.nonneg hasStart
      have notMore : startValue + first ≤ startValue + (first + values.sum) := by
        linarith
      have allNonneg : 0 ≤ startValue + (first + values.sum) := by
        linarith
      have below : startValue + first < 2 ^ 1023 :=
        (notMore.trans
          (le_mul_of_one_le_right allNonneg (one_le_raised _))).trans_lt fits
      obtain ⟨next, hasNext, error⟩ := hasStart.add hasFirst below
      obtain ⟨notBelow, notAbove⟩ := abs_le.mp error
      have placed : (startValue + first) / 2 ^ 52 = (startValue + first) * place := by
        rw [place, mul_one_div]
      rw [placed] at notBelow notAbove
      have up :
          next + values.sum ≤
            (startValue + (first + values.sum)) * (1 + place) := by
        nlinarith [mul_nonneg restNonneg place_pos.le]
      have down :
          (startValue + (first + values.sum)) * (1 - place) ≤
            next + values.sum := by
        nlinarith [mul_nonneg restNonneg place_pos.le]
      have raisedOnce :
          (next + values.sum) * raised floats.length ≤
            (startValue + (first + values.sum)) * raised (floats.length + 1) := by
        calc
          (next + values.sum) * raised floats.length ≤
              (startValue + (first + values.sum)) * (1 + place) *
                raised floats.length :=
            mul_le_mul_of_nonneg_right up (zero_le_one.trans (one_le_raised _))
          _ = (startValue + (first + values.sum)) * raised (floats.length + 1) := by
            rw [raised, raised, pow_succ]
            ring
      obtain ⟨value, hasValue, notLess, notMore⟩ :=
        ih hasNext (raisedOnce.trans_lt fits)
      refine ⟨value, hasValue, ?_, notMore.trans raisedOnce⟩
      calc
        (startValue + (first + values.sum)) * lowered (floats.length + 1) =
            (startValue + (first + values.sum)) * (1 - place) *
              lowered floats.length := by
          rw [lowered, lowered, pow_succ]
          ring
        _ ≤ (next + values.sum) * lowered floats.length :=
          mul_le_mul_of_nonneg_right down (lowered_pos _).le
        _ ≤ value := notLess

/-- Up to `2 ^ 40` additions lower a sum by less than a part in four thousand. -/
theorem lowered_ge
    {count : Nat}
    (few : count ≤ 2 ^ 40) :
    1 - 1 / 2 ^ 12 ≤ lowered count := by
  have bernoulli : 1 + (count : ℚ) * (-place) ≤ (1 + -place) ^ count :=
    one_add_mul_le_pow (by norm_num [place]) count
  have fewParts : (count : ℚ) * place ≤ 1 / 2 ^ 12 := by
    have isFew : (count : ℚ) ≤ 2 ^ 40 := by exact_mod_cast few
    calc
      (count : ℚ) * place ≤ 2 ^ 40 * place :=
        mul_le_mul_of_nonneg_right isFew place_pos.le
      _ = 1 / 2 ^ 12 := by norm_num [place]
  rw [lowered, sub_eq_add_neg 1 place]
  linarith

theorem raised_mul_lowered_le (count : Nat) :
    raised count * lowered count ≤ 1 := by
  rw [raised, lowered, ← mul_pow]
  exact pow_le_one₀ (by norm_num [place]) (by norm_num [place])

theorem raised_le
    {count : Nat}
    (few : count ≤ 2 ^ 40) :
    raised count ≤ 1 + 1 / 2 ^ 11 := by
  have low := lowered_ge few
  have product := raised_mul_lowered_le count
  have atLeast := one_le_raised count
  nlinarith

/-- No inverse of a double is between zero and this number. -/
def leastInverse : ℚ := 2 ^ (-1025 : Int)

theorem HasValue.inverse
    (hasValue : HasValue float value)
    (above : 2 ^ (-1023 : Int) < value) :
    ∃ inverse, HasValue (1.0 / float) inverse ∧ leastInverse ≤ inverse := by
  have positive : 0 < value := (zpow_pos two_pos _).trans above
  have high : 1 / value < 2 ^ 1023 := by
    rw [one_div_lt positive (by positivity)]
    rwa [zpow_neg, zpow_ofNat, ← one_div] at above
  obtain ⟨inverse, hasInverse, error⟩ := hasValue_one.div hasValue positive high
  refine ⟨inverse, hasInverse, ?_⟩
  have leastPositive : 0 < leastInverse := zpow_pos two_pos _
  have low : 2 * leastInverse < 1 / value := by
    have doubled : 2 * leastInverse = 1 / 2 ^ 1024 := by
      rw [leastInverse, ← zpow_one_add₀ two_ne_zero, one_div, ← zpow_natCast, ← zpow_neg]
      rfl
    rw [doubled]
    exact one_div_lt_one_div_of_lt positive hasValue.lt_top
  have least : (2 : ℚ) ^ (-1074 : Int) ≤ leastInverse := by
    exact zpow_le_zpow_right₀ one_le_two (by norm_num)
  have notBelow := (abs_le.mp error).1
  have notMore :
      max (1 / value / 2 ^ 52) (2 ^ (-1074 : Int)) ≤ 1 / value - leastInverse := by
    refine max_le ?_ ?_
    · linarith
    · linarith
  linarith

theorem hasValue_inverse_of_infinite
    {sign : Float.Model.UnpackedFloat.Sign}
    (isInfinite : float.toModel.unpack = .infinity sign) :
    HasValue (1.0 / float) 0 := by
  change
    Holds
      (Float.Model.pack
        (UnpackedFloat.div .binary64 (1.0 : Float).toModel.unpack
          float.toModel.unpack)).unpack
      0
  rw [isInfinite, unpack_one]
  exact holds_zero _

theorem leastInverse_le_sum
    (inverses : ∀ value ∈ values, value = 0 ∨ leastInverse ≤ value)
    (notZero : values.sum ≠ 0) :
    leastInverse ≤ values.sum := by
  have least : 0 < leastInverse := zpow_pos two_pos _
  have nonneg : ∀ value ∈ values, 0 ≤ value := by
    intro value isValue
    rcases inverses value isValue with rfl | above
    · exact le_rfl
    · exact least.le.trans above
  obtain ⟨value, isValue, valueNotZero⟩ : ∃ value ∈ values, value ≠ 0 := by
    by_contra allZero
    push Not at allZero
    exact notZero (List.sum_eq_zero allZero)
  exact
    ((inverses value isValue).resolve_left valueNotZero).trans
      (List.single_le_sum nonneg value isValue)

theorem HaveValues.part_le_sum
    {floats rearranged : List Float}
    {part : Float}
    {partValue : ℚ}
    (haveValues : HaveValues floats values)
    (inverses : ∀ value ∈ values, value = 0 ∨ leastInverse ≤ value)
    (few : floats.length ≤ 2 ^ 40)
    (fits : values.sum < 2 ^ 1022)
    (isPerm : rearranged.Perm floats)
    (isPart : HasValue part partValue)
    (below : partValue ≤ 199 / 200) :
    floats.foldl (· + ·) 0.0 * part ≤ rearranged.foldl (· + ·) 0.0 := by
  obtain ⟨others, haveOthers, othersPerm⟩ := haveValues.perm isPerm
  have sumNonneg := haveValues.sum_nonneg
  have raisedLe := raised_le few
  have raisedFits : (0 + values.sum) * raised floats.length < 2 ^ 1023 := by
    have small : values.sum * raised floats.length ≤ values.sum * 2 :=
      mul_le_mul_of_nonneg_left (by linarith) sumNonneg
    have doubled : values.sum * 2 < 2 ^ 1022 * 2 :=
      mul_lt_mul_of_pos_right fits two_pos
    rw [zero_add, pow_succ (2 : ℚ) 1022]
    exact small.trans_lt doubled
  obtain ⟨total, hasTotal, -, totalLe⟩ := haveValues.sum hasValue_zero raisedFits
  rw [zero_add] at totalLe
  have otherFits : (0 + others.sum) * raised rearranged.length < 2 ^ 1023 := by
    rw [othersPerm.sum_eq, isPerm.length_eq]
    exact raisedFits
  obtain ⟨other, hasOther, otherGe, -⟩ := haveOthers.sum hasValue_zero otherFits
  rw [zero_add, othersPerm.sum_eq, isPerm.length_eq] at otherGe
  have otherLow : values.sum * (1 - 1 / 2 ^ 12) ≤ other :=
    (mul_le_mul_of_nonneg_left (lowered_ge few) sumNonneg).trans otherGe
  have totalHigh : total ≤ values.sum * (1 + 1 / 2 ^ 11) :=
    totalLe.trans (mul_le_mul_of_nonneg_left raisedLe sumNonneg)
  have totalNonneg := Holds.nonneg hasTotal
  have partNonneg := Holds.nonneg isPart
  by_cases isZero : values.sum = 0
  · have noTotal : total = 0 := by
      rw [isZero, zero_mul] at totalHigh
      exact le_antisymm totalHigh totalNonneg
    rw [noTotal] at hasTotal
    exact ((hasTotal.zero_mul isPart).le_iff hasOther).mpr (Holds.nonneg hasOther)
  · have sumGe := leastInverse_le_sum inverses isZero
    have productLe : total * partValue ≤ values.sum * (1 + 1 / 2 ^ 11) * (199 / 200) :=
      mul_le_mul totalHigh below partNonneg
        (mul_nonneg sumNonneg (by norm_num))
    have productFits : total * partValue < 2 ^ 1023 := by
      rw [zero_add] at raisedFits
      calc
        total * partValue ≤ total * 1 :=
          mul_le_mul_of_nonneg_left (by linarith) totalNonneg
        _ = total := mul_one total
        _ < 2 ^ 1023 := totalLe.trans_lt raisedFits
    obtain ⟨threshold, hasThreshold, error⟩ := hasTotal.mul isPart productFits
    refine (hasThreshold.le_iff hasOther).mpr ?_
    have errorLe :
        max (total * partValue / 2 ^ 52) (2 ^ (-1074 : Int)) ≤ values.sum / 2 ^ 49 := by
      refine max_le ?_ ?_
      · linarith
      · have least : (2 : ℚ) ^ (-1074 : Int) = leastInverse / 2 ^ 49 := by
          rw [leastInverse, ← zpow_natCast (2 : ℚ) 49, ← zpow_sub₀ two_ne_zero]
          rfl
        rw [least]
        exact div_le_div_of_nonneg_right sumGe (by positivity)
    have notAbove := (abs_le.mp (error.trans errorLe)).2
    linarith

/-- A double that is not a number. -/
def IsNan (float : Float) : Prop :=
  float.toModel.unpack = .notANumber

theorem lt_iff_unpack
    {first second : Float} :
    first < second ↔
      UnpackedFloat.lt first.toModel.unpack second.toModel.unpack = true := by
  change
    decide (UnpackedFloat.lt first.toModel.unpack second.toModel.unpack = true) =
        true ↔
      _
  rw [decide_eq_true_eq]

namespace IsNan

variable {first : Float}

theorem add_left
    (isNan : IsNan first)
    (second : Float) :
    IsNan (first + second) := by
  have sum :
      UnpackedFloat.add .binary64 .notANumber second.toModel.unpack = .notANumber := by
    simp only [UnpackedFloat.add]
  change
    (Float.Model.pack
      (UnpackedFloat.add .binary64 first.toModel.unpack second.toModel.unpack)).unpack =
        .notANumber
  rw [isNan, sum]
  rfl

theorem add_right
    {second : Float}
    (isNan : IsNan second)
    (first : Float) :
    IsNan (first + second) := by
  have sum :
      UnpackedFloat.add .binary64 first.toModel.unpack .notANumber = .notANumber := by
    cases first.toModel.unpack <;> simp only [UnpackedFloat.add]
  change
    (Float.Model.pack
      (UnpackedFloat.add .binary64 first.toModel.unpack second.toModel.unpack)).unpack =
        .notANumber
  rw [isNan, sum]
  rfl

theorem div_right
    {second : Float}
    (isNan : IsNan second)
    (first : Float) :
    IsNan (first / second) := by
  have quotient :
      UnpackedFloat.div .binary64 first.toModel.unpack .notANumber = .notANumber := by
    cases first.toModel.unpack <;> simp only [UnpackedFloat.div]
  change
    (Float.Model.pack
      (UnpackedFloat.div .binary64 first.toModel.unpack second.toModel.unpack)).unpack =
        .notANumber
  rw [isNan, quotient]
  rfl

theorem not_lt
    (isNan : IsNan first)
    (second : Float) :
    ¬first < second := by
  rw [lt_iff_unpack, isNan]
  cases second.toModel.unpack <;> simp [UnpackedFloat.lt, UnpackedFloat.compare]

theorem not_gt
    (isNan : IsNan first)
    (second : Float) :
    ¬second < first := by
  rw [lt_iff_unpack, isNan]
  cases second.toModel.unpack <;> simp [UnpackedFloat.lt, UnpackedFloat.compare]

theorem sum_of_start
    {start : Float}
    (isNan : IsNan start)
    (floats : List Float) :
    IsNan (floats.foldl (· + ·) start) := by
  induction floats generalizing start with
  | nil =>
      exact isNan
  | cons first rest ih =>
      exact ih (isNan.add_left first)

theorem sum
    {floats : List Float}
    {float : Float}
    (isNan : IsNan float)
    (isIn : float ∈ floats)
    (start : Float) :
    IsNan (floats.foldl (· + ·) start) := by
  obtain ⟨before, rest, rfl⟩ := List.append_of_mem isIn
  rw [List.foldl_append, List.foldl_cons]
  exact sum_of_start (isNan.add_right _) rest

end IsNan

end MeFuzz.Binary64
