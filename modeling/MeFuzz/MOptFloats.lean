import MeFuzz.Binary64Sums
import MeFuzz.MOptCounters

namespace MeFuzz.MOptScheduler

open Binary64

/-!
# The probabilities of MOpt in double precision

A clamped position is not a number, or one between the two bounds.  With the first the
probabilities are no numbers either, and the check of the last one passes; else
rounding moves the last one by less than the check allows.
-/

/-- What `V_MIN` is rounded to. -/
def least : ℚ := (7205759403792794 : Nat) * 2 ^ (-57 : Int)

/-- What `0.99` is rounded to. -/
def lowBound : ℚ := (8917127262193582 : Nat) * 2 ^ (-53 : Int)

/-- What `1.01` is rounded to. -/
def highBound : ℚ := (4548635623644201 : Nat) * 2 ^ (-52 : Int)

theorem unpack_vMin :
    (vMin : Float).toModel.unpack =
      .finite .positive 7205759403792794 (-57) (by decide) := by
  rfl

theorem unpack_vMax :
    (vMax : Float).toModel.unpack =
      .finite .positive 4503599627370496 (-52) (by decide) :=
  unpack_one

theorem unpack_lowBound :
    (0.99 : Float).toModel.unpack =
      .finite .positive 8917127262193582 (-53) (by decide) := by
  rfl

theorem unpack_highBound :
    (1.01 : Float).toModel.unpack =
      .finite .positive 4548635623644201 (-52) (by decide) := by
  rfl

theorem hasValue_vMin : HasValue vMin least :=
  hasValue_of_unpack unpack_vMin

theorem hasValue_vMax : HasValue vMax 1 :=
  hasValue_one

/-- A double is no number, or below `V_MIN`, or above `V_MAX`, or a number between. -/
theorem position_cases (float : Float) :
    IsNan float ∨ float < vMin ∨ (¬float < vMin ∧ vMax < float) ∨
      (¬float < vMin ∧ ¬vMax < float ∧
        ∃ value, HasValue float value ∧ least ≤ value ∧ value ≤ 1) := by
  cases unpacked : float.toModel.unpack with
  | notANumber =>
      exact .inl unpacked
  | infinity sign =>
      rw [lt_iff_unpack, lt_iff_unpack, unpacked, unpack_vMin, unpack_vMax]
      cases sign with
      | positive =>
          exact .inr (.inr (.inl (by decide)))
      | negative =>
          exact .inr (.inl (by decide))
  | zero sign =>
      rw [lt_iff_unpack, lt_iff_unpack, unpacked, unpack_vMin, unpack_vMax]
      exact .inr (.inl (by cases sign <;> decide))
  | finite sign mantissa exponent positive =>
      cases sign with
      | negative =>
          rw [lt_iff_unpack, unpacked, unpack_vMin]
          exact .inr (.inl rfl)
      | positive =>
          have hasValue := hasValue_of_unpack unpacked
          by_cases isLess : float < vMin
          · exact .inr (.inl isLess)
          by_cases isMore : vMax < float
          · exact .inr (.inr (.inl ⟨isLess, isMore⟩))
          refine .inr (.inr (.inr ⟨isLess, isMore, _, hasValue, ?_, ?_⟩))
          · exact not_lt.mp (hasValue.lt_iff hasValue_vMin |>.not.mp isLess)
          · exact not_lt.mp (hasValue_vMax.lt_iff hasValue |>.not.mp isMore)

theorem clamp_cases (float : Float) :
    IsNan (clamp float vMin vMax) ∨
      ∃ value, HasValue (clamp float vMin vMax) value ∧ least ≤ value ∧ value ≤ 1 := by
  have ordered : ¬(vMax : Float) < vMin := by
    rw [hasValue_vMax.lt_iff hasValue_vMin]
    norm_num [least]
  rcases position_cases float with isNan | isLess | ⟨notLess, isMore⟩ |
    ⟨notLess, notMore, value, hasValue, bounds⟩
  · left
    have same : clamp float vMin vMax = float := by
      rw [clamp, if_neg (isNan.not_lt _), if_neg (isNan.not_gt _)]
    rwa [same]
  · right
    have same : clamp float vMin vMax = vMin := by
      rw [clamp, if_pos isLess, if_neg ordered]
    rw [same]
    exact ⟨least, hasValue_vMin, le_rfl, by norm_num [least]⟩
  · right
    have same : clamp float vMin vMax = vMax := by
      rw [clamp, if_neg notLess, if_pos isMore]
    rw [same]
    exact ⟨1, hasValue_vMax, by norm_num [least], le_rfl⟩
  · right
    have same : clamp float vMin vMax = float := by
      rw [clamp, if_neg notLess, if_neg notMore]
    rw [same]
    exact ⟨value, hasValue, bounds⟩

variable {operatorNum : Nat} {row : Fin operatorNum → Float}

theorem checkLast_eq_ok
    (some : 0 < operatorNum)
    (notLow : ¬row ⟨operatorNum - 1, Nat.sub_lt some Nat.one_pos⟩ < 0.99)
    (notHigh : ¬1.01 < row ⟨operatorNum - 1, Nat.sub_lt some Nat.one_pos⟩) :
    checkLast row = .ok () := by
  rw [checkLast, lastOf_eq some]
  change (if _ then _ else _) = _
  rw [if_neg (not_or_intro notLow notHigh)]
  rfl

theorem isNan_cumulativeAt
    (areNan : ∀ operator, IsNan (row operator))
    (index : Nat)
    (isIndex : index < operatorNum) :
    IsNan (cumulativeAt row index isIndex) := by
  induction index with
  | zero =>
      exact areNan _
  | succ index ih =>
      exact (ih _).add_left _

theorem checkLast_of_isNan
    {operator : Fin operatorNum}
    (isNan : IsNan (row operator)) :
    checkLast (cumulative (normalised row)) = .ok () := by
  have noSum : IsNan (total row) := isNan.sum (List.mem_ofFn.mpr ⟨operator, rfl⟩) _
  have noLast := isNan_cumulativeAt fun operator => noSum.div_right (row operator)
  exact
    checkLast_eq_ok (Nat.zero_lt_of_lt operator.isLt) ((noLast _ _).not_lt _)
      ((noLast _ _).not_gt _)

theorem cumulativeAt_eq_foldl
    {index : Nat}
    (isIndex : index < operatorNum) :
    cumulativeAt row index isIndex =
      ((List.ofFn row).tail.take index).foldl (· + ·)
        (row ⟨0, Nat.zero_lt_of_lt isIndex⟩) := by
  induction index with
  | zero =>
      rfl
  | succ index ih =>
      have isLater : index < (List.ofFn row).tail.length := by
        rw [List.length_tail, List.length_ofFn]
        omega
      rw [cumulativeAt, ih,
        List.take_succ_eq_append_getElem isLater, List.foldl_append, List.getElem_tail,
        List.getElem_ofFn]
      rfl

theorem haveValues_ofFn
    {values : Fin operatorNum → ℚ}
    (hasValue : ∀ operator, HasValue (row operator) (values operator)) :
    HaveValues (List.ofFn row) (List.ofFn values) := by
  rw [HaveValues, List.forall₂_iff_get]
  refine ⟨by simp, fun index isFirst isSecond => ?_⟩
  simpa using hasValue _

theorem cumulative_last
    {values : Fin operatorNum → ℚ}
    {index : Nat}
    (isLast : index + 1 = operatorNum)
    (hasValue : ∀ operator, HasValue (row operator) (values operator))
    (fits : (∑ operator, values operator) * raised index < 2 ^ 1023) :
    ∃ value,
      HasValue (cumulativeAt row index (isLast ▸ Nat.lt_succ_self index)) value ∧
        (∑ operator, values operator) * lowered index ≤ value ∧
          value ≤ (∑ operator, values operator) * raised index := by
  subst isLast
  have later :
      HaveValues (List.ofFn fun operator : Fin index => row operator.succ)
        (List.ofFn fun operator : Fin index => values operator.succ) :=
    haveValues_ofFn fun operator => hasValue operator.succ
  have sum :
      values 0 + (List.ofFn fun operator : Fin index => values operator.succ).sum =
        ∑ operator, values operator := by
    rw [List.sum_ofFn, Fin.sum_univ_succ]
  have summed := later.sum (hasValue 0)
  rw [sum, List.length_ofFn] at summed
  have same :
      cumulativeAt row index (Nat.lt_succ_self index) =
        (List.ofFn fun operator : Fin index => row operator.succ).foldl (· + ·)
          (row 0) := by
    rw [cumulativeAt_eq_foldl, List.ofFn_succ, List.tail_cons,
      List.take_of_length_le (by rw [List.length_ofFn])]
    rfl
  rw [same]
  exact summed fits

/-- What is in the row of a swarm after it has been clamped. -/
structure Clamped (values : Fin operatorNum → ℚ) : Prop where
  least_le : ∀ operator, least ≤ values operator
  le_one : ∀ operator, values operator ≤ 1

section

variable {values : Fin operatorNum → ℚ}

theorem Clamped.pos
    (clamped : Clamped values)
    (operator : Fin operatorNum) :
    0 < values operator :=
  lt_of_lt_of_le (by norm_num [least]) (clamped.least_le operator)

theorem Clamped.least_le_sum
    (clamped : Clamped values)
    (some : 0 < operatorNum) :
    least ≤ ∑ operator, values operator :=
  (clamped.least_le ⟨0, some⟩).trans
    (Finset.single_le_sum (fun operator _ => (clamped.pos operator).le)
      (Finset.mem_univ _))

theorem Clamped.sum_le
    (clamped : Clamped values)
    (few : operatorNum ≤ 2 ^ 40) :
    ∑ operator, values operator ≤ 2 ^ 40 := by
  calc
    ∑ operator, values operator ≤ ∑ _operator : Fin operatorNum, 1 :=
      Finset.sum_le_sum fun operator _ => clamped.le_one operator
    _ = operatorNum := by simp
    _ ≤ 2 ^ 40 := by exact_mod_cast few

theorem total_hasValue
    (hasValue : ∀ operator, HasValue (row operator) (values operator))
    (clamped : Clamped values)
    (few : operatorNum ≤ 2 ^ 40) :
    ∃ sum,
      HasValue (total row) sum ∧
        (∑ operator, values operator) * lowered operatorNum ≤ sum ∧
          sum ≤ (∑ operator, values operator) * raised operatorNum := by
  have summed := (haveValues_ofFn hasValue).sum hasValue_zero
  rw [zero_add, List.sum_ofFn, List.length_ofFn] at summed
  refine summed ?_
  calc
    (∑ operator, values operator) * raised operatorNum ≤ 2 ^ 40 * (1 + 1 / 2 ^ 11) :=
      mul_le_mul (clamped.sum_le few) (raised_le few)
        (zero_le_one.trans (one_le_raised _)) (by positivity)
    _ ≤ 2 ^ 41 := by norm_num
    _ < 2 ^ 1023 := pow_lt_pow_right₀ one_lt_two (by norm_num)

theorem part_hasValue
    {sum value : ℚ}
    {float sumFloat : Float}
    (hasValue : HasValue float value)
    (hasSum : HasValue sumFloat sum)
    (least_le : least ≤ value)
    (le_one : value ≤ 1)
    (notSmall : 1 / 2 ^ 6 ≤ sum)
    (notLarge : sum ≤ 2 ^ 41) :
    ∃ part,
      HasValue (float / sumFloat) part ∧ value / sum * (1 - place) ≤ part ∧
        part ≤ value / sum * (1 + place) := by
  have sumPos : 0 < sum := lt_of_lt_of_le (by norm_num) notSmall
  have ratioHigh : value / sum ≤ 2 ^ 6 := by
    rw [div_le_iff₀ sumPos]
    linarith
  have ratioLow : 1 / 2 ^ 46 ≤ value / sum := by
    have isLeast : (1 : ℚ) / 2 ^ 5 ≤ least := by norm_num [least]
    rw [le_div_iff₀ sumPos]
    linarith
  have place_le : (2 : ℚ) ^ (-1074 : Int) ≤ value / sum / 2 ^ 52 := by
    calc
      (2 : ℚ) ^ (-1074 : Int) ≤ 2 ^ (-98 : Int) :=
        zpow_le_zpow_right₀ one_le_two (by norm_num)
      _ = 1 / 2 ^ 46 / 2 ^ 52 := by norm_num
      _ ≤ value / sum / 2 ^ 52 := by gcongr
  obtain ⟨part, hasPart, error⟩ :=
    hasValue.div hasSum sumPos
      (ratioHigh.trans_lt (pow_lt_pow_right₀ one_lt_two (by norm_num)))
  rw [max_eq_left place_le] at error
  obtain ⟨notBelow, notAbove⟩ := abs_le.mp error
  have placed : value / sum / 2 ^ 52 = value / sum * place := by
    rw [place, mul_one_div]
  rw [placed] at notBelow notAbove
  exact ⟨part, hasPart, by linarith, by linarith⟩

theorem sum_parts
    {sum : ℚ}
    {parts : Fin operatorNum → ℚ}
    (some : 0 < operatorNum)
    (few : operatorNum ≤ 2 ^ 40)
    (clamped : Clamped values)
    (notLow : (∑ operator, values operator) * lowered operatorNum ≤ sum)
    (notHigh : sum ≤ (∑ operator, values operator) * raised operatorNum)
    (partsLow : ∀ operator, values operator / sum * (1 - place) ≤ parts operator)
    (partsHigh : ∀ operator, parts operator ≤ values operator / sum * (1 + place)) :
    1 - 1 / 2 ^ 10 ≤ ∑ operator, parts operator ∧
      ∑ operator, parts operator ≤ 1 + 1 / 2 ^ 10 := by
  have valuesPos : 0 < ∑ operator, values operator :=
    lt_of_lt_of_le (by norm_num [least]) (clamped.least_le_sum some)
  have sumPos : 0 < sum :=
    (mul_pos valuesPos (lowered_pos operatorNum)).trans_le notLow
  have low := lowered_ge few
  have high := raised_le few
  have ratioLow : 1 - 1 / 2 ^ 11 ≤ (∑ operator, values operator) / sum := by
    rw [le_div_iff₀ sumPos]
    nlinarith
  have ratioHigh : (∑ operator, values operator) / sum ≤ 1 + 1 / 2 ^ 11 := by
    rw [div_le_iff₀ sumPos]
    nlinarith
  have least_le :
      (∑ operator, values operator) / sum * (1 - place) ≤ ∑ operator, parts operator := by
    rw [Finset.sum_div, Finset.sum_mul]
    exact Finset.sum_le_sum fun operator _ => partsLow operator
  have le_most :
      ∑ operator, parts operator ≤ (∑ operator, values operator) / sum * (1 + place) := by
    rw [Finset.sum_div, Finset.sum_mul]
    exact Finset.sum_le_sum fun operator _ => partsHigh operator
  have small : place ≤ 1 / 2 ^ 12 := by norm_num [place]
  have positive := place_pos
  exact ⟨by nlinarith, by nlinarith⟩

theorem checkLast_of_values
    (some : 0 < operatorNum)
    (few : operatorNum ≤ 2 ^ 40)
    (hasValue : ∀ operator, HasValue (row operator) (values operator))
    (clamped : Clamped values) :
    checkLast (cumulative (normalised row)) = .ok () := by
  obtain ⟨sum, hasSum, notLow, notHigh⟩ := total_hasValue hasValue clamped few
  have low := lowered_ge few
  have high := raised_le few
  have notSmall : 1 / 2 ^ 6 ≤ sum := by
    have isLeast : (1 : ℚ) / 2 ^ 5 ≤ least := by norm_num [least]
    have := clamped.least_le_sum some
    nlinarith
  have notLarge : sum ≤ 2 ^ 41 := by
    have := clamped.sum_le few
    nlinarith [one_le_raised operatorNum]
  have hasParts := fun operator =>
    part_hasValue (hasValue operator) hasSum (clamped.least_le operator)
      (clamped.le_one operator) notSmall notLarge
  choose parts hasPart partsLow partsHigh using hasParts
  obtain ⟨partsLeast, partsMost⟩ :=
    sum_parts some few clamped notLow notHigh partsLow partsHigh
  have fewer : operatorNum - 1 ≤ 2 ^ 40 := (Nat.sub_le _ _).trans few
  have lowLast := lowered_ge fewer
  have highLast := raised_le fewer
  have most :
      (∑ operator, parts operator) * raised (operatorNum - 1) ≤
        (1 + 1 / 2 ^ 10) * (1 + 1 / 2 ^ 11) :=
    mul_le_mul partsMost highLast (zero_le_one.trans (one_le_raised _)) (by norm_num)
  have fits : (∑ operator, parts operator) * raised (operatorNum - 1) < 2 ^ 1023 := by
    calc
      (∑ operator, parts operator) * raised (operatorNum - 1) ≤ 2 ^ 1 :=
        most.trans (by norm_num)
      _ < 2 ^ 1023 := pow_lt_pow_right₀ one_lt_two (by norm_num)
  obtain ⟨last, hasLast, lastLeast, lastMost⟩ :=
    cumulative_last (Nat.sub_add_cancel some) hasPart fits
  have lowBound_le : ¬last < lowBound := by
    have isLow : lowBound ≤ (1 - 1 / 2 ^ 10) * (1 - 1 / 2 ^ 12) := by
      norm_num [lowBound]
    have product :=
      mul_le_mul partsLeast lowLast (by norm_num)
        ((by norm_num : (0 : ℚ) ≤ 1 - 1 / 2 ^ 10).trans partsLeast)
    exact not_lt.mpr (isLow.trans (product.trans lastLeast))
  have le_highBound : ¬highBound < last := by
    have isHigh : (1 + 1 / 2 ^ 10) * (1 + 1 / 2 ^ 11) ≤ highBound := by
      norm_num [highBound]
    exact not_lt.mpr (lastMost.trans (most.trans isHigh))
  refine checkLast_eq_ok some ?_ ?_
  · exact (hasLast.lt_iff (hasValue_of_unpack unpack_lowBound)).not.mpr lowBound_le
  · exact ((hasValue_of_unpack unpack_highBound).lt_iff hasLast).not.mpr le_highBound

end

/--
In double precision the check of the last probability passes for every row of clamped
positions, unless there are no operators or more than `2 ^ 40` of them.
-/
theorem normalises_float
    (some : 0 < operatorNum)
    (few : operatorNum ≤ 2 ^ 40) :
    Normalises Float operatorNum := by
  intro row
  by_cases someNan : ∃ operator, IsNan (clamp (row operator) vMin vMax)
  · obtain ⟨operator, isNan⟩ := someNan
    exact checkLast_of_isNan isNan
  · have numbers := fun operator =>
      (clamp_cases (row operator)).resolve_left fun isNan => someNan ⟨operator, isNan⟩
    choose values hasValue least_le le_one using numbers
    exact checkLast_of_values some few hasValue ⟨least_le, le_one⟩

/--
Over every run of mutators that share a scheduler its counters stay ordered, and a swarm
is in use.  No difference of counters falls below zero, and no access leaves its table.
The tuple of the mutations is written out in the source, so it is not that long.
-/
theorem counters_stay_ordered
    {Rand : Type}
    {swarmNum : Nat}
    {generator : Generator Rand}
    {rand : Rand}
    {mopt : MOpt Float Rand operatorNum swarmNum}
    (oneSwarm : 0 < swarmNum)
    (writtenOut : operatorNum ≤ 2 ^ 40)
    (isNew : new generator rand = .ok mopt)
    (calls : List Call) :
    Lasting (Node.run generator { mopt, mutators := [.new] } calls) := by
  have some := some_of_new oneSwarm isNew
  have normalises := normalises_float some writtenOut
  obtain ⟨start, isStart, ordered⟩ :
      ∃ start : MOpt Float Rand operatorNum swarmNum, _ :=
    exists_new_ordered normalises oneSwarm generator rand
  obtain rfl := Except.ok.inj (isStart.symm.trans isNew)
  exact lasting_run normalises some oneSwarm ordered calls

/--
Two mutators take turns at one operator, while finds are added and lost, until the pilot
period ends and the swarm is updated.
-/
theorem counters_of_two_mutators :
    ∃ mopt : MOpt Float Unit 1 1,
      new lowest () = .ok mopt ∧
        Lasting
          (Node.run lowest { mopt, mutators := [.new] }
            ([.mutate 0 0 0 fun _ _ => .ok .mutated, .create,
              .mutate 1 5 1 fun _ _ => .ok .skipped, .postExec 0 3, .postExec 1 4] ++
              List.replicate 50000 (.postExec 0 4))) := by
  obtain ⟨mopt, isNew, _⟩ : ∃ mopt : MOpt Float Unit 1 1, _ :=
    exists_new_ordered (normalises_float (by decide) (by decide)) (by decide) lowest ()
  exact ⟨mopt, isNew, counters_stay_ordered (by decide) (by decide) isNew _⟩

end MeFuzz.MOptScheduler
