import Mathlib.Tactic

namespace MeFuzz.Rand

/-!
# Random numbers

A generator is the sequence of the 64-bit values that it gives.  What is drawn
below a bound are exactly the numbers below it.
-/

/-- `u64::MAX`. -/
def maxValue : Nat :=
  2 ^ 64 - 1

/-- The loop of `below`, which draws until a value is not biased. -/
def belowLoop (upperBoundExcl : Nat) : List Nat → Option (Nat × List Nat)
  | [] => none
  | unbiasedRnd :: draws =>
      if unbiasedRnd < maxValue - maxValue % upperBoundExcl then
        some (unbiasedRnd % upperBoundExcl, draws)
      else belowLoop upperBoundExcl draws

/-- `Rand::below`; `none` while the loop needs more values. -/
def below
    (upperBoundExcl : Nat)
    (draws : List Nat) : Option (Nat × List Nat) :=
  if upperBoundExcl ≤ 1 then some (0, draws)
  else belowLoop upperBoundExcl draws

/-- `Rand::between`. -/
def between
    (lowerBoundIncl upperBoundIncl : Nat)
    (draws : List Nat) : Option (Nat × List Nat) :=
  (below (upperBoundIncl - lowerBoundIncl + 1) draws).map
    fun (value, rest) => (lowerBoundIncl + value, rest)

variable {upper value : Nat}
variable {draws rest : List Nat}

theorem belowLoop_lt
    (positive : 0 < upper)
    (drawn : belowLoop upper draws = some (value, rest)) :
    value < upper := by
  induction draws with
  | nil =>
      cases drawn
  | cons draw draws ih =>
      rw [belowLoop] at drawn
      split at drawn
      · cases drawn
        exact Nat.mod_lt _ positive
      · exact ih drawn

theorem below_lt
    (positive : 0 < upper)
    (drawn : below upper draws = some (value, rest)) :
    value < upper := by
  unfold below at drawn
  split at drawn
  · cases drawn
    exact positive
  · exact belowLoop_lt positive drawn

theorem exists_below
    (isBelow : value < upper)
    (fits : upper ≤ maxValue) :
    ∃ draws, below upper draws = some (value, []) := by
  by_cases single : upper ≤ 1
  · refine ⟨[], ?_⟩
    rw [below, if_pos single]
    obtain rfl : value = 0 := by omega
    rfl
  · refine ⟨[value], ?_⟩
    have accepted : value < maxValue - maxValue % upper := by
      have parts := Nat.div_add_mod maxValue upper
      have whole : upper * 1 ≤ upper * (maxValue / upper) :=
        Nat.mul_le_mul_left _ ((Nat.one_le_div_iff (by omega)).mpr fits)
      omega
    rw [below, if_neg single, belowLoop, if_pos accepted,
      Nat.mod_eq_of_lt isBelow]

theorem between_le
    {lower : Nat}
    (ordered : lower ≤ upper)
    (drawn : between lower upper draws = some (value, rest)) :
    value ≤ upper := by
  obtain ⟨⟨offset, left⟩, drawnBelow, same⟩ := Option.map_eq_some_iff.mp drawn
  have isBelow := below_lt (Nat.succ_pos _) drawnBelow
  obtain ⟨rfl, rfl⟩ := Prod.mk.inj same
  omega

end MeFuzz.Rand
