import MeFuzz.Rands

namespace MeFuzz.Rand

/-!
# Draws without bias

The loop of `below` accepts the values below the greatest multiple of the bound that
a 64-bit value can have.  Each remainder occurs once between two multiples, so every
result has as many values that give it.
-/

/-- The values of 64 bits for which one round of the loop ends with a result. -/
def preimages (upperBoundExcl value : Nat) : Finset Nat :=
  (Finset.range (2 ^ 64)).filter fun unbiasedRnd =>
    belowLoop upperBoundExcl [unbiasedRnd] = some (value, [])

section

variable {upper value unbiasedRnd : Nat}

theorem belowLoop_cons
    (draws : List Nat) :
    belowLoop upper (unbiasedRnd :: draws) =
      if unbiasedRnd < upper * (maxValue / upper) then some (unbiasedRnd % upper, draws)
      else belowLoop upper draws := by
  have threshold : maxValue - maxValue % upper = upper * (maxValue / upper) := by
    have parts := Nat.div_add_mod maxValue upper
    omega
  rw [belowLoop, threshold]

theorem belowLoop_single_iff :
    belowLoop upper [unbiasedRnd] = some (value, []) ↔
      unbiasedRnd < upper * (maxValue / upper) ∧ unbiasedRnd % upper = value := by
  rw [belowLoop_cons]
  split
  · rename_i accepted
    rw [Option.some.injEq, Prod.mk.injEq]
    exact ⟨fun same => ⟨accepted, same.1⟩, fun holds => ⟨holds.2, rfl⟩⟩
  · rename_i rejected
    rw [belowLoop]
    exact iff_of_false (fun same => by cases same) fun holds => rejected holds.1

theorem below_cons
    (draws : List Nat)
    (notTrivial : 1 < upper) :
    below upper (unbiasedRnd :: draws) =
      if unbiasedRnd < upper * (maxValue / upper) then some (unbiasedRnd % upper, draws)
      else below upper draws := by
  unfold below
  rw [if_neg (Nat.not_le.mpr notTrivial), if_neg (Nat.not_le.mpr notTrivial), belowLoop_cons]

theorem preimages_eq
    (isResult : value < upper) :
    preimages upper value =
      (Finset.range (maxValue / upper)).image fun multiple =>
        upper * multiple + value := by
  have positive : 0 < upper := Nat.zero_lt_of_lt isResult
  have atMost : upper * (maxValue / upper) ≤ maxValue :=
    Nat.mul_div_le maxValue upper
  ext unbiasedRnd
  rw [preimages, Finset.mem_filter, Finset.mem_range, belowLoop_single_iff,
    Finset.mem_image]
  constructor
  · rintro ⟨-, accepted, rfl⟩
    refine ⟨unbiasedRnd / upper, ?_, Nat.div_add_mod unbiasedRnd upper⟩
    exact Finset.mem_range.mpr (Nat.div_lt_of_lt_mul accepted)
  · rintro ⟨multiple, isMultiple, rfl⟩
    have below : multiple + 1 ≤ maxValue / upper := Finset.mem_range.mp isMultiple
    have accepted : upper * multiple + value < upper * (maxValue / upper) := by
      calc
        upper * multiple + value < upper * multiple + upper :=
          Nat.add_lt_add_left isResult _
        _ = upper * (multiple + 1) := (Nat.mul_succ upper multiple).symm
        _ ≤ upper * (maxValue / upper) := Nat.mul_le_mul_left upper below
    refine ⟨?_, accepted, ?_⟩
    · exact (accepted.trans_le atMost).trans (by decide)
    · rw [Nat.mul_add_mod, Nat.mod_eq_of_lt isResult]

theorem card_preimages
    (isResult : value < upper) :
    (preimages upper value).card = maxValue / upper := by
  rw [preimages_eq isResult, Finset.card_image_of_injective, Finset.card_range]
  intro first second same
  have positive : 0 < upper := Nat.zero_lt_of_lt isResult
  exact Nat.eq_of_mul_eq_mul_left positive (Nat.add_right_cancel same)

end

/--
Every result below the bound has the same number of 64-bit values that give it, and
nothing else is drawn.  A value that is accepted is returned modulo the bound.
-/
theorem below_is_unbiased
    (upperBoundExcl : Nat)
    (positive : 0 < upperBoundExcl) :
    (∀ value < upperBoundExcl,
      (preimages upperBoundExcl value).card = maxValue / upperBoundExcl) ∧
      (∀ draws value rest,
        below upperBoundExcl draws = some (value, rest) → value < upperBoundExcl) ∧
        (1 < upperBoundExcl →
          (∀ value < upperBoundExcl,
            ((Finset.range (2 ^ 64)).filter fun unbiasedRnd =>
                below upperBoundExcl [unbiasedRnd] = some (value, [])).card =
              maxValue / upperBoundExcl) ∧
            ∀ unbiasedRnd draws,
              below upperBoundExcl (unbiasedRnd :: draws) =
                if unbiasedRnd < upperBoundExcl * (maxValue / upperBoundExcl) then
                  some (unbiasedRnd % upperBoundExcl, draws)
                else below upperBoundExcl draws) := by
  refine ⟨fun _ isResult => card_preimages isResult,
    fun _ _ _ drawn => below_lt positive drawn, fun notTrivial => ⟨?_, ?_⟩⟩
  · intro value isResult
    rw [← card_preimages isResult, preimages]
    unfold below
    simp only [if_neg (Nat.not_le.mpr notTrivial)]
  · exact fun _ draws => below_cons draws notTrivial

/-- A die has as many values for each of its faces. -/
theorem below_is_unbiased_six :
    (preimages 6 0).card = (preimages 6 5).card ∧
      ∀ draws value rest, below 6 draws = some (value, rest) → value < 6 := by
  obtain ⟨counts, isBelow, -⟩ := below_is_unbiased 6 (by decide)
  exact ⟨(counts 0 (by decide)).trans (counts 5 (by decide)).symm, isBelow⟩

end MeFuzz.Rand
