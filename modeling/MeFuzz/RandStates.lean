import Mathlib.Dynamics.PeriodicPts.Lemmas
import MeFuzz.Rands

namespace MeFuzz.Rand

open Function

/-!
# States of the generators

The step of a generator loses nothing of its state.  So it comes back to where it
started, and never comes to a state that it does not leave.
-/

section

variable {width amount : Nat}

/-- Words can be told from what is left of them with their shifts. -/
theorem xor_injective
    {shift : BitVec width → BitVec width}
    (distrib : ∀ first second, shift (first ^^^ second) = shift first ^^^ shift second)
    (vanishes : ∀ word, shift^[width] word = 0) :
    Injective fun word => word ^^^ shift word := by
  intro first second same
  change first ^^^ shift first = second ^^^ shift second at same
  have fixed : shift (first ^^^ second) = first ^^^ second := by
    rw [distrib, ← BitVec.xor_right_inj first, ← BitVec.xor_assoc, same]
    simp [← BitVec.xor_assoc first first, BitVec.xor_assoc second]
  have gone := vanishes (first ^^^ second)
  rw [iterate_fixed fixed] at gone
  exact BitVec.xor_eq_zero_iff.mp gone

theorem xor_shiftLeft_injective
    (positive : 0 < amount) :
    Injective fun word : BitVec width => word ^^^ (word <<< amount) := by
  refine xor_injective (fun _ _ => BitVec.shiftLeft_xor_distrib _ _ _) fun word => ?_
  have shifted (count : Nat) :
      (fun left : BitVec width => left <<< amount)^[count] word = word <<< (amount * count) := by
    induction count with
    | zero =>
        simp
    | succ count ih =>
        rw [iterate_succ_apply', ih, Nat.mul_succ, BitVec.shiftLeft_add]
  exact (shifted width).trans
    (BitVec.shiftLeft_eq_zero (Nat.le_mul_of_pos_left width positive))

theorem xor_shiftRight_injective
    (positive : 0 < amount) :
    Injective fun word : BitVec width => word ^^^ (word >>> amount) := by
  refine xor_injective (fun _ _ => BitVec.ushiftRight_xor_distrib _ _ _) fun word => ?_
  have shifted (count : Nat) :
      (fun left : BitVec width => left >>> amount)^[count] word = word >>> (amount * count) := by
    induction count with
    | zero =>
        simp
    | succ count ih =>
        rw [iterate_succ_apply', ih, Nat.mul_succ, BitVec.shiftRight_add]
  exact (shifted width).trans
    (BitVec.ushiftRight_eq_zero (Nat.le_mul_of_pos_left width positive))

theorem rotateLeft_injective
    (isLess : amount < width) :
    Injective fun word : BitVec width => word.rotateLeft amount := by
  have back :
      LeftInverse (fun word : BitVec width => word.rotateRight amount) fun word =>
        word.rotateLeft amount := by
    refine fun word => BitVec.eq_of_getLsbD_eq fun index isBit => ?_
    rw [BitVec.getLsbD_rotateRight, Nat.mod_eq_of_lt isLess]
    simp only [BitVec.getLsbD_rotateLeft, Nat.mod_eq_of_lt isLess]
    by_cases below : index < width - amount
    · simp [below, show amount + index < width by omega]
    · have wraps : index - (width - amount) < amount := by omega
      simp [below, wraps, isBit, show width - amount + (index - (width - amount)) = index by omega]
  exact back.injective

end

/-- The number that `XorShift64Rand::set_seed` changes its seed by. -/
def xorShift64Constant : BitVec 64 :=
  0x1234567890abcdef

/-- `XorShift64Rand::next`; the number that it gives is the next state. -/
def xorShift64 (state : BitVec 64) : BitVec 64 :=
  let x := state ^^^ (state <<< 13)
  let x := x ^^^ (x >>> 7)
  x ^^^ (x <<< 17)

/-- `RomuDuoJrRand`, which is the `StdRand`. -/
structure RomuDuoJr where
  xState : BitVec 64
  yState : BitVec 64
  deriving DecidableEq

namespace RomuDuoJr

/-- `with_seed`. -/
def withSeed (seed : BitVec 64) : RomuDuoJr :=
  ⟨seed ^^^ 0x12345, seed ^^^ 0x6789A⟩

/-- What `next` makes of the state; the number that it gives is `xState`. -/
def next (rand : RomuDuoJr) : RomuDuoJr :=
  ⟨15241094284759029579 * rand.yState, (rand.yState - rand.xState).rotateLeft 27⟩

end RomuDuoJr

theorem xorShift64_injective : Injective xorShift64 :=
  (xor_shiftLeft_injective (by decide : 0 < 17)).comp
    ((xor_shiftRight_injective (by decide : 0 < 7)).comp
      (xor_shiftLeft_injective (by decide : 0 < 13)))

/-- One seed makes the generator give zeros only; with any other it never gives a zero. -/
theorem xorShift64_gives_zero_iff
    (seed : BitVec 64) :
    ((∃ count, xorShift64^[count + 1] (seed ^^^ xorShift64Constant) = 0) ↔
        seed = xorShift64Constant) ∧
      ((∀ count, xorShift64^[count + 1] (seed ^^^ xorShift64Constant) = 0) ↔
        seed = xorShift64Constant) := by
  have stays (count : Nat) : xorShift64^[count] 0 = 0 :=
    iterate_fixed rfl count
  have isConstant
      (count : Nat)
      (isZero : xorShift64^[count + 1] (seed ^^^ xorShift64Constant) = 0) :
      seed = xorShift64Constant := by
    rw [← stays (count + 1)] at isZero
    exact BitVec.xor_eq_zero_iff.mp (xorShift64_injective.iterate (count + 1) isZero)
  have givesZeros
      (same : seed = xorShift64Constant)
      (count : Nat) :
      xorShift64^[count + 1] (seed ^^^ xorShift64Constant) = 0 := by
    rw [same, BitVec.xor_self]
    exact stays (count + 1)
  constructor
  · exact ⟨fun ⟨count, isZero⟩ => isConstant count isZero, fun same => ⟨0, givesZeros same 0⟩⟩
  · exact ⟨fun zeros => isConstant 0 (zeros 0), givesZeros⟩

theorem RomuDuoJr.next_injective : Injective RomuDuoJr.next := by
  rintro ⟨x, y⟩ ⟨otherX, otherY⟩ same
  obtain ⟨sameProduct, sameRotated⟩ := RomuDuoJr.mk.inj same
  have undo (word : BitVec 64) : 4888251478366616163 * (15241094284759029579 * word) = word := by
    rw [← BitVec.mul_assoc]
    exact BitVec.one_mul word
  have sameY : y = otherY := by
    rw [← undo y, ← undo otherY]
    exact congrArg (4888251478366616163 * ·) sameProduct
  have sameDifference := rotateLeft_injective (by decide : 27 < 64) sameRotated
  subst sameY
  rw [BitVec.sub_right_inj] at sameDifference
  exact congrArg (RomuDuoJr.mk · y) sameDifference

instance : Finite RomuDuoJr := by
  refine Finite.of_injective (fun rand => (rand.xState.toFin, rand.yState.toFin)) ?_
  rintro ⟨⟨x⟩, ⟨y⟩⟩ ⟨⟨otherX⟩, ⟨otherY⟩⟩ same
  cases same
  rfl

/--
From every seed the generator comes back to its first state, and never comes to the
state that it would not leave.
-/
theorem romuDuoJr_recurs
    (seed : BitVec 64) :
    (∃ period > 0, ∀ count,
        RomuDuoJr.next^[count + period] (.withSeed seed) =
          RomuDuoJr.next^[count] (.withSeed seed)) ∧
      ∀ count, RomuDuoJr.next^[count] (.withSeed seed) ≠ ⟨0, 0⟩ := by
  constructor
  · obtain ⟨period, positive, isPeriod⟩ :=
      mem_periodicPts.mp (RomuDuoJr.next_injective.mem_periodicPts (.withSeed seed))
    refine ⟨period, positive, fun count => ?_⟩
    rw [iterate_add_apply, isPeriod]
  · intro count isZero
    have stays : RomuDuoJr.next^[count] ⟨0, 0⟩ = ⟨0, 0⟩ := iterate_fixed rfl count
    rw [← stays] at isZero
    have started := RomuDuoJr.next_injective.iterate count isZero
    obtain ⟨isX, isY⟩ := RomuDuoJr.mk.inj started
    have differs := (BitVec.xor_eq_zero_iff.mp isX).symm.trans (BitVec.xor_eq_zero_iff.mp isY)
    exact absurd differs (by decide)

end MeFuzz.Rand
