import MeFuzz.MapFeedback

namespace MeFuzz.Feedbacks

/-!
# The next power of two

The trick shifts the greatest value of a type down to the bits that are used.  The
greatest value of a signed type has one bit less than the type is wide, so there it
is shifted one place too far.
-/

/-- The signed integers of a width. -/
structure Signed (width : Nat) where
  bits : BitVec width
  deriving DecidableEq

namespace Signed

variable {width : Nat}

/-- The number that is stored. -/
def toInt (n : Signed width) : Int :=
  n.bits.toInt

instance : LE (Signed width) where
  le first second := first.toInt ≤ second.toInt

instance : DecidableLE (Signed width) :=
  fun first second => inferInstanceAs (Decidable (first.toInt ≤ second.toInt))

/-- `saturating_add`. -/
def saturatingAdd (first second : Signed width) : Signed width :=
  if 2 ^ (width - 1) ≤ first.toInt + second.toInt then ⟨BitVec.intMax width⟩
  else if first.toInt + second.toInt < -2 ^ (width - 1) then ⟨BitVec.intMin width⟩
  else ⟨first.bits + second.bits⟩

instance : PrimInt (Signed width) where
  one := ⟨1⟩
  maxValue := ⟨BitVec.intMax width⟩
  sub first second := ⟨first.bits - second.bits⟩
  saturatingAdd := saturatingAdd
  shiftRight n places := ⟨n.bits.sshiftRight places⟩
  leadingZeros n := width - n.bits.toNat.size

end Signed

/-- The least power of two that is at least a number, or the greatest value there is. -/
def IsNextPowerOfTwo (most n result : Int) : Prop :=
  (n ≤ 1 → result = 1) ∧
    (1 < n →
      (∃ k : Nat,
        result = 2 ^ k ∧ n ≤ result ∧ result ≤ most ∧
          ∀ other : Nat, n ≤ 2 ^ other → result ≤ 2 ^ other) ∨
      result = most ∧ ∀ other : Nat, n ≤ 2 ^ other → most < 2 ^ other)

theorem ones_div_pow
    {width used : Nat}
    (notMore : used ≤ width) :
    (2 ^ width - 1) / 2 ^ (width - used) = 2 ^ used - 1 := by
  have parts : 2 ^ width = 2 ^ used * 2 ^ (width - used) := by
    rw [← pow_add, Nat.add_sub_cancel' notMore]
  have used_pos : 0 < 2 ^ used := Nat.two_pow_pos used
  have left_pos : 0 < 2 ^ (width - used) := Nat.two_pow_pos _
  refine Nat.div_eq_of_lt_le ?_ ?_
  · rw [Nat.sub_mul, one_mul, ← parts]
    omega
  · rw [Nat.sub_add_cancel used_pos, ← parts]
    exact Nat.sub_lt (Nat.two_pow_pos width) one_pos

theorem le_two_pow_iff
    {n other : Nat}
    (positive : 0 < n) :
    n ≤ 2 ^ other ↔ (n - 1).size ≤ other := by
  rw [Nat.size_le]
  omega

theorem size_pred_pos
    {n : Nat}
    (isMore : 1 < n) :
    0 < (n - 1).size :=
  Nat.size_pos.mpr (Nat.sub_pos_of_lt isMore)

section

variable {width : Nat}
variable {n : BitVec width}

theorem toNat_one_of_pos
    (positive : 0 < width) :
    (PrimInt.one : BitVec width).toNat = 1 := by
  change (1 : BitVec width).toNat = 1
  rw [BitVec.ofNat_eq_ofNat, BitVec.toNat_ofNat]
  exact Nat.mod_eq_of_lt (Nat.one_lt_two_pow positive.ne')

theorem le_one_iff
    (positive : 0 < width) :
    n ≤ PrimInt.one ↔ n.toNat ≤ 1 := by
  rw [BitVec.le_def, toNat_one_of_pos positive]

theorem toNat_pred
    (positive : 0 < width)
    (isMore : 1 < n.toNat) :
    (PrimInt.sub n PrimInt.one : BitVec width).toNat = n.toNat - 1 := by
  change (n - PrimInt.one).toNat = _
  rw [BitVec.toNat_sub_of_le, toNat_one_of_pos positive]
  rw [BitVec.le_def, toNat_one_of_pos positive]
  exact isMore.le

theorem size_pred_le : (n.toNat - 1).size ≤ width :=
  Nat.size_le.mpr ((Nat.sub_le _ _).trans_lt n.isLt)

theorem toNat_next
    (positive : 0 < width)
    (isMore : 1 < n.toNat) :
    (saturatingNextPowerOfTwo n).toNat =
      if (n.toNat - 1).size < width then 2 ^ (n.toNat - 1).size
      else 2 ^ width - 1 := by
  have notOne : ¬n ≤ PrimInt.one := fun isOne =>
    absurd ((le_one_iff positive).mp isOne) (Nat.not_le.mpr isMore)
  have ones :
      (PrimInt.shiftRight (PrimInt.maxValue : BitVec width)
          (PrimInt.leadingZeros (PrimInt.sub n PrimInt.one))).toNat =
        2 ^ (n.toNat - 1).size - 1 := by
    change (BitVec.allOnes width >>>
      (width - (PrimInt.sub n PrimInt.one : BitVec width).toNat.size)).toNat = _
    rw [toNat_pred positive isMore, BitVec.toNat_ushiftRight, BitVec.toNat_allOnes,
      Nat.shiftRight_eq_div_pow, ones_div_pow size_pred_le]
  have next_pos : 0 < 2 ^ (n.toNat - 1).size := Nat.two_pow_pos _
  rw [saturatingNextPowerOfTwo, if_neg notOne]
  generalize PrimInt.shiftRight (PrimInt.maxValue : BitVec width) _ = shifted at ones ⊢
  change
    (if shifted.toNat + (PrimInt.one : BitVec width).toNat < 2 ^ width then
        shifted + PrimInt.one
      else BitVec.allOnes width).toNat = _
  rw [ones, toNat_one_of_pos positive, Nat.sub_add_cancel next_pos]
  simp only [Nat.pow_lt_pow_iff_right one_lt_two]
  split
  · rename_i fits
    rw [BitVec.toNat_add, ones, toNat_one_of_pos positive,
      Nat.sub_add_cancel next_pos]
    exact Nat.mod_eq_of_lt (Nat.pow_lt_pow_right one_lt_two fits)
  · exact BitVec.toNat_allOnes

theorem isNextPowerOfTwo_unsigned
    (positive : 0 < width) :
    IsNextPowerOfTwo (2 ^ width - 1) n.toNat (saturatingNextPowerOfTwo n).toNat := by
  refine ⟨fun isOne => ?_, fun isMore => ?_⟩
  · have isOne : n ≤ PrimInt.one := (le_one_iff positive).mpr (by exact_mod_cast isOne)
    rw [saturatingNextPowerOfTwo, if_pos isOne, toNat_one_of_pos positive]
    rfl
  · have isMore : 1 < n.toNat := by exact_mod_cast isMore
    have reaches :
        ∀ other : Nat, (n.toNat : Int) ≤ 2 ^ other ↔ (n.toNat - 1).size ≤ other := by
      intro other
      rw [← le_two_pow_iff (Nat.zero_lt_of_lt isMore)]
      exact_mod_cast Iff.rfl
    rw [toNat_next positive isMore]
    split
    · rename_i fits
      refine .inl ⟨(n.toNat - 1).size, by push_cast; rfl, ?_, ?_, ?_⟩
      · push_cast
        exact (reaches _).mpr le_rfl
      · have below : 2 ^ (n.toNat - 1).size < 2 ^ width :=
          Nat.pow_lt_pow_right one_lt_two fits
        push_cast
        exact Int.le_sub_one_of_lt (by exact_mod_cast below)
      · intro other isReached
        push_cast
        exact pow_le_pow_right₀ one_le_two ((reaches other).mp isReached)
    · rename_i notFits
      refine .inr ⟨?_, fun other isReached => ?_⟩
      · rw [Nat.cast_sub Nat.one_le_two_pow]
        push_cast
        rfl
      · have wide : width ≤ other :=
          (Nat.not_lt.mp notFits).trans ((reaches other).mp isReached)
        have grows : (2 : Int) ^ width ≤ 2 ^ other := pow_le_pow_right₀ one_le_two wide
        exact Int.lt_of_lt_of_le (Int.sub_one_lt_of_le le_rfl) grows

end

namespace Signed

variable {width : Nat}
variable {n : Signed width}

theorem toInt_one
    (wide : 2 ≤ width) :
    (PrimInt.one : Signed width).toInt = 1 := by
  change (1 : BitVec width).toInt = 1
  have isOne : (1 : BitVec width).toNat = 1 := toNat_one_of_pos (by omega)
  have most : 2 ^ 2 ≤ 2 ^ width := Nat.pow_le_pow_right two_pos wide
  rw [BitVec.toInt_eq_toNat_cond, isOne, if_pos (by omega)]
  rfl

theorem le_one_iff
    (wide : 2 ≤ width) :
    n ≤ PrimInt.one ↔ n.toInt ≤ 1 := by
  change n.toInt ≤ (PrimInt.one : Signed width).toInt ↔ _
  rw [toInt_one wide]

theorem toNat_bits
    (isMore : 1 < n.toInt) :
    (n.bits.toNat : Int) = n.toInt ∧ 2 * n.bits.toNat < 2 ^ width := by
  unfold toInt at isMore ⊢
  have below := n.bits.isLt
  rw [BitVec.toInt_eq_toNat_cond] at isMore ⊢
  split
  · rename_i fits
    exact ⟨rfl, fits⟩
  · rename_i notFits
    rw [if_neg notFits] at isMore
    push_cast at isMore
    have negative : (n.bits.toNat : Int) < 2 ^ width := by exact_mod_cast below
    omega

theorem toNat_pred
    (wide : 2 ≤ width)
    (isMore : 1 < n.toInt) :
    (PrimInt.sub n PrimInt.one : Signed width).bits.toNat = n.bits.toNat - 1 := by
  have isValue := (toNat_bits isMore).1
  exact Feedbacks.toNat_pred (by omega) (by omega)

theorem size_pred_le
    (isMore : 1 < n.toInt) :
    (n.bits.toNat - 1).size ≤ width - 1 := by
  obtain ⟨isValue, below⟩ := toNat_bits isMore
  have notZero : width ≠ 0 := by
    rintro rfl
    omega
  have halves : 2 ^ width = 2 * 2 ^ (width - 1) := by
    rw [← pow_succ', Nat.sub_add_cancel (Nat.pos_of_ne_zero notZero)]
  refine Nat.size_le.mpr ?_
  omega

theorem toInt_next
    (wide : 2 ≤ width)
    (isMore : 1 < n.toInt) :
    (saturatingNextPowerOfTwo n).toInt = 2 ^ ((n.bits.toNat - 1).size - 1) := by
  obtain ⟨isValue, below⟩ := toNat_bits isMore
  have used_pos : 0 < (n.bits.toNat - 1).size := size_pred_pos (by omega)
  have used_le := size_pred_le isMore
  generalize isUsed : (n.bits.toNat - 1).size = used at used_pos used_le ⊢
  have notOne : ¬n ≤ PrimInt.one := fun isOne =>
    absurd ((le_one_iff wide).mp isOne) (by omega)
  have ones :
      (PrimInt.shiftRight (PrimInt.maxValue : Signed width)
          (PrimInt.leadingZeros (PrimInt.sub n PrimInt.one))).toInt =
        2 ^ (used - 1) - 1 := by
    change ((BitVec.intMax width).sshiftRight
      (width - (PrimInt.sub n PrimInt.one : Signed width).bits.toNat.size)).toInt = _
    have places : width - used = (width - 1) - (used - 1) := by omega
    have shifted := @ones_div_pow (width - 1) (used - 1) (by omega)
    have most : 1 ≤ 2 ^ (width - 1) := Nat.one_le_two_pow
    have least : 1 ≤ 2 ^ (used - 1) := Nat.one_le_two_pow
    rw [toNat_pred wide isMore, isUsed, BitVec.toInt_sshiftRight, BitVec.toInt_intMax,
      Int.shiftRight_eq_div_pow, places]
    have cast := congrArg (Nat.cast : Nat → Int) shifted
    push_cast [most, least] at cast
    exact_mod_cast cast
  have fits : 2 ^ (used - 1) < (2 : Int) ^ (width - 1) :=
    pow_lt_pow_right₀ one_lt_two (by omega)
  have least : (0 : Int) < 2 ^ (used - 1) := by positivity
  have twice : (2 : Int) ^ width = 2 * 2 ^ (width - 1) := by
    rw [← pow_succ', Nat.sub_add_cancel (by omega)]
  rw [saturatingNextPowerOfTwo, if_neg notOne]
  generalize PrimInt.shiftRight (PrimInt.maxValue : Signed width) _ = shifted at ones ⊢
  change (saturatingAdd shifted PrimInt.one).toInt = _
  rw [saturatingAdd, ones, toInt_one wide, sub_add_cancel, if_neg (by omega),
    if_neg (by omega)]
  change (shifted.bits + (PrimInt.one : Signed width).bits).toInt = _
  rw [BitVec.toInt_add]
  change (shifted.toInt + (PrimInt.one : Signed width).toInt).bmod (2 ^ width) = _
  rw [ones, toInt_one wide, sub_add_cancel]
  apply Int.bmod_eq_of_le
  all_goals
    push_cast
    omega

theorem toInt_next_lt
    (wide : 2 ≤ width)
    (isMore : 1 < n.toInt) :
    (saturatingNextPowerOfTwo n).toInt < n.toInt := by
  have isValue := (toNat_bits isMore).1
  have used_pos : 0 < (n.bits.toNat - 1).size := size_pred_pos (by omega)
  have reached : 2 ^ ((n.bits.toNat - 1).size - 1) ≤ n.bits.toNat - 1 :=
    Nat.lt_size.mp (Nat.sub_lt used_pos one_pos)
  rw [toInt_next wide isMore, ← isValue]
  have cast : ((2 ^ ((n.bits.toNat - 1).size - 1) : Nat) : Int) < n.bits.toNat := by
    omega
  exact_mod_cast cast

theorem toInt_le_most : n.toInt ≤ 2 ^ (width - 1) - 1 :=
  BitVec.toInt_le

theorem isNextPowerOfTwo_iff
    (wide : 2 ≤ width) :
    IsNextPowerOfTwo (2 ^ (width - 1) - 1) n.toInt (saturatingNextPowerOfTwo n).toInt ↔
      n.toInt ≤ 1 := by
  constructor
  · rintro ⟨-, next⟩
    by_contra isMore
    have isMore : 1 < n.toInt := Int.lt_of_not_ge isMore
    have isLess := toInt_next_lt wide isMore
    rcases next isMore with ⟨k, -, reaches, -⟩ | ⟨isMost, -⟩
    · omega
    · have notMore := @toInt_le_most width n
      omega
  · intro isOne
    refine ⟨fun _ => ?_, fun isMore => absurd isOne (Int.not_le.mpr isMore)⟩
    rw [saturatingNextPowerOfTwo, if_pos ((le_one_iff wide).mpr isOne), toInt_one wide]

end Signed

/--
Nothing is asked of a machine that a debug build refuses: the subtraction does not
overflow, and the shift is by less than the width.
-/
def Computes
    {T : Type}
    [LE T]
    [PrimInt T]
    (toInt : T → Int)
    (width : Nat)
    (n : T) : Prop :=
  ¬n ≤ PrimInt.one →
    toInt (PrimInt.sub n PrimInt.one) = toInt n - 1 ∧
      PrimInt.leadingZeros (PrimInt.sub n PrimInt.one) < width

/-- A greater new value is novel where a smaller one is. -/
def MonotoneInNew
    {T : Type}
    [LE T]
    [DecidableLE T]
    [PrimInt T]
    (old : T) : Prop :=
  ∀ new later : T, new ≤ later →
    NextPow2IsNovel.isNovel old new = true → NextPow2IsNovel.isNovel old later = true

theorem monotoneInNew
    {T : Type}
    [LE T]
    [DecidableLE T]
    [PrimInt T]
    {old : T}
    (trans : ∀ {first second third : T}, first ≤ second → second ≤ third → first ≤ third) :
    MonotoneInNew old := by
  intro new later grows isNovel
  unfold NextPow2IsNovel.isNovel at isNovel ⊢
  split at isNovel
  · cases isNovel
  · rename_i isMore
    rw [if_neg fun notMore => isMore (trans grows notMore)]
    exact decide_eq_true (trans (of_decide_eq_true isNovel) grows)

/-- A value of a primitive integer type. -/
inductive IntValue (width : Nat) where
  | unsigned (n : BitVec width)
  | signed (n : Signed width)

namespace IntValue

variable {width : Nat}

/-- The number that is stored. -/
def toInt : IntValue width → Int
  | unsigned n => n.toNat
  | signed n => n.toInt

/-- Whether the type has a sign. -/
def IsSigned : IntValue width → Prop
  | unsigned _ => False
  | signed _ => True

/-- `T::max_value()`. -/
def most : IntValue width → Int
  | unsigned _ => 2 ^ width - 1
  | signed _ => 2 ^ (width - 1) - 1

/-- `saturating_next_power_of_two`. -/
def saturatingNext : IntValue width → IntValue width
  | unsigned n => unsigned (saturatingNextPowerOfTwo n)
  | signed n => signed (saturatingNextPowerOfTwo n)

/-- The function is right, does not panic, and leaves novelty monotone. -/
def IsRight : IntValue width → Prop
  | unsigned n =>
      IsNextPowerOfTwo (unsigned n).most (unsigned n).toInt (unsigned n).saturatingNext.toInt ∧
        Computes (fun n : BitVec width => (n.toNat : Int)) width n ∧ MonotoneInNew n
  | signed n =>
      IsNextPowerOfTwo (signed n).most (signed n).toInt (signed n).saturatingNext.toInt ∧
        Computes Signed.toInt width n ∧ MonotoneInNew n

theorem leadingZeros_lt
    {bits : BitVec width}
    {n : Nat}
    (isPred : bits.toNat = n - 1)
    (isMore : 1 < n) :
    width - bits.toNat.size < width := by
  have used_pos := size_pred_pos isMore
  have used_le : (n - 1).size ≤ width := isPred ▸ Nat.size_le.mpr bits.isLt
  rw [isPred]
  omega

theorem computes_unsigned
    {n : BitVec width}
    (positive : 0 < width) :
    Computes (fun n : BitVec width => (n.toNat : Int)) width n := by
  intro notOne
  have isMore : 1 < n.toNat := Nat.not_le.mp (mt (le_one_iff positive).mpr notOne)
  have isPred := toNat_pred positive isMore
  constructor
  · dsimp only
    rw [isPred]
    omega
  · exact leadingZeros_lt isPred isMore

theorem computes_signed
    {n : Signed width}
    (wide : 2 ≤ width) :
    Computes Signed.toInt width n := by
  intro notOne
  have isMore : 1 < n.toInt := Int.not_le.mp (mt (Signed.le_one_iff wide).mpr notOne)
  obtain ⟨isValue, below⟩ := Signed.toNat_bits isMore
  have isPred := Signed.toNat_pred wide isMore
  constructor
  · rw [← isValue, Signed.toInt, BitVec.toInt_eq_toNat_cond, isPred, if_pos (by omega)]
    omega
  · exact leadingZeros_lt isPred (by omega)

/--
For every width, the function is right for the unsigned type, and for the numbers up
to one of the signed type.
-/
theorem next_power_of_two_iff
    (value : IntValue width)
    (wide : 2 ≤ width) :
    value.IsRight ↔ ¬(value.IsSigned ∧ 1 < value.toInt) := by
  cases value with
  | unsigned n =>
      refine iff_of_true ⟨?_, ?_, ?_⟩ And.left
      · exact isNextPowerOfTwo_unsigned (by omega)
      · exact computes_unsigned (by omega)
      · exact monotoneInNew BitVec.le_trans
  | signed n =>
      have others : Computes Signed.toInt width n ∧ MonotoneInNew n :=
        ⟨computes_signed wide, monotoneInNew Int.le_trans⟩
      exact (and_iff_left others).trans
        ((Signed.isNextPowerOfTwo_iff wide).trans
          (Int.not_lt.symm.trans (not_congr (and_iff_right trivial).symm)))

/-- The next power of two of a byte is right for any byte. -/
theorem next_power_of_two_byte : (unsigned (100 : BitVec 8)).IsRight :=
  (next_power_of_two_iff _ (by decide)).mpr And.left

/-- In a signed byte, the next power of two of three comes out as two. -/
theorem signed_byte_is_short : ¬(signed (⟨3⟩ : Signed 8)).IsRight := by
  rintro ⟨⟨-, next⟩, -⟩
  have result : (signed (⟨3⟩ : Signed 8)).saturatingNext.toInt = 2 := by decide
  rcases next (by decide) with ⟨k, -, reaches, -⟩ | ⟨isMost, -⟩
  · exact absurd (result ▸ reaches) (by decide)
  · exact absurd (result ▸ isMost) (by decide)

end IntValue

end MeFuzz.Feedbacks
