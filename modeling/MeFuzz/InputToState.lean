import MeFuzz.TokenMutators

namespace MeFuzz.Mutators

open Procedure

/-!
# Input to state

Where an operand of a comparison, or the beginning of one, stands in the input, it
is replaced by as much of the other operand.  For byte strings the beginning that
is found may be longer than the other operand.
-/

section

variable {size val : Nat}
variable {window : Bytes}

theorem length_toNeBytes :
    (toNeBytes size val).length = size := by
  rw [toNeBytes, List.length_reverse, BigEndian.length_encode]

theorem toNeBytes_fromNeBytes :
    toNeBytes window.length (fromNeBytes window) = window := by
  rw [toNeBytes, fromNeBytes, ← List.length_reverse, BigEndian.encode_decode,
    List.reverse_reverse]

theorem toNeBytes_swapBytes :
    toNeBytes size (swapBytes size val) = (toNeBytes size val).reverse := by
  have encoded := BigEndian.encode_decode (toNeBytes size val)
  rw [length_toNeBytes] at encoded
  rw [toNeBytes, swapBytes, encoded]

end

namespace CmpValues

/-- The bytes of the two operands, in native order. -/
def operands : CmpValues → Bytes × Bytes
  | .u8 first second => ([first], [second])
  | .u16 first second => (toNeBytes 2 first.toNat, toNeBytes 2 second.toNat)
  | .u32 first second => (toNeBytes 4 first.toNat, toNeBytes 4 second.toNat)
  | .u64 first second => (toNeBytes 8 first.toNat, toNeBytes 8 second.toNat)
  | .bytes first second => (first, second)

/-- `is_numeric`. -/
def isNumeric : CmpValues → Bool
  | .bytes _ _ => false
  | _ => true

/-- One operand and the other. -/
def Pair (cmpValues : CmpValues) (this other : Bytes) : Prop :=
  cmpValues.operands = (this, other) ∨ cmpValues.operands = (other, this)

end CmpValues

/--
Bytes of one operand and as many of the other: all of a word, in native or in
swapped order, or the beginning of a byte string.
-/
inductive Substitution (cmpValues : CmpValues) : Bytes → Bytes → Prop where
  | native {this other : Bytes} :
      cmpValues.Pair this other → cmpValues.isNumeric = true →
        Substitution cmpValues this other
  | swapped {this other : Bytes} :
      cmpValues.Pair this other → cmpValues.isNumeric = true →
        Substitution cmpValues this.reverse other.reverse
  | front {this other : Bytes} {size : Nat} :
      cmpValues.Pair this other → cmpValues.isNumeric = false →
        0 < size → size ≤ this.length → size ≤ other.length →
          Substitution cmpValues (this.take size) (other.take size)

/-- One place of the input is substituted. -/
inductive Substituted (cmpValues : CmpValues) : Bytes → Bytes → Prop where
  | place (front back : Bytes) {old new : Bytes} :
      Substitution cmpValues old new → old.length = new.length →
        Substituted cmpValues (front ++ old ++ back) (front ++ new ++ back)

section

variable {cmpValues : CmpValues}
variable {bytes after old new this other : Bytes}
variable {i size : Nat}

theorem Substituted.length_eq
    (substituted : Substituted cmpValues bytes after) :
    after.length = bytes.length := by
  cases substituted with
  | place front back substitution sameLength =>
      simp only [List.length_append, sameLength]

theorem substituted_of_slice
    (isOld : slice bytes ⟨i, i + size⟩ = some old)
    (isNew : new.length = size)
    (substitution : Substitution cmpValues old new) :
    Substituted cmpValues bytes (overwrite bytes i new) := by
  unfold slice at isOld
  split at isOld
  · rename_i fits
    have inside : i + size ≤ bytes.length := fits.2
    have isOld : old = (bytes.take (i + size)).drop i :=
      (Option.some.inj isOld).symm
    have sameLength : old.length = new.length := by
      rw [isOld, isNew, List.length_drop, List.length_take]
      omega
    have parts : bytes = bytes.take i ++ old ++ bytes.drop (i + size) := by
      have firstParts : bytes.take i ++ old = bytes.take (i + size) := by
        rw [isOld]
        have taken : bytes.take i = (bytes.take (i + size)).take i := by
          rw [List.take_take, Nat.min_eq_left (Nat.le_add_right i size)]
        rw [taken, List.take_append_drop]
      rw [firstParts, List.take_append_drop]
    have shape := Substituted.place (bytes.take i) (bytes.drop (i + size))
      substitution sameLength
    rw [← parts] at shape
    rw [overwrite, isNew]
    exact shape
  · cases isOld

theorem slice_single
    {byte : UInt8}
    (isByte : bytes[i]? = some byte) :
    slice bytes ⟨i, i + 1⟩ = some [byte] := by
  obtain ⟨inside, isByte⟩ := List.getElem?_eq_some_iff.mp isByte
  rw [slice, if_pos ⟨Nat.le_succ i, inside⟩]
  dsimp only
  rw [List.take_succ_eq_append_getElem inside, List.drop_left' (by simp; omega),
    isByte]

theorem set_eq_overwrite
    {byte : UInt8}
    (inside : i < bytes.length) :
    bytes.set i byte = overwrite bytes i [byte] := by
  rw [List.set_eq_take_append_cons_drop, if_pos inside, overwrite,
    List.append_assoc]
  rfl

theorem exists_slice
    (inside : i + size ≤ bytes.length) :
    ∃ window, slice bytes ⟨i, i + size⟩ = some window ∧ window.length = size := by
  refine ⟨_, if_pos ⟨Nat.le_add_right i size, inside⟩, ?_⟩
  rw [List.length_drop, List.length_take]
  dsimp only
  omega

theorem mem_indices
    {start stop : Nat} :
    i ∈ indices start stop ↔ start ≤ i ∧ i < stop := by
  rw [indices, List.mem_range'_1]
  omega

end

section

variable {cmpValues : CmpValues}
variable {bytes after new window : Bytes}
variable {places : List Nat}
variable {size first second val : Nat}

theorem replaceByte_substitutes
    {first second : UInt8}
    (isByte : cmpValues = .u8 first second)
    (replaces : replaceByte first second bytes places = some after) :
    Substituted cmpValues bytes after := by
  induction places with
  | nil =>
      cases replaces
  | cons i rest ih =>
      rw [replaceByte] at replaces
      have substitutes
          {old new : UInt8}
          (isOld : bytes[i]? = some old)
          (isPair : cmpValues.Pair [old] [new]) :
          Substituted cmpValues bytes (bytes.set i new) := by
        rw [set_eq_overwrite (List.getElem?_eq_some_iff.mp isOld).1]
        exact substituted_of_slice (slice_single isOld) rfl
          (.native isPair (by rw [isByte]; rfl))
      split at replaces
      · rename_i isFirst
        cases replaces
        exact substitutes isFirst (.inl (by rw [isByte]; rfl))
      · split at replaces
        · rename_i isSecond
          cases replaces
          exact substitutes isSecond (.inr (by rw [isByte]; rfl))
        · exact ih replaces

theorem replacement_substitutes
    (areOperands :
      cmpValues.operands = (toNeBytes size first, toNeBytes size second))
    (isNumeric : cmpValues.isNumeric = true)
    (isWord : window.length = size)
    (replaces :
      replacement size first second (fromNeBytes window) = some new) :
    Substitution cmpValues window new ∧ new.length = size := by
  subst isWord
  have isWindow : toNeBytes window.length (fromNeBytes window) = window :=
    toNeBytes_fromNeBytes
  have isSwapped :
      (toNeBytes window.length
        (swapBytes window.length (fromNeBytes window))).reverse = window := by
    rw [toNeBytes_swapBytes, isWindow, List.reverse_reverse]
  unfold replacement at replaces
  split at replaces
  · rename_i isFirst
    cases replaces
    refine ⟨.native (.inl ?_) isNumeric, length_toNeBytes⟩
    rw [areOperands, ← isFirst, isWindow]
  · split at replaces
    · rename_i isFirst
      cases replaces
      refine ⟨?_, length_toNeBytes⟩
      rw [isFirst] at isSwapped
      rw [toNeBytes_swapBytes, ← isSwapped]
      exact .swapped (.inl (by rw [areOperands, isSwapped])) isNumeric
    · split at replaces
      · rename_i isSecond
        cases replaces
        refine ⟨.native (.inr ?_) isNumeric, length_toNeBytes⟩
        rw [areOperands, ← isSecond, isWindow]
      · split at replaces
        · rename_i isSecond
          cases replaces
          refine ⟨?_, length_toNeBytes⟩
          rw [isSecond] at isSwapped
          rw [toNeBytes_swapBytes, ← isSwapped]
          exact .swapped (.inr (by rw [areOperands, isSwapped])) isNumeric
        · cases replaces

theorem replaceWord_substitutes
    (areOperands :
      cmpValues.operands = (toNeBytes size first, toNeBytes size second))
    (isNumeric : cmpValues.isNumeric = true)
    (inside : ∀ i ∈ places, i + size ≤ bytes.length) :
    ∃ result,
      replaceWord size first second bytes places = some result ∧
      ∀ after, result = some after → Substituted cmpValues bytes after := by
  induction places with
  | nil =>
      exact ⟨none, rfl, nofun⟩
  | cons i rest ih =>
      obtain ⟨window, isWindow, isWord⟩ :=
        exists_slice (inside i List.mem_cons_self)
      rw [replaceWord, isWindow]
      dsimp only [Option.bind_eq_bind, Option.bind_some]
      cases replaces : replacement size first second (fromNeBytes window) with
      | none =>
          exact ih fun j isLater =>
            inside j (List.mem_cons_of_mem i isLater)
      | some newBytes =>
          obtain ⟨substitution, isNew⟩ :=
            replacement_substitutes areOperands isNumeric isWord replaces
          refine ⟨_, rfl, ?_⟩
          rintro after isAfter
          obtain rfl := Option.some.inj isAfter
          exact substituted_of_slice isWindow isNew substitution

theorem replaceWordFrom_substitutes
    {off : Nat}
    (areOperands :
      cmpValues.operands = (toNeBytes size first, toNeBytes size second))
    (isNumeric : cmpValues.isNumeric = true) :
    ∃ result,
      replaceWordFrom size first second bytes off = some result ∧
      ∀ after, result = some after → Substituted cmpValues bytes after := by
  unfold replaceWordFrom
  split
  · refine replaceWord_substitutes areOperands isNumeric fun i isPlace => ?_
    have inside := (mem_indices.mp isPlace).2
    omega
  · exact ⟨none, rfl, nofun⟩

end

/-- How far two byte strings agree. -/
def commonPrefixLen : Bytes → Bytes → Nat
  | a :: left, b :: right => if a = b then commonPrefixLen left right + 1 else 0
  | _, _ => 0

section

variable {left right : Bytes}
variable {size : Nat}

theorem commonPrefixLen_le_left :
    commonPrefixLen left right ≤ left.length := by
  induction left generalizing right with
  | nil =>
      exact le_rfl
  | cons a rest ih =>
      cases right with
      | nil =>
          exact Nat.zero_le _
      | cons b right =>
          rw [commonPrefixLen]
          split
          · exact Nat.succ_le_succ ih
          · exact Nat.zero_le _

theorem commonPrefixLen_le_right :
    commonPrefixLen left right ≤ right.length := by
  induction left generalizing right with
  | nil =>
      exact Nat.zero_le _
  | cons a rest ih =>
      cases right with
      | nil =>
          exact le_rfl
      | cons b right =>
          rw [commonPrefixLen]
          split
          · exact Nat.succ_le_succ ih
          · exact Nat.zero_le _

theorem take_eq_take_iff
    (leftLong : size ≤ left.length)
    (rightLong : size ≤ right.length) :
    left.take size = right.take size ↔ size ≤ commonPrefixLen left right := by
  induction left generalizing right size with
  | nil =>
      obtain rfl := Nat.le_zero.mp leftLong
      simp
  | cons a rest ih =>
      cases size with
      | zero =>
          simp
      | succ size =>
          cases right with
          | nil =>
              exact absurd rightLong (Nat.not_succ_le_zero size)
          | cons b right =>
              have later :=
                @ih right size (Nat.le_of_succ_le_succ leftLong)
                  (Nat.le_of_succ_le_succ rightLong)
              rw [commonPrefixLen, List.take_succ_cons, List.take_succ_cons,
                List.cons.injEq, later]
              by_cases same : a = b
              · simp [same]
              · simp [same]

end

section

variable {first second this other bytes after : Bytes}
variable {i size off : Nat}

/-- How much of an operand stands in the input at an index. -/
def matchedLen (this bytes : Bytes) (i : Nat) : Nat :=
  commonPrefixLen this (bytes.drop i)

theorem matchedLen_le_min :
    matchedLen this bytes i ≤ min this.length (bytes.length - i) := by
  refine Nat.le_min.mpr ⟨commonPrefixLen_le_left, ?_⟩
  rw [← List.length_drop]
  exact commonPrefixLen_le_right

/-- What the inner loops come to with a beginning of some size. -/
def copiedPrefix
    (other bytes : Bytes)
    (i : Nat) : Nat → Option (Option Bytes)
  | 0 => some none
  | size + 1 => (bufferCopy bytes other 0 i (size + 1)).map some

theorem replacePrefix_eq
    (isShort : size ≤ min this.length (bytes.length - i)) :
    replacePrefix this other bytes i size =
      copiedPrefix other bytes i (min size (matchedLen this bytes i)) := by
  obtain ⟨thisLong, inside⟩ := Nat.le_min.mp isShort
  induction size with
  | zero =>
      rw [Nat.zero_min]
      rfl
  | succ size ih =>
      have later :=
        ih (Nat.le_of_succ_le isShort) (Nat.le_of_succ_le thisLong)
          (Nat.le_of_succ_le inside)
      have isOperand :
          slice this ⟨0, size + 1⟩ = some (this.take (size + 1)) := by
        rw [slice, if_pos ⟨Nat.zero_le _, thisLong⟩]
        rfl
      have isWindow :
          slice bytes ⟨i, i + (size + 1)⟩ =
            some ((bytes.drop i).take (size + 1)) := by
        rw [slice, if_pos ⟨Nat.le_add_right _ _, by dsimp only; omega⟩,
          List.drop_take]
        dsimp only
        rw [Nat.add_sub_cancel_left]
      have agrees :
          this.take (size + 1) = (bytes.drop i).take (size + 1) ↔
            size + 1 ≤ matchedLen this bytes i :=
        take_eq_take_iff thisLong (by rw [List.length_drop]; exact inside)
      rw [replacePrefix, isOperand, isWindow]
      dsimp only [Option.bind_eq_bind, Option.bind_some]
      by_cases matches' : size + 1 ≤ matchedLen this bytes i
      · rw [if_pos (agrees.mpr matches'), Nat.min_eq_left matches', copiedPrefix]
        cases bufferCopy bytes other 0 i (size + 1) <;> rfl
      · rw [if_neg fun same => matches' (agrees.mp same), later]
        congr 1
        omega

theorem replacePrefix_min_eq :
    replacePrefix this other bytes i (min this.length (bytes.length - i)) =
      copiedPrefix other bytes i (matchedLen this bytes i) := by
  rw [replacePrefix_eq le_rfl, Nat.min_eq_right matchedLen_le_min]

theorem copiedPrefix_zero :
    copiedPrefix other bytes i 0 = some none :=
  rfl

theorem copiedPrefix_of_pos
    (positive : 0 < size)
    (inside : i + size ≤ bytes.length) :
    copiedPrefix other bytes i size =
      if size ≤ other.length then
        some (some (overwrite bytes i (other.take size)))
      else none := by
  obtain ⟨size, rfl⟩ := Nat.exists_eq_succ_of_ne_zero (Nat.ne_of_gt positive)
  have notEmpty : bytes ≠ [] := by
    rintro rfl
    simp at inside
  rw [copiedPrefix, bufferCopy]
  by_cases isLong : size + 1 ≤ other.length
  · have otherNotEmpty : other ≠ [] := by
      rintro rfl
      simp at isLong
    rw [if_pos ⟨notEmpty, otherNotEmpty, by omega, inside⟩, if_pos isLong]
    rfl
  · rw [if_neg fun holds => isLong (by omega), if_neg isLong]
    rfl

theorem add_matchedLen_le
    (isPlace : i ≤ bytes.length) :
    i + matchedLen this bytes i ≤ bytes.length := by
  have short := @matchedLen_le_min this bytes i
  omega

/-- An operand begins at an index. -/
def Begins (first second bytes : Bytes) (i : Nat) : Prop :=
  0 < matchedLen first bytes i ∨ 0 < matchedLen second bytes i

instance : Decidable (Begins first second bytes i) :=
  inferInstanceAs (Decidable (_ ∨ _))

/-- What stands at an index of an operand is not longer than the other one. -/
def Reaches (first second bytes : Bytes) (i : Nat) : Prop :=
  if 0 < matchedLen first bytes i then matchedLen first bytes i ≤ second.length
  else matchedLen second bytes i ≤ first.length

theorem replaceBytes_cons_of_not_begins
    {places : List Nat}
    (notHere : ¬Begins first second bytes i) :
    replaceBytes first second bytes (i :: places) =
      replaceBytes first second bytes places := by
  obtain ⟨notFirst, notSecond⟩ := not_or.mp notHere
  rw [replaceBytes, replacePrefix_min_eq, replacePrefix_min_eq,
    Nat.eq_zero_of_not_pos notFirst, Nat.eq_zero_of_not_pos notSecond]
  rfl

theorem replaceBytes_cons_of_begins
    {places : List Nat}
    (inside : i ≤ bytes.length)
    (here : Begins first second bytes i) :
    (Reaches first second bytes i →
      ∃ after,
        replaceBytes first second bytes (i :: places) = some (some after) ∧
        Substituted (.bytes first second) bytes after) ∧
    (¬Reaches first second bytes i →
      replaceBytes first second bytes (i :: places) = none) := by
  have substituted
      {this other : Bytes}
      (isPair : (CmpValues.bytes first second).Pair this other)
      (positive : 0 < matchedLen this bytes i)
      (isLong : matchedLen this bytes i ≤ other.length) :
      Substituted (.bytes first second) bytes
        (overwrite bytes i (other.take (matchedLen this bytes i))) := by
    have isInside := @add_matchedLen_le this bytes i inside
    have isWindow :
        slice bytes ⟨i, i + matchedLen this bytes i⟩ =
          some (this.take (matchedLen this bytes i)) := by
      rw [slice, if_pos ⟨Nat.le_add_right _ _, isInside⟩, List.drop_take]
      dsimp only
      rw [Nat.add_sub_cancel_left]
      refine congrArg some ((take_eq_take_iff ?_ ?_).mpr le_rfl).symm
      · exact commonPrefixLen_le_left
      · exact commonPrefixLen_le_right
    refine substituted_of_slice isWindow ?_ ?_
    · rw [List.length_take]
      omega
    · exact .front isPair rfl positive commonPrefixLen_le_left isLong
  rw [replaceBytes, replacePrefix_min_eq, replacePrefix_min_eq]
  unfold Reaches
  by_cases isFirst : 0 < matchedLen first bytes i
  · rw [if_pos isFirst, copiedPrefix_of_pos isFirst (add_matchedLen_le inside)]
    constructor
    · intro isLong
      rw [if_pos isLong]
      exact ⟨_, rfl, substituted (.inl rfl) isFirst isLong⟩
    · intro isShort
      rw [if_neg isShort]
      rfl
  · have isSecond := here.resolve_left isFirst
    rw [if_neg isFirst, Nat.eq_zero_of_not_pos isFirst, copiedPrefix_zero,
      copiedPrefix_of_pos isSecond (add_matchedLen_le inside)]
    constructor
    · intro isLong
      rw [if_pos isLong]
      exact ⟨_, rfl, substituted (.inr rfl) isSecond isLong⟩
    · intro isShort
      rw [if_neg isShort]
      rfl

theorem replaceBytes_iff
    {places : List Nat}
    (inside : ∀ i ∈ places, i ≤ bytes.length) :
    ((∃ result, replaceBytes first second bytes places = some result) ↔
      ∀ i, places.find? (fun i => Begins first second bytes i) = some i →
        Reaches first second bytes i) ∧
    ∀ after,
      replaceBytes first second bytes places = some (some after) →
        Substituted (.bytes first second) bytes after := by
  induction places with
  | nil =>
      exact ⟨⟨fun _ _ => nofun, fun _ => ⟨none, rfl⟩⟩, nofun⟩
  | cons i rest ih =>
      by_cases here : Begins first second bytes i
      · obtain ⟨reached, notReached⟩ :=
          @replaceBytes_cons_of_begins first second bytes i rest
            (inside i List.mem_cons_self) here
        rw [List.find?_cons_of_pos (by simpa using here)]
        by_cases isLong : Reaches first second bytes i
        · obtain ⟨copied, isResult, substitutes⟩ := reached isLong
          rw [isResult]
          refine ⟨iff_of_true ⟨_, rfl⟩ ?_, ?_⟩
          · rintro j isHere
            obtain rfl := Option.some.inj isHere
            exact isLong
          · rintro after isAfter
            obtain rfl := Option.some.inj (Option.some.inj isAfter)
            exact substitutes
        · rw [notReached isLong]
          exact ⟨iff_of_false nofun fun reaches => isLong (reaches i rfl), nofun⟩
      · rw [replaceBytes_cons_of_not_begins here,
          List.find?_cons_of_neg (by simpa using here)]
        exact ih fun j isLater =>
          inside j (List.mem_cons_of_mem i isLater)

end

section

variable {cmps : Option (List CmpValues)}
variable {cmpValues : CmpValues}
variable {bytes tmpBuf : Bytes}
variable {draws : List Nat}
variable {off : Nat}

/-- The operand that is found first is not longer than the other one. -/
def OperandsReach (cmpValues : CmpValues) (bytes : Bytes) (off : Nat) : Prop :=
  ∀ first second,
    cmpValues = .bytes first second →
    ∀ i,
      (indices off bytes.length).find? (fun i => Begins first second bytes i) =
          some i →
        Reaches first second bytes i

theorem replaceOperand_iff :
    ((∃ result, replaceOperand bytes off cmpValues = some result) ↔
      OperandsReach cmpValues bytes off) ∧
    ∀ after,
      replaceOperand bytes off cmpValues = some (some after) →
        Substituted cmpValues bytes after := by
  have numeric
      (isNumeric : cmpValues.isNumeric = true)
      (substitutes :
        ∃ result,
          replaceOperand bytes off cmpValues = some result ∧
          ∀ after, result = some after → Substituted cmpValues bytes after) :
      ((∃ result, replaceOperand bytes off cmpValues = some result) ↔
        OperandsReach cmpValues bytes off) ∧
      ∀ after,
        replaceOperand bytes off cmpValues = some (some after) →
          Substituted cmpValues bytes after := by
    obtain ⟨result, isResult, substituted⟩ := substitutes
    refine ⟨iff_of_true ⟨result, isResult⟩ fun first second isBytes => ?_, ?_⟩
    · rw [isBytes] at isNumeric
      cases isNumeric
    · intro after isAfter
      exact substituted after (Option.some.inj (isResult.symm.trans isAfter))
  cases cmpValues with
  | u8 first second =>
      exact numeric rfl ⟨_, rfl, fun after => replaceByte_substitutes rfl⟩
  | u16 first second =>
      exact numeric rfl (replaceWordFrom_substitutes rfl rfl)
  | u32 first second =>
      exact numeric rfl (replaceWordFrom_substitutes rfl rfl)
  | u64 first second =>
      exact numeric rfl (replaceWordFrom_substitutes rfl rfl)
  | bytes first second =>
      obtain ⟨inRange, substitutes⟩ :=
        @replaceBytes_iff first second bytes (indices off bytes.length)
          fun i isPlace => (mem_indices.mp isPlace).2.le
      refine ⟨inRange.trans ⟨?_, fun reaches => reaches first second rfl⟩,
        substitutes⟩
      rintro reaches _ _ isBytes
      cases isBytes
      exact reaches

/--
The mutator stays in range.  It keeps the length of the input, and where it mutates
it substitutes one place; otherwise it leaves the input as it is.
-/
def SubstitutesOnly
    (cmps : Option (List CmpValues))
    (now : Drawing (Mutating UInt8)) : Prop :=
  match outcome (i2sRandReplace cmps) now with
  | (.ok .mutated, next) =>
      next.own.input.length = now.own.input.length ∧
      ∃ list, cmps = some list ∧
        ∃ cmpValues ∈ list, Substituted cmpValues now.own.input next.own.input
  | (.ok .skipped, next) => next.own.input = now.own.input
  | (.error failure, _) => failure = .starved

/-- The comparison and the offset that are drawn. -/
def Draws
    (cmps : Option (List CmpValues))
    (now : Drawing (Mutating UInt8))
    (cmpValues : CmpValues)
    (off : Nat) : Prop :=
  now.own.input ≠ [] ∧
  ∃ list idx rest last,
    cmps = some list ∧
    Rand.below list.length now.draws = some (idx, rest) ∧
    list[idx]? = some cmpValues ∧
    Rand.below now.own.input.length rest = some (off, last)

theorem outcome_i2sRandReplace
    {now : Drawing (Mutating UInt8)}
    (drawn : Draws cmps now cmpValues off) :
    ∃ last,
      outcome (i2sRandReplace cmps) now =
        outcome
          (do
            match ← unwrap (replaceOperand now.own.input off cmpValues) with
            | none => pure .skipped
            | some bytes => do
                setInput bytes
                pure .mutated)
          ⟨last, now.own⟩ := by
  obtain ⟨notEmpty, list, idx, rest, last, rfl, drawnIdx, isCmp, drawnOff⟩ := drawn
  obtain ⟨draws, own⟩ := now
  have isList : ¬list.isEmpty = true := by
    intro isEmpty
    rw [List.isEmpty_iff.mp isEmpty] at isCmp
    cases isCmp
  refine ⟨last, ?_⟩
  unfold i2sRandReplace
  rw [outcome_bind_ok outcome_input]
  dsimp only
  rw [if_neg (by simpa using notEmpty), if_neg isList,
    outcome_bind_ok (outcome_below drawnIdx), outcome_bind_ok (outcome_below drawnOff),
    isCmp, unwrap_some, pure_bind]
  exact outcome_bind_ok outcome_input

theorem Draws.unique
    {now : Drawing (Mutating UInt8)}
    {otherValues : CmpValues}
    {otherOff : Nat}
    (drawn : Draws cmps now cmpValues off)
    (other : Draws cmps now otherValues otherOff) :
    otherValues = cmpValues ∧ otherOff = off := by
  obtain ⟨-, list, idx, rest, last, rfl, drawnIdx, isCmp, drawnOff⟩ := drawn
  obtain ⟨-, otherList, otherIdx, otherRest, otherLast, isList, drawnOtherIdx,
    isOther, drawnOtherOff⟩ := other
  obtain rfl := Option.some.inj isList
  obtain ⟨rfl, rfl⟩ := Prod.mk.inj (Option.some.inj (drawnIdx.symm.trans drawnOtherIdx))
  obtain ⟨rfl, -⟩ := Prod.mk.inj (Option.some.inj (drawnOff.symm.trans drawnOtherOff))
  exact ⟨Option.some.inj (isOther.symm.trans isCmp), rfl⟩

theorem substitutesOnly_of_not_draws
    {now : Drawing (Mutating UInt8)}
    (notDrawn : ∀ cmpValues off, ¬Draws cmps now cmpValues off) :
    SubstitutesOnly cmps now := by
  obtain ⟨draws, own⟩ := now
  unfold SubstitutesOnly i2sRandReplace
  rw [outcome_bind_ok outcome_input]
  dsimp only
  by_cases isEmpty : own.input.length = 0
  · rw [if_pos isEmpty]
    rfl
  · rw [if_neg isEmpty]
    cases cmps with
    | none =>
        rfl
    | some list =>
        dsimp only
        by_cases noCmps : list.isEmpty = true
        · rw [if_pos noCmps]
          rfl
        · rw [if_neg noCmps]
          have positive : 0 < list.length :=
            List.length_pos_iff.mpr (by simpa using noCmps)
          cases drawnIdx : Rand.below list.length draws with
          | none =>
              rw [outcome_bind_error (outcome_below_starved drawnIdx)]
          | some drawn =>
              rw [outcome_bind_ok (outcome_below drawnIdx)]
              cases drawnOff : Rand.below own.input.length drawn.2 with
              | none =>
                  rw [outcome_bind_error (outcome_below_starved drawnOff)]
              | some last =>
                  have isIdx := Rand.below_lt positive drawnIdx
                  exact absurd
                    ⟨by simpa using isEmpty, list, drawn.1, drawn.2, last.2, rfl,
                      drawnIdx, List.getElem?_eq_getElem isIdx, drawnOff⟩
                    (notDrawn list[drawn.1] last.1)

/--
With any input, comparisons and values of the generator, the mutator only
substitutes where the operand that it finds first is not longer than the other.
-/
theorem i2s_substitutes_only_iff
    {now : Drawing (Mutating UInt8)} :
    SubstitutesOnly cmps now ↔
      ∀ cmpValues off,
        Draws cmps now cmpValues off → OperandsReach cmpValues now.own.input off := by
  by_cases isDrawn : ∃ cmpValues off, Draws cmps now cmpValues off
  · obtain ⟨cmpValues, off, drawn⟩ := isDrawn
    obtain ⟨inRange, substitutes⟩ :=
      @replaceOperand_iff cmpValues now.own.input off
    have single :
        (∀ otherValues otherOff, Draws cmps now otherValues otherOff →
            OperandsReach otherValues now.own.input otherOff) ↔
          OperandsReach cmpValues now.own.input off := by
      refine ⟨fun all => all cmpValues off drawn, ?_⟩
      rintro reaches otherValues otherOff other
      obtain ⟨rfl, rfl⟩ := drawn.unique other
      exact reaches
    obtain ⟨last, isOutcome⟩ := outcome_i2sRandReplace drawn
    rw [single, ← inRange, SubstitutesOnly, isOutcome]
    cases replaces : replaceOperand now.own.input off cmpValues with
    | none =>
        exact iff_of_false nofun nofun
    | some result =>
        cases result with
        | none =>
            exact iff_of_true rfl ⟨_, rfl⟩
        | some bytes =>
            have substituted := substitutes bytes replaces
            obtain ⟨-, list, idx, rest, -, isList, -, isCmp, -⟩ := drawn
            exact iff_of_true
              ⟨substituted.length_eq, list, isList, cmpValues,
                List.mem_of_getElem? isCmp, substituted⟩
              ⟨_, rfl⟩
  · refine iff_of_true (substitutesOnly_of_not_draws fun cmpValues off drawn =>
      isDrawn ⟨cmpValues, off, drawn⟩) fun cmpValues off drawn =>
        absurd ⟨cmpValues, off, drawn⟩ isDrawn

/-- Two bytes of the first operand match, and the second has only one. -/
theorem short_operand_is_overread :
    ¬SubstitutesOnly (some [.bytes [1, 2] [9]]) ⟨[0], ⟨[1, 2], []⟩⟩ :=
  nofun

end

end MeFuzz.Mutators
