import MeFuzz.ByteMutators

namespace MeFuzz.Mutators

open Procedure

/-!
# Swapping bytes

The swap mutator takes one range out of the input, puts another in its place,
and puts the first where the other was.  With parts of the input for the ranges,
each of these steps is a splice of one part.
-/

/-- Two disjoint ranges are exchanged; what is between them stays in order. -/
inductive Exchanged {Item : Type} :
    Range → Range → List Item → List Item → Prop where
  | parts (front left between right back : List Item) :
      Exchanged (.behind front left) (.behind (front ++ left ++ between) right)
        (front ++ left ++ between ++ right ++ back)
        (front ++ right ++ between ++ left ++ back)

section

variable {Item : Type}
variable {left right : Range}
variable {before after : List Item}

theorem Exchanged.length_eq
    (exchanged : Exchanged left right before after) :
    after.length = before.length := by
  cases exchanged with
  | parts front left between right back =>
      simp only [List.length_append]
      omega

theorem exists_exchanged
    (leftFits : left.Fits right.start)
    (rightFits : right.Fits before.length) :
    ∃ after, Exchanged left right before after := by
  obtain ⟨leftStart, leftStop⟩ := left
  obtain ⟨rightStart, rightStop⟩ := right
  obtain ⟨leftOrdered, isBehind⟩ := leftFits
  obtain ⟨rightOrdered, inside⟩ := rightFits
  dsimp only at leftOrdered isBehind rightOrdered inside
  have shape :=
    Exchanged.parts (before.take leftStart)
      ((before.take leftStop).drop leftStart)
      ((before.take rightStart).drop leftStop)
      ((before.take rightStop).drop rightStart)
      (before.drop rightStop)
  have joined
      {start stop : Nat}
      (ordered : start ≤ stop) :
      before.take start ++ (before.take stop).drop start = before.take stop := by
    rw [← Nat.min_eq_left ordered, ← List.take_take, Nat.min_eq_left ordered,
      List.take_append_drop]
  have isLeft :
      Range.behind (before.take leftStart)
          ((before.take leftStop).drop leftStart) =
        ⟨leftStart, leftStop⟩ := by
    simp only [Range.behind, List.length_take, List.length_drop, Range.mk.injEq]
    omega
  have isRight :
      Range.behind (before.take rightStart)
          ((before.take rightStop).drop rightStart) =
        ⟨rightStart, rightStop⟩ := by
    simp only [Range.behind, List.length_take, List.length_drop, Range.mk.injEq]
    omega
  rw [joined leftOrdered, joined isBehind, joined rightOrdered,
    List.take_append_drop, isLeft, isRight] at shape
  exact ⟨_, shape⟩

end

section

variable {Item : Type}
variable {draws : List Nat}
variable {range : Range}
variable {items front part back replaceWith tmpBuf : List Item}

theorem outcome_spliceInput
    (areParts : items = front ++ part ++ back)
    (isRange : range = .behind front part) :
    outcome (spliceInput range replaceWith) ⟨draws, ⟨items, tmpBuf⟩⟩ =
      (.ok (), ⟨draws, ⟨front ++ replaceWith ++ back, tmpBuf⟩⟩) := by
  subst areParts isRange
  unfold spliceInput
  rw [outcome_bind_ok outcome_input, splice_behind, unwrap_some, pure_bind,
    outcome_setInput]

theorem outcome_drainInput :
    outcome (drainInput (.behind front part))
        ⟨draws, ⟨front ++ part ++ back, tmpBuf⟩⟩ =
      (.ok part, ⟨draws, ⟨front ++ back, tmpBuf⟩⟩) := by
  unfold drainInput
  rw [outcome_bind_ok outcome_input, slice_behind, unwrap_some, pure_bind,
    outcome_bind_ok (outcome_spliceInput rfl rfl), List.append_nil, outcome_pure]

end

section

variable {left right : Range}
variable {before after tmpBuf : Bytes}
variable {draws : List Nat}

theorem outcome_swapWithFront
    (exchanged : Exchanged left right before after) :
    outcome (swapWithFront right left) ⟨draws, ⟨before, tmpBuf⟩⟩ =
      (.ok .mutated, ⟨draws, ⟨after, []⟩⟩) := by
  cases exchanged with
  | parts front left between right back =>
      have isLeft :
          slice (front ++ left ++ between ++ back) (.behind front left) =
            some left := by
        rw [List.append_assoc]
        exact slice_behind
      have isLen :
          (Range.behind (front ++ left ++ between) right).len = right.length :=
        Nat.add_sub_cancel_left _ _
      have isPoint :
          ({ start := (Range.behind (front ++ left ++ between) right).start
             stop := (Range.behind (front ++ left ++ between) right).start } :
              Range) =
            .behind (front ++ left ++ between) [] := rfl
      have inserted :
          front ++ left ++ between ++ back = front ++ left ++ between ++ [] ++ back :=
        by rw [List.append_nil]
      have replaced :
          front ++ left ++ between ++ left ++ back =
            front ++ left ++ (between ++ left ++ back) := by
        simp only [List.append_assoc]
      unfold swapWithFront
      rw [outcome_bind_ok outcome_drainInput, outcome_bind_ok outcome_setTmpBuf,
        outcome_bind_ok outcome_input, isLeft, unwrap_some, pure_bind,
        outcome_bind_ok outcome_own, outcome_bind_ok outcome_setTmpBuf,
        outcome_bind_ok outcome_own, outcome_bind_ok outcome_setTmpBuf, isLen,
        List.take_left, List.drop_left,
        outcome_bind_ok (outcome_spliceInput inserted isPoint),
        outcome_bind_ok outcome_own,
        outcome_bind_ok (outcome_spliceInput replaced rfl),
        outcome_bind_ok outcome_setTmpBuf, outcome_pure]
      simp only [List.append_assoc]

theorem swapWithBack_eq :
    swapWithBack left right = swapWithFront right left :=
  rfl

end

section

variable {bytes tmpBuf : Bytes}
variable {a b c d e : Nat}
variable {rest : List Nat}

theorem add_le_usizeMax
    {upper maxLen size : Nat}
    (isVec : size ≤ isizeMax)
    (upperFits : upper ≤ size)
    (lenFits : maxLen ≤ size) :
    upper + maxLen ≤ usizeMax := by
  unfold isizeMax at isVec
  unfold usizeMax
  omega

theorem outcome_bytesSwap
    (isVec : bytes.length ≤ isizeMax)
    (long : 2 ≤ bytes.length) :
    outcome bytesSwap ⟨a :: b :: c :: rest, ⟨bytes, tmpBuf⟩⟩ =
      outcome
        (if c % 2 = 0 ∧ (drawnRange bytes.length bytes.length a b).start ≠ 0 then do
          let second ←
            randRange (drawnRange bytes.length bytes.length a b).start
              (drawnRange bytes.length bytes.length a b).start
          swapWithFront (drawnRange bytes.length bytes.length a b) second
        else if (drawnRange bytes.length bytes.length a b).stop ≠ bytes.length then do
          let second ←
            randRange
              (bytes.length - (drawnRange bytes.length bytes.length a b).stop)
              (bytes.length - (drawnRange bytes.length bytes.length a b).stop)
          swapWithBack (drawnRange bytes.length bytes.length a b)
            { start :=
                second.start + (drawnRange bytes.length bytes.length a b).stop
              stop :=
                second.stop + (drawnRange bytes.length bytes.length a b).stop }
        else pure .skipped)
        ⟨rest, ⟨bytes, []⟩⟩ := by
  have positive : 0 < bytes.length := by omega
  unfold bytesSwap
  rw [outcome_bind_ok outcome_input]
  dsimp only
  rw [if_neg (by omega), outcome_bind_ok outcome_setTmpBuf,
    outcome_bind_ok
      (outcome_randRange positive (add_le_usizeMax isVec le_rfl le_rfl)),
    outcome_bind_ok outcome_next]

/--
With a first range of the input, a second one is drawn in front of it or behind
it.  The two are exchanged; there is nothing to exchange where the first reaches
over the whole side that was chosen.
-/
theorem swapping_is_an_exchange
    (isVec : bytes.length ≤ isizeMax)
    (long : 2 ≤ bytes.length) :
    let size := bytes.length
    let first := drawnRange size size a b
    let inFront := drawnRange first.start first.start d e
    let behind := drawnRange (size - first.stop) (size - first.stop) d e
    let swapped := fun result unused after =>
      outcome bytesSwap ⟨a :: b :: c :: d :: e :: rest, ⟨bytes, tmpBuf⟩⟩ =
        (.ok result, ⟨unused, ⟨after, []⟩⟩) ∧ after.length = size
    if c % 2 = 0 ∧ first.start ≠ 0 then
      ∃ after, swapped .mutated rest after ∧ Exchanged inFront first bytes after
    else if first.stop ≠ size then
      ∃ after,
        swapped .mutated rest after ∧
        Exchanged first
          { start := behind.start + first.stop, stop := behind.stop + first.stop }
          bytes after
    else swapped .skipped (d :: e :: rest) bytes := by
  intro size first inFront behind swapped
  have firstFits : first.Fits size := drawnRange_fits
  have start := @outcome_bytesSwap bytes tmpBuf a b c (d :: e :: rest) isVec long
  split
  · rename_i isFront
    have inFrontFits : inFront.Fits first.start := drawnRange_fits
    obtain ⟨after, exchanged⟩ := exists_exchanged inFrontFits firstFits
    have isBelow : first.start ≤ size := firstFits.1.trans firstFits.2
    refine ⟨after, ⟨?_, exchanged.length_eq⟩, exchanged⟩
    rw [start, if_pos isFront,
      outcome_bind_ok
        (outcome_randRange (Nat.pos_of_ne_zero isFront.2)
          (add_le_usizeMax isVec isBelow isBelow))]
    exact outcome_swapWithFront exchanged
  · rename_i notFront
    rw [if_neg notFront] at start
    split
    · rename_i hasBack
      have behindFits : behind.Fits (size - first.stop) := drawnRange_fits
      have isBelow : size - first.stop ≤ size := Nat.sub_le _ _
      have positive : 0 < size - first.stop := by
        have inside := firstFits.2
        omega
      have shifted :
          ({ start := behind.start + first.stop
             stop := behind.stop + first.stop } : Range).Fits size := by
        obtain ⟨ordered, inside⟩ := behindFits
        constructor
        · exact Nat.add_le_add_right ordered _
        · dsimp only
          omega
      obtain ⟨after, exchanged⟩ :=
        @exists_exchanged UInt8 first _ bytes
          ⟨firstFits.1, Nat.le_add_left _ _⟩ shifted
      refine ⟨after, ⟨?_, exchanged.length_eq⟩, exchanged⟩
      rw [start, if_pos hasBack,
        outcome_bind_ok
          (outcome_randRange positive (add_le_usizeMax isVec isBelow isBelow)),
        swapWithBack_eq]
      exact outcome_swapWithFront exchanged
    · rename_i noBack
      refine ⟨?_, rfl⟩
      rw [start, if_neg noBack, outcome_pure]

/-- The second of three bytes is exchanged with the first. -/
theorem swapping_is_an_exchange_three :
    ∃ after,
      outcome bytesSwap ⟨[0, 2, 0, 0, 1], ⟨[1, 2, 3], []⟩⟩ =
        (.ok .mutated, ⟨[], ⟨after, []⟩⟩) ∧
      Exchanged ⟨0, 1⟩ ⟨1, 2⟩ [1, 2, 3] after := by
  obtain ⟨after, swapped, exchanged⟩ :=
    @swapping_is_an_exchange [1, 2, 3] [] 0 2 0 0 1 [] (by decide) (by decide)
  exact ⟨after, swapped.1, exchanged⟩

end

end MeFuzz.Mutators
