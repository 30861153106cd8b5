import MeFuzz.BoundedMutations

namespace MeFuzz.Mutators

open Procedure

/-!
# Encoded mutators are safe

None of the encoded mutators leaves its input or its buffer, and none makes an
input longer than it was or may be.  The two that look for another input need a
corpus that has one.
-/

section

variable {bound : Nat}
variable {start : Mutating UInt32}

theorem bind_copyCodes
    {rest : Unit → Mutation (Mutating UInt32) MutationResult}
    {dst src : List UInt32}
    {source target len : Nat}
    (some : dst ≠ [] ∧ src ≠ [])
    (inSource : source + len ≤ src.length)
    (inTarget : target + len ≤ dst.length)
    (later :
      ∀ copied, copied.length = dst.length →
        BoundedFrom bound { start with input := copied } (rest ())) :
    BoundedFrom bound start
      (copyCodes (bufferCopy dst src source target len) >>= rest) := by
  obtain ⟨copied, isCopied, length⟩ := exists_bufferCopy _ _ _ some inSource inTarget
  unfold copyCodes
  rw [bind_assoc]
  exact .bind_unwrap isCopied (.bind_setInput (later copied length))

theorem bounded_encodedRand
    {maxSize : Nat} :
    Bounded maxSize encodedRand :=
  bounded_changeChosen fun _ _ =>
    .bind_next isOrderly_starved fun _ => .pure fun _ same => same

theorem bounded_encodedInc
    {maxSize : Nat} :
    Bounded maxSize encodedInc :=
  bounded_changeChosen fun _ _ => .pure fun _ same => same

theorem bounded_encodedDec
    {maxSize : Nat} :
    Bounded maxSize encodedDec :=
  bounded_changeChosen fun _ _ => .pure fun _ same => same

theorem bounded_encodedAdd
    {maxSize : Nat} :
    Bounded maxSize encodedAdd :=
  bounded_changeChosen fun _ _ =>
    .bind_below isOrderly_starved fun _ _ =>
      .bind_below isOrderly_starved fun _ _ => .pure fun _ same => same

theorem bounded_encodedDelete
    {maxSize : Nat} :
    Bounded maxSize encodedDelete := by
  intro start
  refine .bind_input ?_
  dsimp only
  split
  · exact .pure (le_max_left _ _)
  · refine .bind_below fun off isOff => .bind_below fun len isLen => ?_
    have fits : Range.Fits ⟨off, off + len⟩ start.input.length :=
      ⟨Nat.le_add_right off len, by dsimp only; omega⟩
    refine .bind_drainInput fits fun drained items length => .pure ?_
    dsimp only
    omega

theorem insertedLen_spec
    {maxSize size drawn len : Nat}
    (positive : 0 < drawn)
    (inserted : insertedLen maxSize size drawn = some len) :
    0 < len ∧ len ≤ drawn ∧ size + len ≤ maxSize := by
  unfold insertedLen at inserted
  split at inserted
  · split at inserted
    · cases inserted
      omega
    · cases inserted
  · cases inserted
    omega

theorem bounded_insertCopied
    {size off source len : Nat}
    (isSize : start.input.length = size)
    (positive : 0 < len)
    (inSource : source + len ≤ size)
    (inInput : off ≤ size)
    (room : size + len ≤ bound) :
    BoundedFrom bound start
      (do
        setInput (resize (← input) (size + len) 0)
        setTmpBuf (resize (← own).tmpBuf len 0)
        setTmpBuf (← unwrap (bufferCopy (← own).tmpBuf (← input) source 0 len))
        copyCodes (bufferSelfCopy (← input) off (off + len) (size - off))
        copyCodes (bufferCopy (← input) (← own).tmpBuf 0 off len)
        pure MutationResult.mutated) := by
  refine .bind_input (.bind_setInput (.bind_own (.bind_setTmpBuf ?_)))
  refine .bind_own (.bind_input ?_)
  dsimp only
  have someInput : resize start.input (size + len) 0 ≠ [] :=
    List.ne_nil_of_length_pos (by rw [length_resize]; omega)
  have someBuf : resize start.tmpBuf len 0 ≠ [] :=
    List.ne_nil_of_length_pos (by rw [length_resize]; omega)
  obtain ⟨buffered, isBuffered, bufferLength⟩ :=
    exists_bufferCopy source 0 len ⟨someBuf, someInput⟩ (by rw [length_resize]; omega)
      (by rw [length_resize]; omega)
  refine .bind_unwrap isBuffered (.bind_setTmpBuf (.bind_input ?_))
  refine bind_copyCodes ⟨someInput, someInput⟩ (by rw [length_resize]; omega)
    (by rw [length_resize]; omega) fun moved movedLength => ?_
  refine .bind_input (.bind_own ?_)
  dsimp only
  rw [length_resize] at bufferLength movedLength
  have someMoved : moved ≠ [] := List.ne_nil_of_length_pos (by omega)
  have someBuffered : buffered ≠ [] := List.ne_nil_of_length_pos (by omega)
  refine bind_copyCodes ⟨someMoved, someBuffered⟩ (by omega) (by omega)
    fun copied copiedLength => .pure ?_
  dsimp only
  omega

theorem bounded_encodedInsertCopy
    (context : Context UInt32) :
    Bounded context.maxSize (encodedInsertCopy context) := by
  intro start
  refine .bind_input ?_
  dsimp only
  split
  · exact .pure (le_max_left _ _)
  · refine .bind_below fun off isOff => .bind_below fun drawn isDrawn => ?_
    split
    · exact .pure (le_max_left _ _)
    · rename_i len inserted
      obtain ⟨positive, short, room⟩ :=
        insertedLen_spec (Nat.add_pos_left Nat.one_pos drawn) inserted
      have inBound :
          start.input.length + len ≤ max start.input.length context.maxSize :=
        le_max_of_le_right room
      split
      · exact bounded_insertCopied rfl positive (by omega) (by omega) inBound
      · exact .bind_below fun source isSource =>
          bounded_insertCopied rfl positive (by omega) (by omega) inBound

theorem bounded_encodedCopy
    {maxSize : Nat} :
    Bounded maxSize encodedCopy := by
  intro start
  refine .bind_input ?_
  dsimp only
  split
  · exact .pure (le_max_left _ _)
  · refine .bind_below fun source isSource => .bind_below fun target isTarget => ?_
    refine .bind_below fun drawn isDrawn => .bind_input ?_
    have some : start.input ≠ [] := List.ne_nil_of_length_pos (by omega)
    refine bind_copyCodes ⟨some, some⟩ (by omega) (by omega)
      fun copied length => .pure ?_
    dsimp only
    omega

theorem bounded_encodedCrossoverInsert
    (context : Context UInt32)
    (some : 0 < context.count) :
    Bounded context.maxSize (encodedCrossoverInsert context) := by
  intro start
  refine .bind_input (.bind_otherCorpusId some fun idx => ?_)
  split
  · exact .pure (le_max_left _ _)
  · refine .bind_attempt fun other => ?_
    split
    · exact .pure (le_max_left _ _)
    · refine .bind_below fun source isSource => .bind_below fun target isTarget => ?_
      refine .bind_below fun drawn isDrawn => ?_
      dsimp only
      split
      · exact .pure (le_max_left _ _)
      · rename_i len inserted
        obtain ⟨positive, short, room⟩ :=
          insertedLen_spec (Nat.add_pos_left Nat.one_pos drawn) inserted
        have inBound :
          start.input.length + len ≤ max start.input.length context.maxSize :=
        le_max_of_le_right room
        refine .bind_input (.bind_setInput (.bind_input ?_))
        dsimp only
        have someInput : resize start.input (start.input.length + len) 0 ≠ [] :=
          List.ne_nil_of_length_pos (by rw [length_resize]; omega)
        have someOther : other ≠ [] := List.ne_nil_of_length_pos (by omega)
        refine bind_copyCodes ⟨someInput, someInput⟩ (by rw [length_resize]; omega)
          (by rw [length_resize]; omega) fun moved movedLength => .bind_input ?_
        rw [length_resize] at movedLength
        have someMoved : moved ≠ [] := List.ne_nil_of_length_pos (by omega)
        refine bind_copyCodes ⟨someMoved, someOther⟩ (by omega)
          (by dsimp only; omega) fun copied copiedLength => .pure ?_
        dsimp only at copiedLength ⊢
        omega

theorem bounded_encodedCrossoverReplace
    (context : Context UInt32)
    (some : 0 < context.count) :
    Bounded context.maxSize (encodedCrossoverReplace context) := by
  intro start
  refine .bind_input ?_
  dsimp only
  split
  · exact .pure (le_max_left _ _)
  · refine .bind_otherCorpusId some fun idx => ?_
    split
    · exact .pure (le_max_left _ _)
    · refine .bind_attempt fun other => ?_
      split
      · exact .pure (le_max_left _ _)
      · refine .bind_below fun source isSource => .bind_below fun len isLen => ?_
        refine .bind_below fun target isTarget => .bind_input ?_
        have someInput : start.input ≠ [] := List.ne_nil_of_length_pos (by omega)
        have someOther : other ≠ [] := List.ne_nil_of_length_pos (by omega)
        refine bind_copyCodes ⟨someInput, someOther⟩ (by omega) (by omega)
          fun copied length => .pure ?_
        dsimp only
        omega

/-- The mutators that look for another input. -/
def EncodedMutator.CrossesOver (mutator : EncodedMutator) : Prop :=
  mutator = .crossoverInsert ∨ mutator = .crossoverReplace

theorem EncodedMutator.bounded
    (context : Context UInt32)
    (mutator : EncodedMutator)
    (some : mutator.CrossesOver → 0 < context.count) :
    Bounded context.maxSize (mutator.mutate context) := by
  cases mutator with
  | rand =>
      exact bounded_encodedRand
  | inc =>
      exact bounded_encodedInc
  | dec =>
      exact bounded_encodedDec
  | add =>
      exact bounded_encodedAdd
  | delete =>
      exact bounded_encodedDelete
  | insertCopy =>
      exact bounded_encodedInsertCopy context
  | copy =>
      exact bounded_encodedCopy
  | crossoverInsert =>
      exact bounded_encodedCrossoverInsert context (some (.inl rfl))
  | crossoverReplace =>
      exact bounded_encodedCrossoverReplace context (some (.inr rfl))

/--
No encoded mutator panics, whatever is drawn, and what it leaves is not longer than
the input was or than the limit, if there is an entry for the crossovers to draw.
-/
theorem encoded_mutators_are_safe
    (context : Context UInt32)
    (mutator : EncodedMutator)
    (some : mutator.CrossesOver → 0 < context.count)
    (draws : List Nat)
    (start : Mutating UInt32) :
    let (result, left) := outcome (mutator.mutate context) ⟨draws, start⟩
    result ≠ .error .panicked ∧ result ≠ .error .hangs ∧
      ∀ returned, result = .ok returned →
        left.own.input.length ≤ max start.input.length context.maxSize := by
  have bounded := mutator.bounded context some start ⟨draws, start⟩ rfl
  generalize outcome (mutator.mutate context) ⟨draws, start⟩ = reached at bounded ⊢
  obtain ⟨result, left⟩ := reached
  cases result with
  | ok returned =>
      exact ⟨by simp, by simp, fun _ _ => bounded⟩
  | error failure =>
      exact ⟨fun same => bounded.1 (Except.error.inj same),
        fun same => bounded.2 (Except.error.inj same), by simp⟩

/-- A corpus with the ids below a count, whose inputs have three codes. -/
def Context.ofCount (count : Nat) : Context UInt32 where
  maxSize := 4
  count
  nth i := if i < count then Option.some i else none
  nth_isSome i inRange := by rw [if_pos inRange]; rfl
  current := none
  loadInput _ := .ok [1, 2, 3]

/-- Three codes are inserted into three up to the limit of four. -/
theorem crossover_of_three_codes :
    outcome (EncodedMutator.crossoverInsert.mutate (.ofCount 1))
        ⟨[0, 0, 2], ⟨[7, 8, 9], []⟩⟩ =
      (.ok .mutated, ⟨[], ⟨[1, 7, 8, 9], []⟩⟩) ∧
    (∀ returned,
      (outcome (EncodedMutator.crossoverInsert.mutate (.ofCount 1))
          ⟨[0, 0, 2], ⟨[7, 8, 9], []⟩⟩).1 = .ok returned →
        (outcome (EncodedMutator.crossoverInsert.mutate (.ofCount 1))
          ⟨[0, 0, 2], ⟨[7, 8, 9], []⟩⟩).2.own.input.length ≤ 4) :=
  ⟨by decide +kernel,
    (encoded_mutators_are_safe (.ofCount 1) .crossoverInsert
      (fun _ => Nat.one_pos) [0, 0, 2] ⟨[7, 8, 9], []⟩).2.2⟩

/-- Without an entry to draw, a crossover panics. -/
theorem crossover_without_entries_panics :
    (outcome (EncodedMutator.crossoverInsert.mutate (.ofCount 0))
        ⟨[], ⟨[7, 8, 9], []⟩⟩).1 = .error .panicked := by
  decide +kernel

end

end MeFuzz.Mutators
