import MeFuzz.BoundedMutations
import MeFuzz.BytesSwap
import MeFuzz.InputToState
import MeFuzz.SparingMutations

namespace MeFuzz.Mutators

open Procedure

/-!
# Havoc mutators are safe

One of the havoc mutators cannot take an input that is longer than the limit.  None of
them makes an input longer than that, so in a stack of mutators it is never given one.
-/

section

variable {Item Value : Type}

/-- A range that fits is read. -/
theorem exists_part
    {items : List Item}
    {range : Range}
    (fits : range.Fits items.length) :
    ∃ part, slice items range = some part ∧ part.length = range.len := by
  refine ⟨_, if_pos fits, ?_⟩
  obtain ⟨ordered, inside⟩ := fits
  rw [List.length_drop, List.length_take, Range.len]
  omega

/-- A copy within a list leaves as many items. -/
theorem exists_copyWithin
    {items : List Item}
    {range : Range}
    {dest : Nat}
    (fits : range.Fits items.length)
    (room : dest + range.len ≤ items.length) :
    ∃ copied, copyWithin items range dest = some copied ∧
      copied.length = items.length := by
  obtain ⟨part, isPart, length⟩ := exists_part fits
  have inRange : dest + part.length ≤ items.length := by omega
  refine ⟨overwrite items dest part, ?_, length_overwrite inRange⟩
  rw [copyWithin, isPart]
  exact if_pos inRange

/-- The mutator is bounded on inputs that are as long as a vector can be. -/
def VecBounded
    (maxSize : Nat)
    (mutation : Mutation (Mutating Item) Value) : Prop :=
  ∀ start, start.input.length ≤ isizeMax →
    BoundedFrom (max start.input.length maxSize) start mutation

variable {bound : Nat}
variable {start : Mutating Item}

theorem BoundedFrom.bind_choose
    {items : List Value}
    {Result : Type}
    {rest : Value → Mutation (Mutating Item) Result}
    (some : items ≠ [])
    (later : ∀ item ∈ items, BoundedFrom bound start (rest item)) :
    BoundedFrom bound start (choose items >>= rest) :=
  Meets.bind_choose some isOrderly_starved later

/-- A range is drawn that fits and is not too long. -/
theorem BoundedFrom.bind_randRange
    {upper maxLen : Nat}
    {rest : Range → Mutation (Mutating Item) Value}
    (positive : 0 < maxLen)
    (fits : upper + maxLen ≤ usizeMax)
    (later :
      ∀ range, range.Fits upper → range.len ≤ maxLen →
        BoundedFrom bound start (rest range)) :
    BoundedFrom bound start (randRange upper maxLen >>= rest) := by
  unfold randRange
  simp only [bind_assoc]
  refine .bind_next fun first => ?_
  have isShort : first % maxLen < maxLen := Nat.mod_lt _ positive
  rw [remUsize_of_pos positive, pure_bind]
  refine .bind_next fun second => ?_
  rw [addUsize_of_fits (by omega), pure_bind, remUsize_of_pos (by omega), pure_bind,
    pure_bind]
  exact later (drawnRange upper maxLen first second) drawnRange_fits
    (len_drawnRange_le positive)

/-- What is put into the place of a range has room. -/
theorem bounded_splice
    {replaceWith : List Item}
    {target : Range}
    (inTarget : target.Fits start.input.length)
    (short : start.input.length + replaceWith.length ≤ bound + target.len) :
    BoundedFrom bound start
      (do
        spliceInput target replaceWith
        pure MutationResult.mutated) := by
  refine .bind_spliceInput inTarget fun spliced isLength => .pure ?_
  dsimp only
  omega

/-- Part of one input is put into another one, in the place of a range. -/
theorem bounded_spliceFrom
    {items : List Item}
    {source target : Range}
    (inSource : source.Fits items.length)
    (inTarget : target.Fits start.input.length)
    (short : start.input.length + source.len ≤ bound + target.len) :
    BoundedFrom bound start
      (do
        let copied ← unwrap (slice items source)
        spliceInput target copied
        pure MutationResult.mutated) := by
  obtain ⟨part, isPart, length⟩ := exists_part inSource
  exact .bind_unwrap isPart (bounded_splice inTarget (by omega))

end

section

variable {maxSize : Nat}
variable {start : Mutating UInt8}

/-- What is skipped stays as it is. -/
theorem bounded_unless
    {skips : Prop}
    [Decidable skips]
    {mutation : ByteMutation}
    (later : ¬skips → BoundedFrom (max start.input.length maxSize) start mutation) :
    BoundedFrom (max start.input.length maxSize) start
      (if skips then pure .skipped else mutation) := by
  split
  · exact .pure (le_max_left _ _)
  · exact later ‹_›

theorem bounded_bitFlip : Bounded maxSize bitFlip :=
  bounded_unlessEmpty fun _ some =>
    .bind_choose (by decide) fun _ _ =>
      .changeChosen some (le_max_left _ _) fun _ => .pure fun _ same => same

theorem bounded_byteRand : Bounded maxSize byteRand :=
  bounded_changeChosen fun _ _ =>
    .bind_below isOrderly_starved fun _ _ => .pure fun _ same => same

/-- A word that is written over another leaves as many bytes. -/
theorem bounded_writeWord
    {size index : Nat}
    {word : Bytes}
    (inside : index + size ≤ start.input.length)
    (isWord : word.length = size) :
    BoundedFrom (max start.input.length maxSize) start
      (do
        setInput (overwrite start.input index word)
        pure MutationResult.mutated) := by
  refine .bind_setInput (.pure ?_)
  rw [length_overwrite (by omega)]
  exact le_max_left _ _

theorem bounded_addMutator
    (size : Nat) :
    Bounded maxSize (addMutator size) := by
  intro start
  refine .bind_input (bounded_unless fun long => ?_)
  refine .bind_below fun index isIndex => ?_
  have inside : index + size ≤ start.input.length := by omega
  obtain ⟨window, isWindow, _⟩ := exists_slice inside
  refine .bind_unwrap isWindow (.bind_below fun num _ => .bind_below fun kind _ => ?_)
  exact bounded_writeWord inside length_toNeBytes

theorem bounded_interestingMutator
    (size : Nat)
    {interesting : List Int}
    (some : interesting ≠ []) :
    Bounded maxSize (interestingMutator size interesting) := by
  intro start
  refine .bind_input (bounded_unless fun long => ?_)
  refine .bind_below fun index isIndex => ?_
  have inside : index + size ≤ start.input.length := by omega
  obtain ⟨window, isWindow, _⟩ := exists_slice inside
  refine .bind_choose some fun value _ => .bind_choose (by simp) fun order _ => ?_
  refine .bind_unwrap isWindow (bounded_writeWord inside ?_)
  split
  · exact BigEndian.length_encode size _
  · exact length_toNeBytes

/-- What is drawn to make an input longer is short. -/
theorem add_sixteen_le_usizeMax
    {size room : Nat}
    (isVec : size ≤ isizeMax) :
    size + min room 16 ≤ usizeMax := by
  unfold isizeMax at isVec
  unfold usizeMax
  omega

theorem bounded_bytesDelete : VecBounded maxSize bytesDelete := by
  intro start isVec
  refine .bind_input (bounded_unless fun long => ?_)
  refine .bind_randRange (by omega) (add_le_usizeMax isVec le_rfl le_rfl)
    fun range fits short => ?_
  refine bounded_unless fun some => .bind_drainInput fits fun _ items length => .pure ?_
  dsimp only
  omega

theorem bounded_bytesExpand
    (context : Context UInt8) :
    VecBounded context.maxSize (bytesExpand context) := by
  intro start isVec
  refine .bind_input (bounded_unless fun long => ?_)
  refine .bind_randRange (by omega) (add_sixteen_le_usizeMax isVec)
    fun range fits short => ?_
  refine bounded_unless fun some => ?_
  obtain ⟨ordered, inside⟩ := fits
  have isLen : range.len = range.stop - range.start := rfl
  refine .bind_input (.bind_setInput (.bind_input ?_))
  obtain ⟨copied, isCopied, length⟩ :=
    @exists_copyWithin _ (resize start.input (range.len + start.input.length) 0)
      { range with stop := start.input.length } range.stop
      ⟨by dsimp only; omega, by dsimp only; rw [length_resize]; omega⟩
      (by rw [length_resize, Range.len]; dsimp only; omega)
  refine .bind_unwrap isCopied (.bind_setInput (.pure ?_))
  rw [length_resize] at length
  dsimp only
  omega

/-- Bytes that are put into an input have room. -/
theorem bounded_insert
    {offset amount : Nat}
    {value : UInt8}
    (inInput : offset ≤ start.input.length)
    (room : start.input.length + amount ≤ maxSize) :
    BoundedFrom (max start.input.length maxSize) start
      (do
        spliceInput ⟨offset, offset⟩ (List.replicate amount value)
        pure MutationResult.mutated) := by
  refine bounded_splice ⟨le_rfl, inInput⟩ ?_
  rw [List.length_replicate]
  omega

theorem bounded_bytesInsert
    (context : Context UInt8) :
    Bounded context.maxSize (bytesInsert context) := by
  intro start
  refine .bind_input (bounded_unless fun long => ?_)
  refine .bind_below fun amount isAmount => .bind_below fun offset isOffset => ?_
  refine .bind_below fun index isIndex => .bind_input ?_
  refine .bind_unwrap (List.getElem?_eq_getElem (by omega)) ?_
  exact bounded_insert (by omega) (by omega)

theorem bounded_bytesRandInsert
    (context : Context UInt8) :
    Bounded context.maxSize (bytesRandInsert context) := by
  intro start
  refine .bind_input (bounded_unless fun long => ?_)
  refine .bind_below fun amount isAmount => .bind_below fun offset isOffset => ?_
  exact .bind_next fun value => bounded_insert (by omega) (by omega)

/-- Bytes that are written over others are as many. -/
theorem bounded_set
    {range : Range}
    {value : UInt8}
    (fits : range.Fits start.input.length) :
    BoundedFrom (max start.input.length maxSize) start
      (do
        spliceInput range (List.replicate range.len value)
        pure MutationResult.mutated) := by
  refine bounded_splice fits ?_
  rw [List.length_replicate]
  omega

theorem bounded_bytesSet : VecBounded maxSize bytesSet := by
  intro start isVec
  refine .bind_input (bounded_unless fun positive => ?_)
  refine .bind_randRange (by omega) (add_sixteen_le_usizeMax isVec)
    fun range fits short => ?_
  refine bounded_unless fun some => .bind_input (.bind_choose ?_ fun value _ => bounded_set fits)
  exact List.ne_nil_of_length_pos (Nat.pos_of_ne_zero positive)

theorem bounded_bytesRandSet : VecBounded maxSize bytesRandSet := by
  intro start isVec
  refine .bind_input (bounded_unless fun long => ?_)
  refine .bind_randRange (by omega) (add_sixteen_le_usizeMax isVec)
    fun range fits short => ?_
  exact bounded_unless fun some => .bind_next fun value => bounded_set fits

theorem bounded_bytesCopy : VecBounded maxSize bytesCopy := by
  intro start isVec
  refine .bind_input (bounded_unless fun long => ?_)
  refine .bind_below fun target isTarget => ?_
  refine .bind_randRange (by omega) (add_le_usizeMax isVec le_rfl (Nat.sub_le _ _))
    fun range fits short => .bind_input ?_
  obtain ⟨copied, isCopied, length⟩ := @exists_copyWithin _ _ _ target fits (by omega)
  refine .bind_unwrap isCopied (.bind_setInput (.pure ?_))
  dsimp only
  omega

/-- Bytes that are put into an input again need a limit that it is not beyond. -/
theorem bounded_bytesInsertCopy
    (context : Context UInt8)
    (start : Mutating UInt8)
    (isVec : start.input.length ≤ isizeMax)
    (short : start.input.length ≤ context.maxSize) :
    BoundedFrom (max start.input.length context.maxSize) start
      (bytesInsertCopy context) := by
  refine .bind_input (bounded_unless fun long => ?_)
  refine .bind_below fun target isTarget => ?_
  refine .bind_unwrap (if_pos short) ?_
  refine .bind_randRange (by omega)
    (add_le_usizeMax isVec le_rfl ((Nat.min_le_left _ _).trans (Nat.sub_le _ _)))
    fun range fits isShort => .bind_input ?_
  obtain ⟨part, isPart, length⟩ := exists_part fits
  refine .bind_unwrap isPart (.bind_setTmpBuf (.bind_own ?_))
  refine .bind_spliceInput ⟨le_rfl, by dsimp only; omega⟩ fun items isLength => ?_
  refine .bind_setTmpBuf (.pure ?_)
  rw [Range.len] at isLength
  dsimp only at isLength ⊢
  omega

/-- Where the input is beyond the limit, the difference overflows. -/
theorem bytesInsertCopy_panics
    (context : Context UInt8)
    (start : Mutating UInt8)
    (some : 1 < start.input.length)
    (long : context.maxSize < start.input.length)
    {target : Nat}
    {draws rest : List Nat}
    (drawn : Rand.below start.input.length draws = Option.some (target, rest)) :
    (outcome (bytesInsertCopy context) ⟨draws, start⟩).1 = .error .panicked := by
  unfold bytesInsertCopy
  rw [outcome_bind_ok outcome_input]
  dsimp only
  rw [if_neg (by omega), outcome_bind_ok (outcome_below drawn), subUsize,
    if_neg (by omega)]
  rfl

/-- Nothing is returned for an input beyond the limit. -/
theorem bytesInsertCopy_returns_nothing
    (context : Context UInt8)
    (some : 1 < start.input.length)
    (long : context.maxSize < start.input.length) :
    Meets (· = start) (bytesInsertCopy context) (fun _ _ => False)
      fun failure _ => failure ≠ .hangs := by
  unfold bytesInsertCopy input
  rw [bind_assoc]
  refine Meets.bind_own ?_
  rw [pure_bind, if_neg (by omega), subUsize, if_neg (by omega)]
  refine .bind (.below (fun _ _ same _ => same) fun _ _ => Failure.noConfusion) fun _ => ?_
  exact fun _ _ => (by decide : Failure.panicked ≠ .hangs)

/-- Two ranges of an input are exchanged, which leaves as many bytes. -/
theorem bounded_swapWithFront
    {first second : Range}
    (firstFits : first.Fits start.input.length)
    (secondFits : second.Fits first.start) :
    BoundedFrom (max start.input.length maxSize) start (swapWithFront first second) := by
  obtain ⟨after, exchanged⟩ := exists_exchanged secondFits firstFits
  rintro ⟨draws, _⟩ rfl
  rw [outcome_swapWithFront exchanged]
  exact exchanged.length_eq.le.trans (le_max_left _ _)

theorem bounded_bytesSwap : VecBounded maxSize bytesSwap := by
  intro start isVec
  refine .bind_input (bounded_unless fun long => ?_)
  refine .bind_setTmpBuf ?_
  refine .bind_randRange (by omega) (add_le_usizeMax isVec le_rfl le_rfl)
    fun first fits short => .bind_next fun side => ?_
  obtain ⟨ordered, inside⟩ := fits
  split
  · rename_i inFront
    refine .bind_randRange (Nat.pos_of_ne_zero inFront.2)
      (add_le_usizeMax isVec (ordered.trans inside) (ordered.trans inside))
      fun second secondFits _ => ?_
    exact @bounded_swapWithFront _ { start with tmpBuf := [] } _ _
      ⟨ordered, inside⟩ secondFits
  · split
    · refine .bind_randRange (by omega)
        (add_le_usizeMax isVec (Nat.sub_le _ _) (Nat.sub_le _ _))
        fun second secondFits _ => ?_
      obtain ⟨secondOrdered, secondInside⟩ := secondFits
      refine @bounded_swapWithFront _ { start with tmpBuf := [] } _ _
        ⟨Nat.add_le_add_right secondOrdered _, ?_⟩ ⟨ordered, Nat.le_add_left _ _⟩
      dsimp only
      omega
    · exact .pure (le_max_left _ _)

/-- What the havoc mutators rely on: an entry to draw, and tokens that are not empty. -/
structure Supplied
    (context : Context UInt8)
    (tokens : Option (List Bytes)) : Prop where
  entries : 0 < context.count
  vectors :
    ∀ idx other, context.loadInput idx = .ok other → other.length ≤ isizeMax
  tokens : ∀ list, tokens = some list → ∀ token ∈ list, token ≠ []

section

variable {context : Context UInt8}
variable {tokens : Option (List Bytes)}

/-- The input of an entry is a vector. -/
theorem Supplied.bind_load
    (supplied : Supplied context tokens)
    {bound : Nat}
    {idx : Corpus.CorpusId}
    {rest : Bytes → ByteMutation}
    (later :
      ∀ other, other.length ≤ isizeMax → BoundedFrom bound start (rest other)) :
    BoundedFrom bound start (attempt (context.loadInput idx) >>= rest) := by
  cases loaded : context.loadInput idx with
  | error error =>
      exact Meets.bind_attempt_error rfl isOrderly_error
  | ok other =>
      exact Meets.bind_attempt rfl (later other (supplied.vectors idx other loaded))

theorem Supplied.crossoverInsert
    (supplied : Supplied context tokens) :
    VecBounded context.maxSize (crossoverInsert context) := by
  intro start isVec
  refine .bind_input (bounded_unless fun long => ?_)
  refine .bind_otherCorpusId supplied.entries fun idx => ?_
  split
  · exact .pure (le_max_left _ _)
  · refine supplied.bind_load fun other otherIsVec => bounded_unless fun some => ?_
    refine .bind_randRange (by omega)
      (add_le_usizeMax otherIsVec le_rfl (Nat.min_le_left _ _))
      fun range fits short => .bind_below fun target isTarget => ?_
    have noLen : (⟨target, target⟩ : Range).len = 0 := Nat.sub_self target
    refine bounded_spliceFrom fits ⟨le_rfl, ?_⟩ ?_
    · dsimp only
      omega
    · omega

theorem Supplied.crossoverReplace
    (supplied : Supplied context tokens) :
    VecBounded context.maxSize (crossoverReplace context) := by
  intro start isVec
  refine .bind_input (bounded_unless fun long => ?_)
  refine .bind_otherCorpusId supplied.entries fun idx => ?_
  split
  · exact .pure (le_max_left _ _)
  · refine supplied.bind_load fun other otherIsVec => bounded_unless fun some => ?_
    refine .bind_below fun target isTarget => ?_
    refine .bind_randRange (by omega)
      (add_le_usizeMax otherIsVec le_rfl (Nat.min_le_left _ _))
      fun range fits short => ?_
    have sameLen : (⟨target, target + range.len⟩ : Range).len = range.len :=
      Nat.add_sub_cancel_left target _
    refine bounded_spliceFrom fits ⟨Nat.le_add_right _ _, ?_⟩ ?_
    · dsimp only
      omega
    · omega

/-- A copy in range leaves other bytes, as many as there were. -/
theorem bind_copyInput
    {bound : Nat}
    {rest : Unit → ByteMutation}
    {dst src : Bytes}
    {source target len : Nat}
    (some : dst ≠ [] ∧ src ≠ [])
    (inSource : source + len ≤ src.length)
    (inTarget : target + len ≤ dst.length)
    (later :
      ∀ copied, copied.length = dst.length →
        BoundedFrom bound { start with input := copied } (rest ())) :
    BoundedFrom bound start
      (copyInput (bufferCopy dst src source target len) >>= rest) := by
  obtain ⟨copied, isCopied, length⟩ := exists_bufferCopy _ _ _ some inSource inTarget
  unfold copyInput
  rw [bind_assoc]
  exact .bind_unwrap isCopied (.bind_setInput (later copied length))

/-- Part of a token is put into a gap that is made for it. -/
theorem bounded_insertToken
    {bound off len : Nat}
    {token : Bytes}
    (some : token ≠ [])
    (inInput : off ≤ start.input.length)
    (inToken : len ≤ token.length)
    (positive : 0 < len)
    (room : start.input.length + len ≤ bound) :
    BoundedFrom bound start
      (do
        let size := start.input.length
        setInput (resize (← input) (size + len) 0)
        copyInput (bufferSelfCopy (← input) off (off + len) (size - off))
        copyInput (bufferCopy (← input) token 0 off len)
        pure MutationResult.mutated) := by
  refine .bind_input (.bind_setInput (.bind_input ?_))
  dsimp only
  have someInput : resize start.input (start.input.length + len) 0 ≠ [] :=
    List.ne_nil_of_length_pos (by rw [length_resize]; omega)
  refine bind_copyInput ⟨someInput, someInput⟩ (by rw [length_resize]; omega)
    (by rw [length_resize]; omega) fun moved movedLength => .bind_input ?_
  rw [length_resize] at movedLength
  have someMoved : moved ≠ [] := List.ne_nil_of_length_pos (by omega)
  refine bind_copyInput ⟨someMoved, some⟩ (by omega) (by dsimp only; omega)
    fun copied copiedLength => .pure ?_
  dsimp only at copiedLength ⊢
  omega

theorem Supplied.tokenInsert
    (supplied : Supplied context tokens) :
    Bounded context.maxSize (tokenInsert context.maxSize tokens) := by
  intro start
  unfold Mutators.tokenInsert
  split
  · exact .pure (le_max_left _ _)
  · rename_i list
    refine bounded_unless fun notEmpty => ?_
    refine .bind_below fun tokenIdx isIdx => .bind_input (.bind_below fun off isOff => ?_)
    have positive : 0 < list.length := List.length_pos_iff.mpr (by simpa using notEmpty)
    have inList : tokenIdx < list.length := by omega
    have some := supplied.tokens list rfl _ (List.getElem_mem inList)
    have tokenPositive := List.length_pos_iff.mpr some
    refine .bind_unwrap (List.getElem?_eq_getElem inList) (bounded_unless fun room => ?_)
    exact bounded_insertToken some (by omega) (by split <;> omega) (by split <;> omega)
      (by split <;> omega)

theorem Supplied.tokenReplace
    (supplied : Supplied context tokens) :
    Bounded context.maxSize (tokenReplace tokens) := by
  intro start
  refine .bind_input (bounded_unless fun notZero => ?_)
  split
  · exact .pure (le_max_left _ _)
  · rename_i list
    refine bounded_unless fun notEmpty => ?_
    refine .bind_below fun tokenIdx isIdx => .bind_below fun off isOff => ?_
    have positive : 0 < list.length := List.length_pos_iff.mpr (by simpa using notEmpty)
    have inList : tokenIdx < list.length := by omega
    refine .bind_unwrap (List.getElem?_eq_getElem inList) (.bind_input ?_)
    have some := supplied.tokens list rfl _ (List.getElem_mem inList)
    have someInput : start.input ≠ [] :=
      List.ne_nil_of_length_pos (Nat.pos_of_ne_zero notZero)
    refine bind_copyInput ⟨someInput, some⟩ (by split <;> omega) (by split <;> omega)
      fun copied length => .pure ?_
    dsimp only
    omega

end

/-- A mutator of `havoc_mutations` or `tokens_mutations`. -/
inductive HavocMutator where
  | byte (mutator : ByteMutator)
  | token (mutator : TokenMutator)
  deriving DecidableEq

/-- `mutate`. -/
def HavocMutator.mutate
    (context : Context UInt8)
    (tokens : Option (List Bytes)) : HavocMutator → ByteMutation
  | .byte mutator => mutator.mutate context
  | .token mutator => mutator.mutate ⟨context.maxSize, tokens, none⟩

/-- `havoc_mutations`. -/
def havocMutations : List HavocMutator :=
  [.byte .bitFlip, .byte .byteFlip, .byte .byteInc, .byte .byteDec, .byte .byteNeg,
    .byte .byteRand, .byte .byteAdd, .byte .wordAdd, .byte .dwordAdd, .byte .qwordAdd,
    .byte .byteInteresting, .byte .wordInteresting, .byte .dwordInteresting,
    .byte .bytesDelete, .byte .bytesDelete, .byte .bytesDelete, .byte .bytesDelete,
    .byte .bytesExpand, .byte .bytesInsert, .byte .bytesRandInsert, .byte .bytesSet,
    .byte .bytesRandSet, .byte .bytesCopy, .byte .bytesInsertCopy, .byte .bytesSwap,
    .byte .crossoverInsert, .byte .crossoverReplace]

/-- `tokens_mutations`. -/
def tokensMutations : List HavocMutator :=
  [.token .tokenInsert, .token .tokenReplace]

/-- The mutator can take an input, whatever is drawn. -/
def HavocMutator.Takes
    (maxSize : Nat)
    (bytes : Bytes)
    (mutator : HavocMutator) : Prop :=
  mutator = .byte .bytesInsertCopy → bytes.length ≤ 1 ∨ bytes.length ≤ maxSize

section

variable {context : Context UInt8}
variable {tokens : Option (List Bytes)}
variable {mutator : HavocMutator}

/-- A short input is skipped, and another one is within the limit. -/
theorem bounded_bytesInsertCopy_of_takes
    (isVec : start.input.length ≤ isizeMax)
    (takes : start.input.length ≤ 1 ∨ start.input.length ≤ context.maxSize) :
    BoundedFrom (max start.input.length context.maxSize) start
      (bytesInsertCopy context) := by
  rcases takes with short | short
  · refine .bind_input ?_
    dsimp only
    rw [if_pos (.inl short)]
    exact .pure (le_max_left _ _)
  · exact bounded_bytesInsertCopy context start isVec short

/-- All havoc mutators are followed from an input that they can take. -/
theorem Supplied.bounded
    (supplied : Supplied context tokens)
    (isHavoc : mutator ∈ havocMutations ++ tokensMutations)
    (isVec : start.input.length ≤ isizeMax)
    (takes : mutator.Takes context.maxSize start.input) :
    BoundedFrom (max start.input.length context.maxSize) start
      (mutator.mutate context tokens) := by
  cases mutator with
  | token mutator =>
      cases mutator with
      | tokenInsert =>
          exact supplied.tokenInsert start
      | tokenReplace =>
          exact supplied.tokenReplace start
      | i2sRandReplace =>
          simp [havocMutations, tokensMutations] at isHavoc
  | byte mutator =>
      cases mutator with
      | bitFlip =>
          exact bounded_bitFlip start
      | byteFlip =>
          exact bounded_changeChosen (fun _ _ => .pure fun _ same => same) start
      | byteInc =>
          exact bounded_changeChosen (fun _ _ => .pure fun _ same => same) start
      | byteDec =>
          exact bounded_changeChosen (fun _ _ => .pure fun _ same => same) start
      | byteNeg =>
          exact bounded_changeChosen (fun _ _ => .pure fun _ same => same) start
      | byteRand =>
          exact bounded_byteRand start
      | byteAdd =>
          exact bounded_addMutator 1 start
      | wordAdd =>
          exact bounded_addMutator 2 start
      | dwordAdd =>
          exact bounded_addMutator 4 start
      | qwordAdd =>
          exact bounded_addMutator 8 start
      | byteInteresting =>
          exact bounded_interestingMutator 1 (List.cons_ne_nil _ _) start
      | wordInteresting =>
          exact bounded_interestingMutator 2 (List.cons_ne_nil _ _) start
      | dwordInteresting =>
          exact bounded_interestingMutator 4 (List.cons_ne_nil _ _) start
      | bytesDelete =>
          exact bounded_bytesDelete start isVec
      | bytesExpand =>
          exact bounded_bytesExpand context start isVec
      | bytesInsert =>
          exact bounded_bytesInsert context start
      | bytesRandInsert =>
          exact bounded_bytesRandInsert context start
      | bytesSet =>
          exact bounded_bytesSet start isVec
      | bytesRandSet =>
          exact bounded_bytesRandSet start isVec
      | bytesCopy =>
          exact bounded_bytesCopy start isVec
      | bytesInsertCopy =>
          exact bounded_bytesInsertCopy_of_takes isVec (takes rfl)
      | bytesSwap =>
          exact bounded_bytesSwap start isVec
      | crossoverInsert =>
          exact supplied.crossoverInsert start isVec
      | crossoverReplace =>
          exact supplied.crossoverReplace start isVec
      | splice =>
          simp [havocMutations, tokensMutations] at isHavoc

theorem HavocMutator.skips_untouched
    (mutator : HavocMutator) :
    SkipsUntouched Mutating.input (mutator.mutate context tokens) := by
  cases mutator with
  | byte mutator =>
      exact mutator.skips_untouched
  | token mutator =>
      exact mutator.skips_untouched

/--
A single havoc mutator can panic on an input exactly where it inserts a copy into one
that is beyond the limit.
-/
theorem havoc_mutator_panics_iff
    (supplied : Supplied context tokens)
    (isHavoc : mutator ∈ havocMutations ++ tokensMutations)
    (start : Mutating UInt8)
    (isVec : start.input.length ≤ isizeMax) :
    (∃ draws,
        (outcome (mutator.mutate context tokens) ⟨draws, start⟩).1 = .error .panicked) ↔
      mutator = .byte .bytesInsertCopy ∧ 1 < start.input.length ∧
        context.maxSize < start.input.length := by
  constructor
  · rintro ⟨draws, panics⟩
    by_contra notLong
    have takes : mutator.Takes context.maxSize start.input := by
      intro inserts
      by_contra long
      exact notLong ⟨inserts, by omega, by omega⟩
    have bounded := supplied.bounded isHavoc isVec takes ⟨draws, start⟩ rfl
    generalize outcome (mutator.mutate context tokens) ⟨draws, start⟩ = reached
      at panics bounded
    obtain ⟨result, left⟩ := reached
    cases panics
    exact bounded.1 rfl
  · rintro ⟨rfl, some, long⟩
    obtain ⟨draws, drawn⟩ :=
      Rand.exists_below (show 0 < start.input.length by omega) (isVec.trans (by decide))
    exact ⟨draws, bytesInsertCopy_panics context start some long drawn⟩

/--
Whatever is drawn, a single havoc mutator ends, and an input that it returns is not longer
than it was or may be.
-/
theorem havoc_mutator_is_bounded
    (supplied : Supplied context tokens)
    (isHavoc : mutator ∈ havocMutations ++ tokensMutations)
    (draws : List Nat)
    (start : Mutating UInt8)
    (isVec : start.input.length ≤ isizeMax) :
    let (result, left) := outcome (mutator.mutate context tokens) ⟨draws, start⟩
    result ≠ .error .hangs ∧
      ∀ returned, result = .ok returned →
        left.own.input.length ≤ max start.input.length context.maxSize := by
  have ends :
      Meets (· = start) (mutator.mutate context tokens)
        (fun _ now => now.input.length ≤ max start.input.length context.maxSize)
        fun failure _ => failure ≠ .hangs := by
    by_cases takes : mutator.Takes context.maxSize start.input
    · exact Meets.weaken (supplied.bounded isHavoc isVec takes) (fun _ => id) (fun _ _ => id)
        fun _ _ orderly => orderly.2
    · rw [HavocMutator.Takes] at takes
      push Not at takes
      obtain ⟨rfl, some, long⟩ := takes
      exact Meets.weaken (bytesInsertCopy_returns_nothing context some long) (fun _ => id)
        (fun _ _ => False.elim) fun _ _ => id
  have reached := ends ⟨draws, start⟩ rfl
  generalize outcome (mutator.mutate context tokens) ⟨draws, start⟩ = result at reached ⊢
  obtain ⟨result, left⟩ := result
  cases result with
  | ok returned =>
      exact ⟨by simp, fun _ _ => reached⟩
  | error failure =>
      exact ⟨fun same => reached (Except.error.inj same), by simp⟩

end

/-- `iterations`; the shift panics where it overflows. -/
def iterations (maxStackPow : Nat) : Mutation (Mutating UInt8) Nat := do
  let pow ← below maxStackPow
  unwrap (if 1 + pow < 64 then some (1 <<< (1 + pow)) else none)

/-- `schedule`, with its assertion. -/
def schedule (mutations : List ByteMutation) : Mutation (Mutating UInt8) Nat :=
  if mutations.isEmpty then throw .panicked
  else below mutations.length

/-- `get_and_mutate` of a tuple of mutators. -/
def getAndMutate : List ByteMutation → Nat → ByteMutation
  | [], _ => pure .skipped
  | first :: _, 0 => first
  | _ :: rest, index + 1 => getAndMutate rest index

/-- The loop of `scheduled_mutate`. -/
def mutateTimes (mutations : List ByteMutation) : Nat → MutationResult → ByteMutation
  | 0, result => pure result
  | num + 1, result => do
      let idx ← schedule mutations
      let returned ← getAndMutate mutations idx
      mutateTimes mutations num (if returned = .mutated then .mutated else result)

/-- `StdScheduledMutator::mutate`. -/
def scheduledMutate
    (maxStackPow : Nat)
    (mutations : List ByteMutation) : ByteMutation := do
  let num ← iterations maxStackPow
  mutateTimes mutations num .skipped

/-- From an input within the limit, the mutator leaves one within the limit. -/
def StaysWithin
    {Value : Type}
    (maxSize : Nat)
    (mutation : Mutation (Mutating UInt8) Value) : Prop :=
  Meets (fun now => now.input.length ≤ maxSize) mutation
    (fun _ now => now.input.length ≤ maxSize) fun failure _ => failure.IsOrderly

section

variable {mutations : List ByteMutation}

theorem getAndMutate_cases
    (idx : Nat) :
    getAndMutate mutations idx = pure .skipped ∨
      getAndMutate mutations idx ∈ mutations := by
  induction mutations generalizing idx with
  | nil =>
      exact .inl rfl
  | cons first rest ih =>
      cases idx with
      | zero =>
          exact .inr List.mem_cons_self
      | succ idx =>
          exact (ih idx).imp_right (List.mem_cons_of_mem first)

theorem staysWithin_schedule
    (some : mutations ≠ []) :
    StaysWithin maxSize (schedule mutations) := by
  unfold schedule
  rw [if_neg (by simpa using some)]
  exact .below (fun _ _ short _ => short) fun _ _ => isOrderly_starved

theorem staysWithin_iterations
    {maxStackPow : Nat}
    (isPow : maxStackPow ≤ 63) :
    StaysWithin maxSize (iterations maxStackPow) := by
  have drawn :
      Meets (fun now : Mutating UInt8 => now.input.length ≤ maxSize) (below maxStackPow)
        (fun pow now => (pow = 0 ∨ pow < maxStackPow) ∧ now.input.length ≤ maxSize)
        fun failure _ => failure.IsOrderly :=
    .below (fun _ _ short isPow => ⟨isPow, short⟩) fun _ _ => isOrderly_starved
  refine drawn.bind fun pow => .of_fact fun isBelow => ?_
  rw [if_pos (by omega)]
  exact .pure fun _ short => short

/-- A step lemma for each mutator of a stack gives one for the stack. -/
theorem staysWithin_scheduledMutate
    {maxStackPow : Nat}
    (isPow : maxStackPow ≤ 63)
    (some : mutations ≠ [])
    (each : ∀ mutation ∈ mutations, StaysWithin maxSize mutation) :
    StaysWithin maxSize (scheduledMutate maxStackPow mutations) := by
  refine Meets.bind (staysWithin_iterations isPow) fun num => ?_
  generalize MutationResult.skipped = result
  induction num generalizing result with
  | zero =>
      exact .pure fun _ short => short
  | succ num ih =>
      refine Meets.bind (staysWithin_schedule some) fun idx => ?_
      refine Meets.bind ?_ fun returned => ih _
      rcases getAndMutate_cases idx with isSkip | isMember
      · rw [isSkip]
        exact .pure fun _ short => short
      · exact each _ isMember

/-- A stack in which something was mutated says so. -/
theorem never_skips_mutateTimes
    (num : Nat) :
    Never (· = .skipped) (mutateTimes mutations num .mutated) := by
  induction num with
  | zero =>
      exact never_skips
  | succ num ih =>
      refine .bind fun idx => .bind fun returned => ?_
      rw [ite_self]
      exact ih

/-- A stack spares an input that it skips if each of its mutators does. -/
theorem scheduledMutate_skips_untouched
    {maxStackPow : Nat}
    (each : ∀ mutation ∈ mutations, SkipsUntouched Mutating.input mutation) :
    SkipsUntouched Mutating.input (scheduledMutate maxStackPow mutations) := by
  have keepsIterations : Keeps Mutating.input (iterations maxStackPow) :=
    Spares.bind Keeps.below fun _ => Keeps.unwrap
  refine keepsIterations.bind fun num => ?_
  induction num with
  | zero =>
      exact .pure
  | succ num ih =>
      have keepsSchedule : Keeps Mutating.input (schedule mutations) := by
        unfold schedule
        split
        · exact .throw
        · exact Keeps.below
      refine keepsSchedule.bind fun idx => ?_
      have skips : SkipsUntouched Mutating.input (getAndMutate mutations idx) := by
        rcases getAndMutate_cases idx with isSkip | isMember
        · rw [isSkip]
          exact .pure
        · exact each _ isMember
      refine skips.bind_kind (fun returned isSkip => ?_) fun returned notSkip => ?_
      · rw [isSkip]
        exact ih
      · cases returned with
        | skipped =>
            exact absurd rfl notSkip
        | mutated =>
            exact never_skips_mutateTimes num

end

/-- The mutators of a stack of all havoc mutators. -/
def stackedMutations
    (context : Context UInt8)
    (tokens : Option (List Bytes)) : List ByteMutation :=
  (havocMutations ++ tokensMutations).map fun mutator => mutator.mutate context tokens

section

variable {context : Context UInt8}
variable {tokens : Option (List Bytes)}

theorem Supplied.staysWithin
    (supplied : Supplied context tokens)
    (isVec : context.maxSize ≤ isizeMax)
    {maxStackPow : Nat}
    (isPow : maxStackPow ≤ 63) :
    StaysWithin context.maxSize
      (scheduledMutate maxStackPow (stackedMutations context tokens)) := by
  refine staysWithin_scheduledMutate isPow (List.cons_ne_nil _ _) fun mutation isMember => ?_
  obtain ⟨mutator, isHavoc, rfl⟩ := List.mem_map.mp isMember
  refine .of_each fun start short => ?_
  have bounded :=
    supplied.bounded isHavoc (short.trans isVec) fun _ => .inr short
  rw [max_eq_right short] at bounded
  exact bounded

theorem stack_skips_untouched
    (context : Context UInt8)
    (tokens : Option (List Bytes))
    (maxStackPow : Nat) :
    SkipsUntouched Mutating.input
      (scheduledMutate maxStackPow (stackedMutations context tokens)) := by
  refine scheduledMutate_skips_untouched fun mutation isMember => ?_
  obtain ⟨mutator, _, rfl⟩ := List.mem_map.mp isMember
  exact mutator.skips_untouched

/--
Whatever is drawn, a stack of havoc mutators on an input within the limit does not
panic and leaves an input within the limit, which is the same if all of them skipped.
-/
theorem stacked_havoc_is_safe
    (supplied : Supplied context tokens)
    (isVec : context.maxSize ≤ isizeMax)
    (maxStackPow : Nat)
    (isPow : maxStackPow ≤ 63)
    (draws : List Nat)
    (start : Mutating UInt8)
    (short : start.input.length ≤ context.maxSize) :
    let (result, left) :=
      outcome (scheduledMutate maxStackPow (stackedMutations context tokens)) ⟨draws, start⟩
    result ≠ .error .panicked ∧ result ≠ .error .hangs ∧
      (∀ returned, result = .ok returned →
        left.own.input.length ≤ context.maxSize) ∧
      (result = .ok .skipped → left.own.input = start.input) := by
  have within := supplied.staysWithin isVec isPow ⟨draws, start⟩ short
  have spares :=
    stack_skips_untouched context tokens maxStackPow start.input ⟨draws, start⟩ rfl
  generalize
    outcome (scheduledMutate maxStackPow (stackedMutations context tokens)) ⟨draws, start⟩ =
      reached at within spares ⊢
  obtain ⟨result, left⟩ := reached
  cases result with
  | ok returned =>
      exact ⟨by simp, by simp, fun _ _ => within, fun isSkip => spares (Except.ok.inj isSkip)⟩
  | error failure =>
      exact ⟨fun same => within.1 (Except.error.inj same),
        fun same => within.2 (Except.error.inj same), by simp, by simp⟩

end

end

/-- One entry of three bytes, and a limit of four. -/
def Context.oneEntry : Context UInt8 where
  maxSize := 4
  count := 1
  nth _ := some 0
  nth_isSome _ _ := rfl
  current := none
  loadInput _ := .ok [1, 2, 3]

theorem supplied_oneEntry : Supplied .oneEntry (some [[7]]) where
  entries := Nat.one_pos
  vectors := by
    rintro idx other ⟨⟩
    decide
  tokens := by
    rintro list ⟨⟩ token isToken
    cases List.mem_singleton.mp isToken
    exact List.cons_ne_nil _ _

theorem havoc_mutator_panics_iff_five_bytes :
    ∃ draws,
      (outcome
          ((HavocMutator.byte .bytesInsertCopy).mutate .oneEntry (some [[7]]))
          ⟨draws, ⟨[1, 2, 3, 4, 5], []⟩⟩).1 =
        .error .panicked :=
  (havoc_mutator_panics_iff supplied_oneEntry (by decide) ⟨[1, 2, 3, 4, 5], []⟩
    (by decide)).mpr ⟨rfl, by decide, by decide⟩

/-- A mutator that expands an input fills it up to the limit. -/
theorem havoc_mutator_is_bounded_three_bytes :
    outcome ((HavocMutator.byte .bytesExpand).mutate .oneEntry (some [[7]]))
        ⟨[0, 1], ⟨[1, 2, 3], []⟩⟩ =
      (.ok .mutated, ⟨[], ⟨[1, 1, 2, 3], []⟩⟩) ∧
    ∀ returned,
      (outcome ((HavocMutator.byte .bytesExpand).mutate .oneEntry (some [[7]]))
          ⟨[0, 1], ⟨[1, 2, 3], []⟩⟩).1 = .ok returned →
        (outcome ((HavocMutator.byte .bytesExpand).mutate .oneEntry (some [[7]]))
          ⟨[0, 1], ⟨[1, 2, 3], []⟩⟩).2.own.input.length ≤ 4 :=
  ⟨by decide +kernel,
    (@havoc_mutator_is_bounded .oneEntry (some [[7]]) (.byte .bytesExpand) supplied_oneEntry
      (by decide) [0, 1] ⟨[1, 2, 3], []⟩ (by decide)).2⟩

/-- A byte is flipped, and a token does not fit and is cut. -/
theorem stacked_havoc_is_safe_three_bytes :
    outcome (scheduledMutate 1 (stackedMutations .oneEntry (some [[7]])))
        ⟨[1, 2, 27, 0], ⟨[1, 2, 3], []⟩⟩ =
      (.ok .mutated, ⟨[], ⟨[7, 1, 2, 0xfc], []⟩⟩) ∧
    (∀ returned,
      (outcome (scheduledMutate 1 (stackedMutations .oneEntry (some [[7]])))
          ⟨[1, 2, 27, 0], ⟨[1, 2, 3], []⟩⟩).1 = .ok returned →
        (outcome (scheduledMutate 1 (stackedMutations .oneEntry (some [[7]])))
          ⟨[1, 2, 27, 0], ⟨[1, 2, 3], []⟩⟩).2.own.input.length ≤
            Context.oneEntry.maxSize) :=
  ⟨by decide +kernel,
    (stacked_havoc_is_safe supplied_oneEntry (by decide) 1 (by decide) [1, 2, 27, 0]
      ⟨[1, 2, 3], []⟩ (by decide)).2.2.1⟩

end MeFuzz.Mutators
