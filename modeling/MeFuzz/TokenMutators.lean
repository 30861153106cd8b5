import MeFuzz.ByteMutators

namespace MeFuzz.Mutators

/-!
# Token mutators

The mutators that put a token of the dictionary into an input, or that look in the
input for an operand of a comparison and put the other operand there.
-/

/-- What is in the buffer of the input afterwards, where the copy is in range. -/
def copyInput (copied : Option Bytes) : Mutation (Mutating UInt8) Unit := do
  setInput (← unwrap copied)

/-- `TokenInsert::mutate`. -/
def tokenInsert
    (maxSize : Nat)
    (tokens : Option (List Bytes)) : ByteMutation := do
  match tokens with
  | none => pure .skipped
  | some tokens =>
      if tokens.isEmpty then pure .skipped
      else
        let tokenIdx ← below tokens.length
        let size := (← input).length
        let off ← below (size + 1)
        let token ← unwrap tokens[tokenIdx]?
        if maxSize < size + token.length ∧ maxSize ≤ size then pure .skipped
        else
          let len :=
            if maxSize < size + token.length then maxSize - size
            else token.length
          setInput (resize (← input) (size + len) 0)
          copyInput (bufferSelfCopy (← input) off (off + len) (size - off))
          copyInput (bufferCopy (← input) token 0 off len)
          pure .mutated

/-- `TokenReplace::mutate`. -/
def tokenReplace (tokens : Option (List Bytes)) : ByteMutation := do
  let size := (← input).length
  if size = 0 then pure .skipped
  else
    match tokens with
    | none => pure .skipped
    | some tokens =>
        if tokens.isEmpty then pure .skipped
        else
          let tokenIdx ← below tokens.length
          let off ← below size
          let token ← unwrap tokens[tokenIdx]?
          let len := if size < off + token.length then size - off else token.length
          copyInput (bufferCopy (← input) token 0 off len)
          pure .mutated

/-- `CmpValues`. -/
inductive CmpValues where
  | u8 (first second : UInt8)
  | u16 (first second : UInt16)
  | u32 (first second : UInt32)
  | u64 (first second : UInt64)
  | bytes (first second : Bytes)
  deriving DecidableEq

/-- The loop over single bytes, at the indices that are left. -/
def replaceByte (first second : UInt8) (bytes : Bytes) : List Nat → Option Bytes
  | [] => none
  | i :: rest =>
      if bytes[i]? = some first then some (bytes.set i second)
      else if bytes[i]? = some second then some (bytes.set i first)
      else replaceByte first second bytes rest

/-- What a word that matches an operand is replaced by. -/
def replacement (size first second val : Nat) : Option Bytes :=
  if val = first then some (toNeBytes size second)
  else if swapBytes size val = first then
    some (toNeBytes size (swapBytes size second))
  else if val = second then some (toNeBytes size first)
  else if swapBytes size val = second then
    some (toNeBytes size (swapBytes size first))
  else none

/-- The loop over words.  The outer option is for what is in range. -/
def replaceWord
    (size first second : Nat)
    (bytes : Bytes) : List Nat → Option (Option Bytes)
  | [] => some none
  | i :: rest => do
      let window ← slice bytes ⟨i, i + size⟩
      match replacement size first second (fromNeBytes window) with
      | some newBytes => some (some (overwrite bytes i newBytes))
      | none => replaceWord size first second bytes rest

/-- The inner loops over bytes, in which the size counts down. -/
def replacePrefix
    (this other bytes : Bytes)
    (i : Nat) : Nat → Option (Option Bytes)
  | 0 => some none
  | size + 1 => do
      let operand ← slice this ⟨0, size + 1⟩
      let window ← slice bytes ⟨i, i + (size + 1)⟩
      if operand = window then
        let copied ← bufferCopy bytes other 0 i (size + 1)
        some (some copied)
      else replacePrefix this other bytes i size

/-- The outer loop over bytes. -/
def replaceBytes (first second bytes : Bytes) : List Nat → Option (Option Bytes)
  | [] => some none
  | i :: rest => do
      match
          ← replacePrefix first second bytes i
            (min first.length (bytes.length - i)) with
      | some copied => some (some copied)
      | none =>
          match
              ← replacePrefix second first bytes i
                (min second.length (bytes.length - i)) with
          | some copied => some (some copied)
          | none => replaceBytes first second bytes rest

/-- The indices `start..stop`. -/
def indices (start stop : Nat) : List Nat :=
  List.range' start (stop - start)

/-- The loop over words, where there are enough bytes for one. -/
def replaceWordFrom
    (size first second : Nat)
    (bytes : Bytes)
    (off : Nat) : Option (Option Bytes) :=
  if size ≤ bytes.length then
    replaceWord size first second bytes (indices off (bytes.length - (size - 1)))
  else some none

/-- The `match` of `I2SRandReplace::mutate`. -/
def replaceOperand
    (bytes : Bytes)
    (off : Nat) : CmpValues → Option (Option Bytes)
  | .u8 first second =>
      some (replaceByte first second bytes (indices off bytes.length))
  | .u16 first second => replaceWordFrom 2 first.toNat second.toNat bytes off
  | .u32 first second => replaceWordFrom 4 first.toNat second.toNat bytes off
  | .u64 first second => replaceWordFrom 8 first.toNat second.toNat bytes off
  | .bytes first second =>
      replaceBytes first second bytes (indices off bytes.length)

/-- `I2SRandReplace::mutate`. -/
def i2sRandReplace (cmps : Option (List CmpValues)) : ByteMutation := do
  let size := (← input).length
  if size = 0 then pure .skipped
  else
    match cmps with
    | none => pure .skipped
    | some list =>
        if list.isEmpty then pure .skipped
        else
          let idx ← below list.length
          let off ← below size
          let cmpValues ← unwrap list[idx]?
          match ← unwrap (replaceOperand (← input) off cmpValues) with
          | none => pure .skipped
          | some bytes => do
              setInput bytes
              pure .mutated

/-- What the token mutators find in the state. -/
structure TokenContext where
  maxSize : Nat
  tokens : Option (List Bytes)
  cmps : Option (List CmpValues)

/-- The mutators of `token_mutations.rs`. -/
inductive TokenMutator where
  | tokenInsert
  | tokenReplace
  | i2sRandReplace
  deriving DecidableEq

/-- `mutate`. -/
def TokenMutator.mutate (context : TokenContext) : TokenMutator → ByteMutation
  | .tokenInsert => Mutators.tokenInsert context.maxSize context.tokens
  | .tokenReplace => Mutators.tokenReplace context.tokens
  | .i2sRandReplace => Mutators.i2sRandReplace context.cmps

end MeFuzz.Mutators
