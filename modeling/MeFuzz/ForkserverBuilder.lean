import MeFuzz.ByteStream
import MeFuzz.Procedures

namespace MeFuzz.ForkserverBuilder

open ByteStream

/-!
# Building an executor on a forkserver

The target announces its options and the size of its coverage map in one word.  The
builder answers with the options that it wants too, if there are any, and reads the
target's dictionary if that is one of them.  Each read finds what the pipe has by
then.
-/

/-- An `i32`, by its bits. -/
abbrev Word := BitVec 32

def fsOptEnabled : Word := 0x80000001

def fsOptMapsize : Word := 0x40000000

def fsOptShdmemFuzz : Word := 0x01000000

def fsOptAutodict : Word := 0x10000000

/-- `fs_opt_get_mapsize`; the masked word has no sign. -/
def fsOptGetMapsize (x : Word) : Nat :=
  ((x &&& 0x00fffffe).toNat >>> 1) + 1

/-- The word has all bits of an option. -/
def HasOption (word option : Word) : Prop :=
  word &&& option = option

instance (word option : Word) : Decidable (HasOption word option) :=
  inferInstanceAs (Decidable (_ = _))

/-- `i32::from_ne_bytes`, least significant byte first. -/
def fromNeBytes (bytes : Bytes) : Word :=
  BitVec.ofNat 32 (BigEndian.decode bytes.reverse)

/-- `i32::to_ne_bytes`. -/
def toNeBytes (word : Word) : Bytes :=
  (BigEndian.encode 4 word.toNat).reverse

/-- `Tokens`: the set is there to find duplicates. -/
structure Tokens where
  tokensVec : List Bytes
  tokensSet : Finset Bytes
  same : ∀ token, token ∈ tokensSet ↔ token ∈ tokensVec

namespace Tokens

/-- `Tokens::new`. -/
def new : Tokens where
  tokensVec := []
  tokensSet := ∅
  same := by simp

/-- `add_token`. -/
def addToken (tokens : Tokens) (token : Bytes) : Tokens :=
  if token ∈ tokens.tokensSet then tokens
  else
    { tokensVec := tokens.tokensVec ++ [token]
      tokensSet := insert token tokens.tokensSet
      same := by
        intro other
        simp [tokens.same, or_comm] }

/-- The loop of `parse_autodict`; `none` when it panics. -/
def parseAutodictFrom
    (slice : Bytes)
    (size : Nat) :
    Nat → Nat → Tokens → Option Tokens
  | 0, _, _ => none
  | fuel + 1, head, tokens =>
      if size ≤ head then
        if head = size then some tokens else none
      else
        match slice[head]? with
        | none => none
        | some length =>
            let head := head + 1
            if 0 < length.toNat then
              if slice.length < head + length.toNat then none
              else
                parseAutodictFrom slice size fuel (head + length.toNat)
                  (tokens.addToken ((slice.drop head).take length.toNat))
            else parseAutodictFrom slice size fuel head tokens

/-- `parse_autodict`: each pass goes on by a byte at least. -/
def parseAutodict (tokens : Tokens) (slice : Bytes) (size : Nat) : Option Tokens :=
  parseAutodictFrom slice size (size + 1) 0 tokens

end Tokens

/-- `ForkserverExecutorBuilder`, as far as the handshake uses it. -/
structure Builder where
  program : Option String
  usesShmemTestcase : Bool
  autotokens : Option Tokens
  shmemProvider : Bool
  mapSize : Option Nat
  realMapSize : Nat

/-- `ForkserverExecutorBuilder::new`. -/
def Builder.new : Builder where
  program := none
  usesShmemTestcase := false
  autotokens := none
  shmemProvider := false
  mapSize := none
  realMapSize := 0

/-- What the system answers when the forkserver is set up and written to. -/
structure System where
  inputFile : Bool
  newShmem : Bool
  spawned : Bool
  /-- How many bytes `write_ctl` has written, if it could write. -/
  written : Option Nat

/-- The builder, what its reads will find, which of them fail, and its words. -/
structure State where
  builder : Builder
  stPipe : Chunks
  failing : List Bool
  replies : List Word

/-- Why there is no executor. -/
inductive Failure where
  | os
  | illegalArgument (message : String)
  | illegalState (message : String)
  | unknown (message : String)
  | panicked
  deriving Repr, DecidableEq

abbrev Building (Value : Type) :=
  Procedure Failure State Value

/-- A read from the pipe: what it finds, up to the size asked for. -/
def read (size : Nat) : Building Bytes := do
  let state ← get
  if state.failing.headD false then
    set { state with failing := state.failing.tail }
    throw .os
  else
    match readOnce size state.stPipe with
    | none =>
        set { state with failing := state.failing.tail }
        pure []
    | some (bytes, rest) =>
        set { state with stPipe := rest, failing := state.failing.tail }
        pure bytes

/-- `read_st`. -/
def readSt : Building (Nat × Word) := do
  let bytes ← read 4
  pure
    (bytes.length,
      fromNeBytes (bytes ++ List.replicate (4 - bytes.length) 0))

/-- `read_st_size`. -/
def readStSize (size : Nat) : Building (Nat × Bytes) := do
  let bytes ← read size
  pure (bytes.length, bytes ++ List.replicate (size - bytes.length) 0)

/-- `write_ctl`. -/
def writeCtl (system : System) (word : Word) : Building Nat := do
  match system.written with
  | none => throw .os
  | some length =>
      modify fun state => { state with replies := state.replies ++ [word] }
      pure length

/-- A map size rounded up to a multiple of 64. -/
def roundUp (mapSize : Nat) : Nat :=
  if mapSize % 64 ≠ 0 then (mapSize + 63) >>> 6 <<< 6 else mapSize

/-- Take over the map size that the target announces. -/
def takeMapSize (status : Word) : Building Unit := do
  if HasOption status fsOptEnabled ∧ HasOption status fsOptMapsize then
    let mapSize := fsOptGetMapsize status
    modify fun state =>
      { state with builder := { state.builder with realMapSize := mapSize } }
    let builder := (← get).builder
    if builder.mapSize.any fun configured => configured < roundUp mapSize then
      throw .panicked
    modify fun state =>
      { state with
        builder := { state.builder with mapSize := some (roundUp mapSize) } }

/-- The options that the builder answers with. -/
def sendStatus (status : Word) (map autotokens : Bool) : Word :=
  let sendStatus := fsOptEnabled
  let sendStatus :=
    if HasOption status fsOptShdmemFuzz ∧ map then
      sendStatus ||| fsOptShdmemFuzz
    else sendStatus
  if HasOption status fsOptAutodict ∧ autotokens then
    sendStatus ||| fsOptAutodict
  else sendStatus

/-- Read the dictionary that the target sends. -/
def loadAutodict : Building Unit := do
  let (readLen, dictSize) ← readSt
  if readLen ≠ 4 then throw (.unknown "Reading from forkserver failed.")
  if ¬(2 ≤ dictSize.toInt ∧ dictSize.toInt ≤ 0xffffff) then
    throw (.illegalState "Dictionary has an illegal size")
  let (rlen, buf) ← readStSize dictSize.toNat
  if rlen ≠ dictSize.toNat then
    throw (.unknown "Failed to load autodictionary")
  let state ← get
  match state.builder.autotokens with
  | none => pure ()
  | some tokens =>
      match tokens.parseAutodict buf dictSize.toNat with
      | none => throw .panicked
      | some tokens =>
          set
            { state with
              builder := { state.builder with autotokens := some tokens } }

/-- Put the testcases into shared memory if the target can read them there. -/
def useShmem (status : Word) (map : Bool) : Building Unit := do
  if HasOption status fsOptShdmemFuzz ∧ map then
    modify fun state =>
      { state with
        builder := { state.builder with usesShmemTestcase := true } }

/-- Send the options that both want, unless there are none. -/
def reply (system : System) (status : Word) (map : Bool) : Building Unit := do
  let autotokens := (← get).builder.autotokens.isSome
  let word := sendStatus status map autotokens
  if word ≠ fsOptEnabled then
    let sendLen ← writeCtl system word
    if sendLen ≠ 4 then
      throw (.unknown "Writing to forkserver failed.")
    if HasOption word fsOptAutodict then loadAutodict

/-- Answer the options of the target. -/
def agree (system : System) (status : Word) (map : Bool) : Building Unit := do
  if HasOption status fsOptEnabled ∧
      (HasOption status fsOptShdmemFuzz ∨ HasOption status fsOptAutodict) then
    useShmem status map
    reply system status map

/-- `build_helper`, which returns whether there is a map for the testcases. -/
def buildHelper (system : System) : Building Bool := do
  if !system.inputFile then throw .os
  let builder := (← get).builder
  if builder.shmemProvider && !system.newShmem then throw .os
  let map := builder.shmemProvider
  if builder.program = none then
    throw
      (.illegalArgument
        "ForkserverExecutorBuilder::build: target file not found")
  if !system.spawned then
    throw (.illegalState "Could not spawn the forkserver")
  let (rlen, status) ← readSt
  if rlen ≠ 4 then throw (.unknown "Failed to start a forkserver")
  takeMapSize status
  agree system status map
  pure map

end MeFuzz.ForkserverBuilder
