import MeFuzz.MessagePack
import MeFuzz.Procedures

namespace MeFuzz.StateRestorer

/-!
# The state restorer

A client saves its state before it is restarted: into a shared map if it fits, else
into a file of the temporary directory whose name goes into the map.  The same bytes
of the map tell the parent that the client wants to exit.
-/

/-- How states are serialized. -/
structure RmpSerde (State : Type) where
  toVec : State → Option Bytes
  fromSlice : Bytes → Option State
  fromSlice_toVec :
    ∀ {state serialized}, toVec state = some serialized →
      fromSlice serialized = some state
  length_toVec_pos :
    ∀ {state serialized}, toVec state = some serialized →
      0 < serialized.length

/-- Read a string, as its bytes. -/
def unpackStr (bytes : Bytes) : Option Bytes :=
  match MessagePack.unpack bytes with
  | some (.str name) => some name
  | _ => none

/-- How strings are serialized. -/
def RmpSerde.string : RmpSerde Bytes where
  toVec := fun name =>
    if name.length < 2 ^ 32 then some (MessagePack.pack (.str name)) else none
  fromSlice := unpackStr
  fromSlice_toVec := by
    intro name serialized packed
    split_ifs at packed with fits
    cases packed
    have encodable : MessagePack.Encodable (.str name) := by
      rwa [MessagePack.Encodable]
    unfold unpackStr
    rw [MessagePack.unpack_pack encodable]
  length_toVec_pos := by
    intro name serialized packed
    split_ifs at packed with fits
    cases packed
    exact MessagePack.length_pack_pos _

/-- The errors of the restorer, with the values in their texts. -/
inductive Error where
  /-- Stored buf_len is larger than the shared map! Shared data corrupted? -/
  | bufLenTooLarge (shmemSize total bufLen : Nat)
  /-- Trying to save state to a non-empty state map -/
  | nonEmptyStateMap
  /-- The state restorer map is too small to fit anything, even the filename! -/
  | mapTooSmall (len : Nat) (filename : Bytes)
  /-- Trying to restore a state after send_exiting was called. -/
  | restoreAfterExiting
  /-- Colud not restore state from file -/
  | emptyFile (filename : Bytes)
  | serialize
  | file
  deriving Repr, DecidableEq

/-- An error that is returned, or a failed assertion. -/
inductive Fault where
  | error (error : Error)
  | panicked
  deriving Repr, DecidableEq

/-- `StateShMemContent`: the header at the start of the map, and the bytes after it. -/
structure StateShMemContent where
  isDisk : Bool
  bufLen : Nat
  buf : Nat → UInt8

/-- `size_of::<StateShMemContent>()`. -/
def sizeOfStateShMemContent : Nat := 16

/-- The offset of `buf_len`; `is_disk` is at offset 0. -/
def offsetOfBufLen : Nat := 8

/-- A shared map, with the ranges that the last operation has written to. -/
structure ShMem where
  len : Nat
  content : StateShMemContent
  written : List (Nat × Nat)

/-- The files of the temporary directory. -/
abbrev TempDir := Bytes → Option Bytes

/-- A restorer's map and the directory that all restorers of the host share. -/
structure Machine where
  shmem : ShMem
  tempDir : TempDir

/-- What creating and writing a file comes to. -/
inductive FileWrite where
  | written
  | notCreated
  | interrupted (count : Nat)
  deriving Repr, DecidableEq

/-- `EXITING_MAGIC`: the text `LIBAFL_EXIT_NOW` and a zero byte. -/
def exitingMagic : Bytes :=
  [76, 73, 66, 65, 70, 76, 95, 69, 88, 73, 84, 95, 78, 79, 87, 0]

namespace StateShMemContent

/-- The first bytes of the buffer. -/
def slice (content : StateShMemContent) (len : Nat) : Bytes :=
  (List.range len).map content.buf

/-- `buf_len_checked`. -/
def bufLenChecked
    (content : StateShMemContent)
    (shmemSize : Nat) : Except Error Nat :=
  if shmemSize < sizeOfStateShMemContent + content.bufLen then
    .error
      (.bufLenTooLarge shmemSize
        (sizeOfStateShMemContent + content.bufLen) content.bufLen)
  else .ok content.bufLen

/-- `tmpfile`. -/
def tmpfile
    (content : StateShMemContent)
    (shmemSize : Nat) : Except Error (Option Bytes) :=
  if content.isDisk then
    match content.bufLenChecked shmemSize with
    | .error error => .error error
    | .ok len =>
        match RmpSerde.string.fromSlice (content.slice len) with
        | none => .error .serialize
        | some filename => .ok (some filename)
  else .ok none

/-- `has_content`. -/
def hasContent (content : StateShMemContent) : Bool :=
  decide (0 < content.bufLen)

end StateShMemContent

/-- The buffer with bytes copied to its start. -/
def copyTo (buf : Nat → UInt8) (bytes : Bytes) : Nat → UInt8 :=
  fun position => bytes[position]?.getD (buf position)

/-- A digit of `{:x}`. -/
def hexDigit (digit : Nat) : UInt8 :=
  UInt8.ofNat (if digit < 10 then 48 + digit else 87 + digit)

/-- `{:016x}`. -/
def hex16 (value : UInt64) : Bytes :=
  (List.range 16).map fun position =>
    hexDigit (value.toNat / 16 ^ (15 - position) % 16)

/-- The text `.libafl_state`. -/
def stateSuffix : Bytes :=
  [46, 108, 105, 98, 97, 102, 108, 95, 115, 116, 97, 116, 101]

/-- How many bytes at the end of a state its file name depends on. -/
def hashedBytes : Nat := 4096

/-- The name of the file for a state. -/
def filenameOf (hash : Bytes → UInt64) (serialized : Bytes) : Bytes :=
  hex16 (hash (serialized.drop (serialized.length - hashedBytes))) ++ stateSuffix

/-- The directory after `File::create` and `write_all`. -/
def TempDir.write
    (tempDir : TempDir)
    (filename serialized : Bytes) : FileWrite → TempDir
  | .written => Function.update tempDir filename (some serialized)
  | .notCreated => tempDir
  | .interrupted count =>
      Function.update tempDir filename (some (serialized.take count))

/-- The directory after `remove_file`. -/
def TempDir.remove (tempDir : TempDir) (filename : Bytes) : TempDir :=
  Function.update tempDir filename none

section

variable {State : Type}

/-- A part of an operation. -/
abbrev Part (Value : Type) := Procedure Fault Machine Value

/-- A write to the map. -/
def store
    (offset len : Nat)
    (change : StateShMemContent → StateShMemContent) : Part Unit :=
  modify fun machine =>
    { machine with
      shmem :=
        { machine.shmem with
          content := change machine.shmem.content
          written := machine.shmem.written ++ [(offset, len)] } }

/-- `copy_nonoverlapping` into the buffer. -/
def copyNonoverlapping (bytes : Bytes) : Part Unit :=
  store sizeOfStateShMemContent bytes.length fun content =>
    { content with buf := copyTo content.buf bytes }

/-- `buf_len` is set. -/
def setBufLen (len : Nat) : Part Unit :=
  store offsetOfBufLen 8 fun content => { content with bufLen := len }

/-- `is_disk` is set. -/
def setIsDisk (isDisk : Bool) : Part Unit :=
  store 0 1 fun content => { content with isDisk := isDisk }

/-- `File::create` and `write_all`. -/
def writeFile (filename serialized : Bytes) (result : FileWrite) : Part Unit := do
  modify fun machine =>
    { machine with tempDir := machine.tempDir.write filename serialized result }
  if result = .written then pure () else throw (.error .file)

variable (hash : Bytes → UInt64)
variable (rmp : RmpSerde State)

/-- `save`, where the file system does this if it is asked for a file. -/
def save (state : State) (fileWrite : FileWrite) : Part Unit := do
  if (← get).shmem.content.hasContent then throw (.error .nonEmptyStateMap)
  else
    match rmp.toVec state with
    | none => throw (.error .serialize)
    | some serialized => do
        let mapsize := (← get).shmem.len
        if mapsize < sizeOfStateShMemContent + serialized.length then
          let filename := filenameOf hash serialized
          writeFile filename serialized fileWrite
          match RmpSerde.string.toVec filename with
          | none => throw (.error .serialize)
          | some filenameBuf => do
              if mapsize < filenameBuf.length then
                throw (.error (.mapTooSmall filenameBuf.length filename))
              else
                copyNonoverlapping filenameBuf
                setBufLen filenameBuf.length
                setIsDisk true
        else
          copyNonoverlapping serialized
          setBufLen serialized.length
          setIsDisk false

/-- `reset`. -/
def reset : Part Unit := do
  let shmem := (← get).shmem
  match shmem.content.tmpfile shmem.len with
  | .ok (some filename) =>
      modify fun machine =>
        { machine with tempDir := machine.tempDir.remove filename }
  | _ => pure ()
  setIsDisk false
  setBufLen 0

/-- `send_exiting`. -/
def sendExiting : Part Unit := do
  reset
  if (← get).shmem.len < sizeOfStateShMemContent + exitingMagic.length then
    throw .panicked
  else
    copyNonoverlapping exitingMagic
    setBufLen exitingMagic.length

/-- `wants_to_exit`. -/
def wantsToExit (shmem : ShMem) : Except Fault Bool :=
  if shmem.len < sizeOfStateShMemContent + exitingMagic.length then
    .error .panicked
  else .ok (shmem.content.slice exitingMagic.length == exitingMagic)

/-- What a state is read from. -/
def storedState
    (content : StateShMemContent)
    (tempDir : TempDir)
    (bytes : Bytes) : Except Error Bytes :=
  if content.isDisk then
    match RmpSerde.string.fromSlice bytes with
    | none => .error .serialize
    | some filename =>
        match tempDir filename with
        | none => .error .file
        | some fileContent =>
            if fileContent = [] then .error (.emptyFile filename)
            else .ok fileContent
  else .ok bytes

/-- `restore`. -/
def restore (machine : Machine) : Except Error (Option State) :=
  let content := machine.shmem.content
  if content.hasContent then
    match content.bufLenChecked machine.shmem.len with
    | .error error => .error error
    | .ok len =>
        let bytes := content.slice len
        if bytes = exitingMagic then .error .restoreAfterExiting
        else
          match storedState content machine.tempDir bytes with
          | .error error => .error error
          | .ok stored =>
              match rmp.fromSlice stored with
              | none => .error .serialize
              | some state => .ok (some state)
  else .ok none

end

theorem length_hex16 (value : UInt64) :
    (hex16 value).length = 16 := by
  simp [hex16]

theorem length_filenameOf
    (hash : Bytes → UInt64)
    (serialized : Bytes) :
    (filenameOf hash serialized).length = 29 := by
  unfold filenameOf
  rw [List.length_append, length_hex16]
  rfl

/-- The bytes of the map that stand for the name of a file. -/
def filenameBufOf (hash : Bytes → UInt64) (serialized : Bytes) : Bytes :=
  0xbd :: filenameOf hash serialized

@[simp] theorem length_filenameBufOf
    (hash : Bytes → UInt64)
    (serialized : Bytes) :
    (filenameBufOf hash serialized).length = 30 :=
  congrArg (· + 1) (length_filenameOf hash serialized)

theorem toVec_filenameOf
    (hash : Bytes → UInt64)
    (serialized : Bytes) :
    RmpSerde.string.toVec (filenameOf hash serialized) =
      some (filenameBufOf hash serialized) := by
  have length := length_filenameOf hash serialized
  unfold RmpSerde.string
  dsimp only
  rw [if_pos (by omega), MessagePack.pack, length]
  rfl

theorem map_copyTo
    (buf : Nat → UInt8)
    (bytes : Bytes) :
    (List.range bytes.length).map (copyTo buf bytes) = bytes := by
  apply List.ext_getElem
  · simp
  · intro position inRange inBytes
    simp [copyTo, inBytes]

namespace Machine

/-- No range is written yet. -/
def cleared (machine : Machine) : Machine :=
  { machine with shmem := { machine.shmem with written := [] } }

/-- The machine with bytes in the map. -/
def holding
    (machine : Machine)
    (bytes : Bytes)
    (isDisk : Bool) : Machine where
  shmem :=
    { len := machine.shmem.len
      content :=
        { isDisk
          bufLen := bytes.length
          buf := copyTo machine.shmem.content.buf bytes }
      written :=
        machine.shmem.written ++ [(16, bytes.length)] ++ [(8, 8)] ++ [(0, 1)] }
  tempDir := machine.tempDir

/-- The machine with another file. -/
def filed
    (machine : Machine)
    (filename serialized : Bytes)
    (fileWrite : FileWrite) : Machine :=
  { machine with tempDir := machine.tempDir.write filename serialized fileWrite }

end Machine

section

variable {State : Type}
variable (hash : Bytes → UInt64)
variable (rmp : RmpSerde State)

/-- A state does not fit into a map. -/
def TooLarge (mapsize : Nat) (serialized : Bytes) : Prop :=
  mapsize < sizeOfStateShMemContent + serialized.length

/-- The ways in which `save` ends. -/
inductive SaveOutcome
    (state : State)
    (fileWrite : FileWrite)
    (machine : Machine) : Except Fault Unit → Machine → Prop where
  | nonEmpty
      (content : machine.shmem.content.hasContent = true) :
      SaveOutcome state fileWrite machine
        (.error (.error .nonEmptyStateMap)) machine
  | notSerialized
      (empty : machine.shmem.content.hasContent = false)
      (fails : rmp.toVec state = none) :
      SaveOutcome state fileWrite machine (.error (.error .serialize)) machine
  | notFiled
      {serialized : Bytes}
      (empty : machine.shmem.content.hasContent = false)
      (packed : rmp.toVec state = some serialized)
      (large : TooLarge machine.shmem.len serialized)
      (fails : fileWrite ≠ .written) :
      SaveOutcome state fileWrite machine (.error (.error .file))
        (machine.filed (filenameOf hash serialized) serialized fileWrite)
  | tooSmall
      {serialized : Bytes}
      (empty : machine.shmem.content.hasContent = false)
      (packed : rmp.toVec state = some serialized)
      (large : TooLarge machine.shmem.len serialized)
      (isWritten : fileWrite = .written)
      (small : machine.shmem.len < 30) :
      SaveOutcome state fileWrite machine
        (.error (.error (.mapTooSmall 30 (filenameOf hash serialized))))
        (machine.filed (filenameOf hash serialized) serialized .written)
  | spilled
      {serialized : Bytes}
      (empty : machine.shmem.content.hasContent = false)
      (packed : rmp.toVec state = some serialized)
      (large : TooLarge machine.shmem.len serialized)
      (isWritten : fileWrite = .written)
      (fits : 30 ≤ machine.shmem.len) :
      SaveOutcome state fileWrite machine (.ok ())
        ((machine.filed (filenameOf hash serialized) serialized
          .written).holding (filenameBufOf hash serialized) true)
  | kept
      {serialized : Bytes}
      (empty : machine.shmem.content.hasContent = false)
      (packed : rmp.toVec state = some serialized)
      (fits : ¬TooLarge machine.shmem.len serialized) :
      SaveOutcome state fileWrite machine (.ok ())
        (machine.holding serialized false)

namespace SaveOutcome

variable {hash rmp}
variable {state : State}
variable {fileWrite : FileWrite}
variable {machine next : Machine}
variable {result : Except Fault Unit}
variable {serialized : Bytes}

theorem of_content
    (outcome : SaveOutcome hash rmp state fileWrite machine result next)
    (content : machine.shmem.content.hasContent = true) :
    next = machine := by
  cases outcome with
  | nonEmpty _ => rfl
  | notSerialized _ _ => rfl
  | notFiled empty _ _ _ => exact absurd (empty.symm.trans content) nofun
  | tooSmall empty _ _ _ _ => exact absurd (empty.symm.trans content) nofun
  | spilled empty _ _ _ _ => exact absurd (empty.symm.trans content) nofun
  | kept empty _ _ => exact absurd (empty.symm.trans content) nofun

theorem of_fits
    (outcome : SaveOutcome hash rmp state fileWrite machine result next)
    (isEmpty : machine.shmem.content.hasContent = false)
    (isPacked : rmp.toVec state = some serialized)
    (fits : ¬TooLarge machine.shmem.len serialized) :
    next = machine.holding serialized false := by
  cases outcome with
  | nonEmpty content => exact absurd (isEmpty.symm.trans content) nofun
  | notSerialized _ fails => exact absurd (isPacked.symm.trans fails) nofun
  | notFiled _ packed large _ =>
      obtain rfl := Option.some.inj (isPacked.symm.trans packed)
      exact absurd large fits
  | tooSmall _ packed large _ _ =>
      obtain rfl := Option.some.inj (isPacked.symm.trans packed)
      exact absurd large fits
  | spilled _ packed large _ _ =>
      obtain rfl := Option.some.inj (isPacked.symm.trans packed)
      exact absurd large fits
  | kept _ packed _ =>
      obtain rfl := Option.some.inj (isPacked.symm.trans packed)
      rfl

theorem of_tooLarge
    (outcome : SaveOutcome hash rmp state fileWrite machine result next)
    (isEmpty : machine.shmem.content.hasContent = false)
    (isPacked : rmp.toVec state = some serialized)
    (large : TooLarge machine.shmem.len serialized) :
    let filed :=
      machine.filed (filenameOf hash serialized) serialized fileWrite
    next = filed ∨
      next = filed.holding (filenameBufOf hash serialized) true := by
  cases outcome with
  | nonEmpty content => exact absurd (isEmpty.symm.trans content) nofun
  | notSerialized _ fails => exact absurd (isPacked.symm.trans fails) nofun
  | notFiled _ packed _ _ =>
      obtain rfl := Option.some.inj (isPacked.symm.trans packed)
      exact .inl rfl
  | tooSmall _ packed _ isWritten _ =>
      obtain rfl := Option.some.inj (isPacked.symm.trans packed)
      exact .inl (by rw [isWritten])
  | spilled _ packed _ isWritten _ =>
      obtain rfl := Option.some.inj (isPacked.symm.trans packed)
      exact .inr (by rw [isWritten])
  | kept _ packed fits =>
      obtain rfl := Option.some.inj (isPacked.symm.trans packed)
      exact absurd large fits

theorem of_spilled
    (outcome : SaveOutcome hash rmp state fileWrite machine result next)
    (isEmpty : machine.shmem.content.hasContent = false)
    (isPacked : rmp.toVec state = some serialized)
    (large : TooLarge machine.shmem.len serialized)
    (isFiled : fileWrite = .written)
    (roomy : 30 ≤ machine.shmem.len) :
    next =
      (machine.filed (filenameOf hash serialized) serialized
        .written).holding (filenameBufOf hash serialized) true := by
  cases outcome with
  | nonEmpty content => exact absurd (isEmpty.symm.trans content) nofun
  | notSerialized _ fails => exact absurd (isPacked.symm.trans fails) nofun
  | notFiled _ _ _ fails => exact absurd isFiled fails
  | tooSmall _ _ _ _ small => exact absurd roomy (Nat.not_le.mpr small)
  | spilled _ packed _ _ _ =>
      obtain rfl := Option.some.inj (isPacked.symm.trans packed)
      rfl
  | kept _ packed fits =>
      obtain rfl := Option.some.inj (isPacked.symm.trans packed)
      exact absurd large fits

end SaveOutcome

theorem outcome_writeFile
    (filename serialized : Bytes)
    (fileWrite : FileWrite)
    (machine : Machine) :
    (writeFile filename serialized fileWrite).outcome machine =
      (if fileWrite = .written then .ok () else .error (.error .file),
        machine.filed filename serialized fileWrite) := by
  unfold writeFile
  rw [Procedure.outcome_bind_ok (Procedure.outcome_modify _)]
  split_ifs <;> rfl

theorem save_outcome
    {state : State}
    {fileWrite : FileWrite}
    {machine next : Machine}
    {result : Except Fault Unit}
    (ends :
      (save hash rmp state fileWrite).outcome machine = (result, next)) :
    SaveOutcome hash rmp state fileWrite machine result next := by
  unfold save at ends
  rw [Procedure.outcome_bind_ok Procedure.outcome_get] at ends
  cases has : machine.shmem.content.hasContent with
  | true =>
      rw [if_pos has] at ends
      cases ends
      exact .nonEmpty has
  | false =>
      rw [if_neg (Bool.eq_false_iff.mp has)] at ends
      cases packed : rmp.toVec state with
      | none =>
          rw [packed] at ends
          cases ends
          exact .notSerialized has packed
      | some serialized =>
          rw [packed] at ends
          dsimp only at ends
          rw [Procedure.outcome_bind_ok Procedure.outcome_get] at ends
          by_cases large :
            machine.shmem.len < sizeOfStateShMemContent + serialized.length
          · rw [if_pos large, Procedure.outcome_bind, outcome_writeFile] at ends
            by_cases isWritten : fileWrite = .written
            · rw [if_pos isWritten] at ends
              dsimp only at ends
              rw [toVec_filenameOf] at ends
              dsimp only at ends
              rw [length_filenameBufOf] at ends
              by_cases small : machine.shmem.len < 30
              · rw [if_pos small] at ends
                cases ends
                subst isWritten
                exact .tooSmall has packed large rfl small
              · rw [if_neg small] at ends
                cases ends
                subst isWritten
                exact .spilled has packed large rfl (Nat.le_of_not_lt small)
            · rw [if_neg isWritten] at ends
              cases ends
              exact .notFiled has packed large isWritten
          · rw [if_neg large] at ends
            cases ends
            exact .kept has packed large

/-- The directory after `reset`. -/
def TempDir.afterReset (tempDir : TempDir) (shmem : ShMem) : TempDir :=
  match shmem.content.tmpfile shmem.len with
  | .ok (some filename) => tempDir.remove filename
  | _ => tempDir

/-- The machine after `reset`. -/
def Machine.afterReset (machine : Machine) : Machine where
  shmem :=
    { len := machine.shmem.len
      content :=
        { isDisk := false
          bufLen := 0
          buf := machine.shmem.content.buf }
      written := machine.shmem.written ++ [(0, 1)] ++ [(8, 8)] }
  tempDir := machine.tempDir.afterReset machine.shmem

theorem outcome_reset (machine : Machine) :
    reset.outcome machine = (.ok (), machine.afterReset) := by
  unfold reset Machine.afterReset TempDir.afterReset
  rw [Procedure.outcome_bind_ok Procedure.outcome_get]
  dsimp only
  cases machine.shmem.content.tmpfile machine.shmem.len with
  | error error => rfl
  | ok file =>
      cases file with
      | none => rfl
      | some filename => rfl

/-- The machine after `send_exiting`. -/
def Machine.afterExiting (machine : Machine) : Machine where
  shmem :=
    { len := machine.shmem.len
      content :=
        { isDisk := false
          bufLen := exitingMagic.length
          buf := copyTo machine.shmem.content.buf exitingMagic }
      written :=
        machine.afterReset.shmem.written ++ [(16, exitingMagic.length)] ++
          [(8, 8)] }
  tempDir := machine.tempDir.afterReset machine.shmem

theorem outcome_sendExiting (machine : Machine) :
    sendExiting.outcome machine =
      if machine.shmem.len < 32 then
        (.error .panicked, machine.afterReset)
      else (.ok (), machine.afterExiting) := by
  unfold sendExiting
  rw [Procedure.outcome_bind_ok (outcome_reset machine),
    Procedure.outcome_bind_ok Procedure.outcome_get]
  by_cases small : machine.shmem.len < 32
  · rw [if_pos small]
    exact congrArg (fun part => Procedure.outcome part machine.afterReset)
      (if_pos small)
  · rw [if_neg small]
    exact congrArg (fun part => Procedure.outcome part machine.afterReset)
      (if_neg small)

end

end MeFuzz.StateRestorer
