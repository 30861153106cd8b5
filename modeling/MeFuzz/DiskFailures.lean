import MeFuzz.InMemoryCorpus
import MeFuzz.Procedures

namespace MeFuzz.Corpus.FailingDisk

open Procedure

/-!
# Corpora on a disk that fails

Every call to the file system may be refused.  What a corpus has changed in memory
before the refused call stays changed: the calls come after the change of the entries,
and the name of a new file is found by trying to create lockfiles until one can be.
-/

/-- A path, by its directory and its last component. -/
structure Path where
  dir : String
  file : String
  deriving Repr, DecidableEq

/-- `set_file_name`. -/
def Path.setFileName (path : Path) (file : String) : Path :=
  { path with file := file }

/-- `Testcase`; the data are what goes into the metadata file. -/
structure Testcase (Input Data : Type) where
  input : Option Input
  filename : Option Path
  data : Data
  deriving DecidableEq

/-- What a corpus keeps in memory. -/
structure Memory (Input Data : Type) where
  inner : InMemoryCorpus (Testcase Input Data)
  cachedIndexes : List CorpusId

/-- The memory, the files there are, and how many system calls were made. -/
structure State (Input Data : Type) where
  memory : Memory Input Data
  files : Finset Path
  calls : Nat

/-- The corpus's settings, and which system calls are refused. -/
structure Config (Input Data : Type) where
  dirPath : String
  metaFormat : Bool
  generateName : Input → Nat → String
  serializes : Data → Bool
  refuses : Nat → Bool

/-- Why a call does not return its value. -/
inductive Failure where
  | file
  | serialize
  | corpus (error : Error)
  | panicked
  | outOfFuel
  deriving DecidableEq

abbrev OnDisk (Input Data Value : Type) :=
  Procedure Failure (State Input Data) Value

variable {Input Data : Type}
variable (config : Config Input Data)

/-- A system call; the answer tells whether it succeeded. -/
def tryCall
    (possible : Finset Path → Bool)
    (effect : Finset Path → Finset Path) : OnDisk Input Data Bool := do
  let state ← get
  if !config.refuses state.calls && possible state.files then
    set { state with files := effect state.files, calls := state.calls + 1 }
    pure true
  else
    set { state with calls := state.calls + 1 }
    pure false

/-- A system call whose failure ends what is going on. -/
def call
    (failure : Failure)
    (possible : Finset Path → Bool)
    (effect : Finset Path → Finset Path) : OnDisk Input Data Unit := do
  let succeeded ← tryCall config possible effect
  if !succeeded then throw failure

/-- Open a file that must not be there yet. -/
def createNew (path : Path) : OnDisk Input Data Bool :=
  tryCall config (fun files => path ∉ files) (insert path)

/-- `File::create`. -/
def create (path : Path) : OnDisk Input Data Unit :=
  call config .file (fun _ => true) (insert path)

/-- `write_all`. -/
def writeAll (failure : Failure) : OnDisk Input Data Unit :=
  call config failure (fun _ => true) id

/-- `fs::rename`. -/
def rename (failure : Failure) (source target : Path) : OnDisk Input Data Unit :=
  call config failure (fun files => source ∈ files) fun files =>
    insert target (files.erase source)

/-- `fs::remove_file`. -/
def removeFile (path : Path) : OnDisk Input Data Unit :=
  call config .file (fun files => path ∈ files) fun files => files.erase path

/-- Where a file of the directory is. -/
def Config.path (file : String) : Path where
  dir := config.dirPath
  file := file

/-- The lockfile of a file. -/
def Config.lockfile (file : String) : Path :=
  config.path s!".{file}.lafl_lock"

/-- The metadata file of a file. -/
def metadataPath (filename : Path) : Path :=
  filename.setFileName s!".{filename.file}.metadata"

/-- The file that is written before it gets its name. -/
def tmpPath (filename : Path) : Path :=
  filename.setFileName s!".{filename.file}.tmp"

/-- The largest `i32`, the type of the number that a file name gets. -/
def maxCtr : Nat :=
  2 ^ 31 - 1

/-- The loop that looks for a file name; counting beyond the largest `i32` panics. -/
def searchName (fileOrig : String) : Nat → String → Nat → OnDisk Input Data String
  | 0, _, _ => throw .outOfFuel
  | fuel + 1, file, ctr => do
      let isFree ← createNew config (config.lockfile file)
      if isFree then pure file
      else if ctr < maxCtr then
        searchName fileOrig fuel s!"{fileOrig}-{ctr}" (ctr + 1)
      else throw .panicked

/-- The testcase that a borrow of an id gives. -/
def borrow (idx : CorpusId) : OnDisk Input Data (Testcase Input Data) := do
  match (← get).memory.inner.find idx with
  | some testcase => pure testcase
  | none => throw .panicked

/-- Write to the testcase of an id. -/
def writeTestcase
    (idx : CorpusId)
    (change : Testcase Input Data → Testcase Input Data) : OnDisk Input Data Unit :=
  modify fun state =>
    { state with
      memory :=
        { state.memory with inner := state.memory.inner.modify idx change } }

/-- Give the testcase a file name, if it has none. -/
def nameTestcase (fuel : Nat) (idx : CorpusId) : OnDisk Input Data Unit := do
  let testcase ← borrow idx
  if testcase.filename.isNone then
    match testcase.input with
    | none => throw .panicked
    | some input =>
        let fileOrig := config.generateName input idx
        let file ← searchName config fileOrig fuel fileOrig 2
        writeTestcase idx fun testcase =>
          { testcase with filename := some (config.path file) }

/-- Write the metadata file. -/
def saveMetadata (idx : CorpusId) : OnDisk Input Data Unit := do
  if config.metaFormat then
    let testcase ← borrow idx
    match testcase.filename with
    | none => throw .panicked
    | some filename =>
        let filename := metadataPath filename
        create config (tmpPath filename)
        if !config.serializes testcase.data then throw .serialize
        writeAll config .file
        rename config .file (tmpPath filename) filename

/-- `store_input`, whose failure is a panic here. -/
def storeInput (idx : CorpusId) : OnDisk Input Data Unit := do
  let testcase ← borrow idx
  match testcase.filename, testcase.input with
  | some fname, some _ =>
      call config .panicked (fun files => tmpPath fname ∉ files)
        (insert (tmpPath fname))
      writeAll config .panicked
      rename config .panicked (tmpPath fname) fname
      writeTestcase idx fun testcase => { testcase with input := none }
  | _, _ => pure ()

/-- `save_testcase`. -/
def saveTestcase (fuel : Nat) (idx : CorpusId) : OnDisk Input Data Unit := do
  nameTestcase config fuel idx
  saveMetadata config idx
  storeInput config idx

/-- `remove_testcase`. -/
def removeTestcase (testcase : Testcase Input Data) : OnDisk Input Data Unit := do
  match testcase.filename with
  | some filename =>
      removeFile config filename
      if config.metaFormat then removeFile config (metadataPath filename)
  | none => if config.metaFormat then throw .panicked

/-- Change the entries in memory. -/
def setInner
    (inner : InMemoryCorpus (Testcase Input Data)) : OnDisk Input Data Unit :=
  modify fun state => { state with memory := { state.memory with inner := inner } }

/-- A call of the corpus in memory. -/
def onInner
    {Value : Type}
    (answer : Except Error Value) : OnDisk Input Data Value :=
  match answer with
  | .ok value => pure value
  | .error error => throw (.corpus error)

/-- `add`. -/
def add
    (fuel : Nat)
    (testcase : Testcase Input Data) : OnDisk Input Data CorpusId := do
  let (idx, inner) := (← get).memory.inner.add testcase
  setInner inner
  saveTestcase config fuel idx
  pure idx

/-- `replace`. -/
def replace
    (fuel : Nat)
    (idx : CorpusId)
    (testcase : Testcase Input Data) : OnDisk Input Data (Testcase Input Data) := do
  let (entry, inner) ← onInner ((← get).memory.inner.replace idx testcase)
  setInner inner
  removeTestcase config entry
  saveTestcase config fuel idx
  pure entry

/-- `remove`. -/
def remove (idx : CorpusId) : OnDisk Input Data (Testcase Input Data) := do
  let (entry, inner) ← onInner ((← get).memory.inner.remove idx)
  setInner inner
  removeTestcase config entry
  pure entry

namespace Cached

/-- `remove`. -/
def remove (idx : CorpusId) : OnDisk Input Data (Testcase Input Data) := do
  let testcase ← FailingDisk.remove config idx
  modify fun state =>
    { state with
      memory :=
        { state.memory with
          cachedIndexes := state.memory.cachedIndexes.filter fun e => e ≠ idx } }
  pure testcase

end Cached

/-- The operations of the corpora on disk. -/
inductive Operation (Input Data : Type) where
  | add (testcase : Testcase Input Data)
  | replace (idx : CorpusId) (testcase : Testcase Input Data)
  | remove (idx : CorpusId)
  | removeCached (idx : CorpusId)

/-- Perform an operation, whatever it returns. -/
def perform (fuel : Nat) : Operation Input Data → OnDisk Input Data Unit
  | .add testcase => do
      let _ ← add config fuel testcase
  | .replace idx testcase => do
      let _ ← replace config fuel idx testcase
  | .remove idx => do
      let _ ← remove config idx
  | .removeCached idx => do
      let _ ← Cached.remove config idx

end MeFuzz.Corpus.FailingDisk
