import MeFuzz.ByteStream
import MeFuzz.TransitionRun
import MeFuzz.InMemoryCorpus

namespace MeFuzz.Corpus.OnDisk

/-!
# Corpora on disk

A corpus on disk saves every testcase to a file of its own and forgets the
input.  The cached corpus loads an input when the testcase is asked for, and
keeps the inputs of the testcases that were loaded last.
-/

/-- `Testcase`, as far as its input and its file go. -/
structure Testcase (Input : Type) where
  input : Option Input
  filename : Option String
  deriving DecidableEq

/--
The directory of a corpus: what its files hold, and for which names there is a
lockfile.
-/
structure Disk where
  files : String → Option Bytes
  locks : List String

/-- `InMemoryOnDiskCorpus`. -/
structure InMemoryOnDiskCorpus (Input : Type) where
  inner : InMemoryCorpus (Testcase Input)
  dirPath : String
  metaFormat : Bool
  disk : Disk

/-- `CachedOnDiskCorpus`. -/
structure CachedOnDiskCorpus (Input : Type) where
  inner : InMemoryOnDiskCorpus Input
  cachedIndexes : List CorpusId
  cacheMaxLen : Nat

variable {Input : Type}

/--
How inputs are written to files and read from them, and how they are named.
Reading a file gives what was written to it.
-/
structure Codec (Input : Type) where
  toFile : Input → Bytes
  fromFile : Bytes → Option Input
  generateName : Input → Nat → String
  reads : ∀ input, fromFile (toFile input) = some input

variable (codec : Codec Input)

namespace Testcase

/-- `load_input`. -/
def loadInput
    (testcase : Testcase Input)
    (disk : Disk) : Except Error (Testcase Input) :=
  match testcase.input, testcase.filename with
  | some _, _ => .ok testcase
  | none, none => .error .panicked
  | none, some filename =>
      match (disk.files filename).bind codec.fromFile with
      | some input => .ok { testcase with input := some input }
      | none => .error .file

/-- `store_input`, which takes the input out of memory. -/
def storeInput
    (testcase : Testcase Input)
    (disk : Disk) : Testcase Input × Disk :=
  match testcase.filename, testcase.input with
  | some fname, some input =>
      ({ testcase with input := none },
        { disk with
          files :=
            Function.update disk.files fname (some (codec.toFile input)) })
  | _, _ => (testcase, disk)

end Testcase

/-- The first name of the sequence that has no lockfile. -/
def searchName
    (locks : List String)
    (fileOrig : String) : Nat → String → Nat → Option String
  | 0, _, _ => none
  | fuel + 1, file, ctr =>
      if file ∈ locks then
        searchName locks fileOrig fuel s!"{fileOrig}-{ctr}" (ctr + 1)
      else some file

namespace InMemoryOnDiskCorpus

variable (corpus : InMemoryOnDiskCorpus Input)

/-- The name of a new file for an input, which is searched until one is free. -/
def newName (input : Input) (idx : CorpusId) : Option String :=
  let fileOrig := codec.generateName input idx
  searchName corpus.disk.locks fileOrig (corpus.disk.locks.length + 1)
    fileOrig 2

/-- Where a file of the directory is. -/
def path (file : String) : String :=
  corpus.dirPath ++ "/" ++ file

/-- `save_testcase`, without the file of the metadata. -/
def saveTestcase
    (testcase : Testcase Input)
    (idx : CorpusId) : Except Error (Testcase Input × Disk) :=
  match testcase.filename with
  | some _ => .ok (testcase.storeInput codec corpus.disk)
  | none =>
      match testcase.input with
      | none => .error .panicked
      | some input =>
          match corpus.newName codec input idx with
          | none => .error .panicked
          | some file =>
              .ok
                ({ testcase with
                    filename := some (corpus.path file) }.storeInput codec
                  { corpus.disk with locks := file :: corpus.disk.locks })

/-- `remove_testcase`, without the file of the metadata. -/
def removeTestcase (testcase : Testcase Input) : Except Error Disk :=
  match testcase.filename with
  | some filename =>
      match corpus.disk.files filename with
      | some _ =>
          .ok
            { corpus.disk with
              files := Function.update corpus.disk.files filename none }
      | none => .error .file
  | none => if corpus.metaFormat then .error .panicked else .ok corpus.disk

/-- Save the testcase of an id. -/
def saved
    (idx : CorpusId) : Except Error (InMemoryOnDiskCorpus Input) := do
  let testcase ← corpus.inner.get idx
  let (testcase, disk) ← corpus.saveTestcase codec testcase idx
  .ok
    { corpus with
      inner := corpus.inner.modify idx fun _ => testcase
      disk := disk }

/-- `add`. -/
def add
    (testcase : Testcase Input) :
    Except Error (CorpusId × InMemoryOnDiskCorpus Input) := do
  let (idx, inner) := corpus.inner.add testcase
  let corpus ← { corpus with inner := inner }.saved codec idx
  .ok (idx, corpus)

/-- `replace`. -/
def replace
    (idx : CorpusId)
    (testcase : Testcase Input) :
    Except Error (Testcase Input × InMemoryOnDiskCorpus Input) := do
  let (entry, inner) ← corpus.inner.replace idx testcase
  let disk ← corpus.removeTestcase entry
  let corpus ← { corpus with inner := inner, disk := disk }.saved codec idx
  .ok (entry, corpus)

/-- `remove`. -/
def remove
    (idx : CorpusId) :
    Except Error (Testcase Input × InMemoryOnDiskCorpus Input) := do
  let (entry, inner) ← corpus.inner.remove idx
  let disk ← corpus.removeTestcase entry
  .ok (entry, { corpus with inner := inner, disk := disk })

end InMemoryOnDiskCorpus

namespace CachedOnDiskCorpus

variable (corpus : CachedOnDiskCorpus Input)

/-- `_new`. -/
def new
    (dirPath : String)
    (metaFormat : Bool)
    (disk : Disk)
    (cacheMaxLen : Nat) : Except Error (CachedOnDiskCorpus Input) :=
  if cacheMaxLen = 0 then
    .error
      (.illegalArgument "The max cache len in CachedOnDiskCorpus cannot be 0")
  else
    .ok
      { inner := ⟨.new, dirPath, metaFormat, disk⟩
        cachedIndexes := []
        cacheMaxLen := cacheMaxLen }

/-- `add`. -/
def add
    (testcase : Testcase Input) :
    Except Error (CorpusId × CachedOnDiskCorpus Input) := do
  let (idx, inner) ← corpus.inner.add codec testcase
  .ok (idx, { corpus with inner := inner })

/-- `replace`. -/
def replace
    (idx : CorpusId)
    (testcase : Testcase Input) :
    Except Error (Testcase Input × CachedOnDiskCorpus Input) := do
  let (entry, inner) ← corpus.inner.replace codec idx testcase
  .ok (entry, { corpus with inner := inner })

/-- `remove`. -/
def remove
    (idx : CorpusId) :
    Except Error (Testcase Input × CachedOnDiskCorpus Input) := do
  let (testcase, inner) ← corpus.inner.remove idx
  .ok
    (testcase,
      { corpus with
        inner := inner
        cachedIndexes := corpus.cachedIndexes.filter fun e => e ≠ idx })

/-- Change a testcase in memory. -/
def modify
    (idx : CorpusId)
    (change : Testcase Input → Testcase Input) : CachedOnDiskCorpus Input :=
  { corpus with
    inner :=
      { corpus.inner with inner := corpus.inner.inner.modify idx change } }

/--
The loop of `get` that makes room in the cache.  Testcases that a caller has
borrowed are put back at the end.
-/
def evict
    (borrowed : CorpusId → Bool) :
    Nat → Nat → CachedOnDiskCorpus Input →
    Except Error (CachedOnDiskCorpus Input)
  | 0, _, _ => .error .panicked
  | fuel + 1, borrowedNum, corpus =>
      if corpus.cachedIndexes.length < corpus.cacheMaxLen then .ok corpus
      else
        match corpus.cachedIndexes with
        | [] => .error .panicked
        | removed :: rest =>
            match corpus.inner.inner.get removed with
            | .error error => .error error
            | .ok _ =>
                if borrowed removed then
                  let corpus :=
                    { corpus with cachedIndexes := rest ++ [removed] }
                  if corpus.cacheMaxLen = borrowedNum + 1 then .ok corpus
                  else evict borrowed fuel (borrowedNum + 1) corpus
                else
                  evict borrowed fuel borrowedNum
                    ({ corpus with cachedIndexes := rest }.modify removed
                      ({ · with input := none }))

/-- `get`, while a caller has borrowed some testcases. -/
def get
    (borrowed : CorpusId → Bool)
    (idx : CorpusId) :
    Except Error (Testcase Input × CachedOnDiskCorpus Input) := do
  let testcase ← corpus.inner.inner.get idx
  if testcase.input.isNone then
    if borrowed idx then .error .panicked
    else
      let loaded ← testcase.loadInput codec corpus.inner.disk
      let corpus ←
        evict borrowed (corpus.cachedIndexes.length + corpus.cacheMaxLen + 1)
          0 (corpus.modify idx fun _ => loaded)
      let corpus :=
        { corpus with cachedIndexes := corpus.cachedIndexes ++ [idx] }
      .ok (← corpus.inner.inner.get idx, corpus)
  else .ok (testcase, corpus)

end CachedOnDiskCorpus

/-- The names that are tried, in their order. -/
def nameAt (fileOrig : String) : Nat → String
  | 0 => fileOrig
  | number + 1 => s!"{fileOrig}-{number + 2}"

theorem nameAt_injective (fileOrig : String) :
    Function.Injective (nameAt fileOrig) := by
  have longer : ∀ number, fileOrig ≠ s!"{fileOrig}-{number + 2}" := by
    intro number same
    have sameLength := congrArg String.length same
    have whole : (toString fileOrig).length = fileOrig.length := rfl
    have dash : (toString "-").length = 1 := rfl
    simp only [String.length_append] at sameLength
    omega
  intro first second same
  cases first with
  | zero =>
      cases second with
      | zero =>
          rfl
      | succ second =>
          exact absurd same (longer second)
  | succ first =>
      cases second with
      | zero =>
          exact absurd same.symm (longer first)
      | succ second =>
          have sameText : (first + 2).repr = (second + 2).repr := by
            simpa [nameAt, String.append_assoc] using same
          have sameDigits := congrArg String.toList sameText
          rw [Nat.toList_repr, Nat.toList_repr] at sameDigits
          have sameNumber :=
            congrArg (fun digits => Nat.ofDigitChars 10 digits 0) sameDigits
          simp only [Nat.ofDigitChars_ten_toDigits] at sameNumber
          omega

theorem locked_of_searchName_none
    {locks : List String}
    {fileOrig : String}
    {fuel start : Nat}
    (failed :
      searchName locks fileOrig fuel (nameAt fileOrig start) (start + 2) =
        none) :
    ∀ number < fuel, nameAt fileOrig (start + number) ∈ locks := by
  induction fuel generalizing start with
  | zero =>
      simp
  | succ fuel ih =>
      unfold searchName at failed
      split at failed
      · rename_i locked
        intro number below
        cases number with
        | zero =>
            exact locked
        | succ number =>
            have later :=
              @ih (start + 1) failed number (by omega)
            rwa [Nat.add_right_comm] at later
      · cases failed

/-- With one name more than lockfiles a search succeeds. -/
theorem searchName_isSome
    (locks : List String)
    (fileOrig : String) :
    (searchName locks fileOrig (locks.length + 1) fileOrig 2).isSome := by
  rw [Option.isSome_iff_ne_none]
  intro failed
  have locked := @locked_of_searchName_none locks fileOrig _ 0 failed
  have nodup :
      ((List.range (locks.length + 1)).map (nameAt fileOrig)).Nodup :=
    List.nodup_range.map (nameAt_injective fileOrig)
  have contained :
      (List.range (locks.length + 1)).map (nameAt fileOrig) ⊆ locks := by
    intro name isTried
    obtain ⟨number, inRange, rfl⟩ := List.mem_map.mp isTried
    simpa using locked number (List.mem_range.mp inRange)
  have short := (nodup.subperm contained).length_le
  simp at short

namespace InMemoryOnDiskCorpus

variable {codec}
variable {corpus : InMemoryOnDiskCorpus Input}
variable {testcase : Testcase Input}
variable {idx : CorpusId}

/-- The file that a testcase is saved to. -/
def savedName
    (codec : Codec Input)
    (corpus : InMemoryOnDiskCorpus Input)
    (testcase : Testcase Input)
    (idx : CorpusId) : Option String :=
  match testcase.filename with
  | some filename => some filename
  | none =>
      testcase.input.bind fun input =>
        (corpus.newName codec input idx).map corpus.path

/-- The corpus once an input was written to a file. -/
def written
    (codec : Codec Input)
    (corpus : InMemoryOnDiskCorpus Input)
    (idx : CorpusId)
    (input : Input)
    (name : String)
    (locks : List String) : InMemoryOnDiskCorpus Input :=
  { corpus with
    inner := corpus.inner.modify idx fun _ => ⟨none, some name⟩
    disk :=
      { files :=
          Function.update corpus.disk.files name (some (codec.toFile input))
        locks := locks } }

theorem saved_eq
    {input : Input}
    (found : corpus.inner.find idx = some testcase)
    (loaded : testcase.input = some input) :
    ∃ name locks,
      corpus.savedName codec testcase idx = some name ∧
        corpus.saved codec idx =
          .ok (corpus.written codec idx input name locks) := by
  obtain ⟨content, filename⟩ := testcase
  cases loaded
  have gets := InMemoryCorpus.get_eq_ok.mpr found
  cases filename with
  | some filename =>
      have saves :
          corpus.saveTestcase codec ⟨some input, some filename⟩ idx =
            .ok
              (⟨none, some filename⟩,
                { corpus.disk with
                  files :=
                    Function.update corpus.disk.files filename
                      (some (codec.toFile input)) }) :=
        rfl
      refine ⟨filename, corpus.disk.locks, rfl, ?_⟩
      rw [saved, gets, ok_bind, saves, ok_bind]
      rfl
  | none =>
      obtain ⟨file, searched⟩ :=
        Option.isSome_iff_exists.mp
          (searchName_isSome corpus.disk.locks (codec.generateName input idx))
      have named : corpus.newName codec input idx = some file := searched
      have saves :
          corpus.saveTestcase codec ⟨some input, none⟩ idx =
            .ok
              (⟨none, some (corpus.path file)⟩,
                { files :=
                    Function.update corpus.disk.files (corpus.path file)
                      (some (codec.toFile input))
                  locks := file :: corpus.disk.locks }) := by
        simp only [saveTestcase, named]
        rfl
      refine ⟨corpus.path file, file :: corpus.disk.locks, ?_, ?_⟩
      · simp [savedName, named]
      · rw [saved, gets, ok_bind, saves, ok_bind]
        rfl

end InMemoryOnDiskCorpus

end MeFuzz.Corpus.OnDisk
