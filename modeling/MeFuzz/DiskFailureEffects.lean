import MeFuzz.CachedOnDiskCorpus
import MeFuzz.DiskFailures

namespace MeFuzz.Corpus.FailingDisk

open Procedure
open OnDisk (nameAt)

/-!
# What a failed call leaves in memory

The entries are changed before the file system is asked for anything, and no error path
takes the change back.  After an error of the file system the memory is the old one only
where the change put in what had been there.
-/

variable {Input Data : Type}
variable {config : Config Input Data}
variable {fuel : Nat}
variable {memory : Memory Input Data}
variable {idx : CorpusId}
variable {testcase : Testcase Input Data}

/-- A system call keeps a predicate, whether it is refused or has its effect. -/
structure Stable
    (kept : State Input Data → Prop)
    (effect : Finset Path → Finset Path) : Prop where
  refused : ∀ state, kept state → kept { state with calls := state.calls + 1 }
  performed :
    ∀ state, kept state →
      kept { state with files := effect state.files, calls := state.calls + 1 }

/-- The state has this memory. -/
def Has (memory : Memory Input Data) (state : State Input Data) : Prop :=
  state.memory = memory

theorem stable_has (effect : Finset Path → Finset Path) :
    Stable (Has memory) effect :=
  ⟨fun _ has => has, fun _ has => has⟩

section

variable {kept : State Input Data → Prop}

theorem tryCall_keeps
    {possible : Finset Path → Bool}
    {effect : Finset Path → Finset Path}
    (stable : Stable kept effect) :
    Satisfies kept (tryCall config possible effect) (fun _ => kept)
      fun _ _ => False := by
  intro state holds
  unfold tryCall
  rw [outcome_bind, outcome_get]
  dsimp only
  by_cases succeeds : (!config.refuses state.calls && possible state.files) = true
  · rw [if_pos succeeds]
    exact stable.performed state holds
  · rw [if_neg succeeds]
    exact stable.refused state holds

theorem call_keeps
    {possible : Finset Path → Bool}
    {effect : Finset Path → Finset Path}
    (failure : Failure)
    (stable : Stable kept effect) :
    Satisfies kept (call config failure possible effect) (fun _ => kept)
      fun failed state => failed = failure ∧ kept state := by
  refine
    ((tryCall_keeps stable).weaken (fun _ holds => holds) (fun _ _ holds => holds)
      fun _ _ => False.elim).bind ?_
  intro succeeded
  cases succeeded with
  | true =>
      exact fun _ holds => holds
  | false =>
      exact fun _ holds => ⟨rfl, holds⟩

theorem searchName_keeps
    (stable : ∀ path, Stable kept (insert path))
    (fileOrig : String)
    (fuel : Nat)
    (file : String)
    (ctr : Nat) :
    Satisfies kept (searchName config fileOrig fuel file ctr) (fun _ => kept)
      fun failed state => failed ≠ .file ∧ kept state := by
  induction fuel generalizing file ctr with
  | zero =>
      exact fun _ holds => ⟨nofun, holds⟩
  | succ fuel ih =>
      refine
        ((tryCall_keeps (stable _)).weaken (fun _ holds => holds)
          (fun _ _ holds => holds) fun _ _ => False.elim).bind ?_
      intro isFree
      cases isFree with
      | true =>
          exact fun _ holds => holds
      | false =>
          by_cases inRange : ctr < maxCtr
          · simp only [inRange, if_true]
            exact ih _ _
          · simp only [inRange, if_false]
            exact fun _ holds => ⟨nofun, holds⟩

theorem removeTestcase_keeps
    (stable :
      ∀ filename, testcase.filename = some filename →
        Stable kept (fun files => files.erase filename) ∧
          Stable kept fun files => files.erase (metadataPath filename)) :
    Satisfies kept (removeTestcase config testcase) (fun _ => kept)
      fun _ state => kept state := by
  unfold removeTestcase
  cases hasName : testcase.filename with
  | none =>
      dsimp only
      split
      · exact fun _ holds => holds
      · exact fun _ holds => holds
  | some filename =>
      obtain ⟨stableFile, stableMetadata⟩ := stable filename hasName
      refine
        ((call_keeps _ stableFile).weaken (fun _ holds => holds)
          (fun _ _ holds => holds) fun _ _ failed => failed.2).bind fun _ => ?_
      split
      · exact
          (call_keeps _ stableMetadata).weaken (fun _ holds => holds)
            (fun _ _ holds => holds) fun _ _ failed => failed.2
      · exact fun _ holds => holds

theorem borrow_keeps :
    Satisfies kept (borrow idx)
      (fun testcase state =>
        state.memory.inner.find idx = some testcase ∧ kept state)
      fun failed state => failed = .panicked ∧ kept state := by
  intro state holds
  unfold borrow
  rw [outcome_bind, outcome_get]
  dsimp only
  cases found : state.memory.inner.find idx with
  | none =>
      exact ⟨rfl, holds⟩
  | some testcase =>
      exact ⟨found, holds⟩

theorem saveMetadata_keeps
    (stableInsert : ∀ path, Stable kept (insert path))
    (stableWrite : Stable kept id)
    (stableRename :
      ∀ filename target,
        Stable kept fun files => insert target (files.erase (tmpPath filename))) :
    Satisfies kept (saveMetadata config idx) (fun _ => kept)
      fun _ state => kept state := by
  unfold saveMetadata
  by_cases hasFormat : config.metaFormat = true
  swap
  · rw [if_neg hasFormat]
    exact fun _ holds => holds
  rw [if_pos hasFormat]
  refine
    (borrow_keeps.weaken (fun _ holds => holds) (fun _ _ both => both)
      fun _ _ failed => failed.2).bind fun testcase => ?_
  refine Satisfies.weaken ?_ (fun _ both => both.2) (fun _ _ holds => holds)
    fun _ _ failed => failed
  cases testcase.filename with
  | none =>
      exact fun _ holds => holds
  | some filename =>
      refine
        ((call_keeps _ (stableInsert _)).weaken (fun _ holds => holds)
          (fun _ _ holds => holds) fun _ _ failed => failed.2).bind fun _ => ?_
      split
      · exact fun _ holds => holds
      · refine
          ((call_keeps _ stableWrite).weaken (fun _ holds => holds)
            (fun _ _ holds => holds) fun _ _ failed => failed.2).bind fun _ => ?_
        exact
          (call_keeps _ (stableRename _ _)).weaken (fun _ holds => holds)
            (fun _ _ holds => holds) fun _ _ failed => failed.2

theorem storeInput_keeps
    (stableInsert : ∀ path, Stable kept (insert path))
    (stableWrite : Stable kept id)
    (stableRename :
      ∀ filename target,
        Stable kept fun files => insert target (files.erase (tmpPath filename)))
    (stableTake :
      ∀ state, kept state →
        kept
          { state with
            memory :=
              { state.memory with
                inner :=
                  state.memory.inner.modify idx fun testcase =>
                    { testcase with input := none } } }) :
    Satisfies kept (storeInput config idx) (fun _ => kept)
      fun failed state => failed = .panicked ∧ kept state := by
  unfold storeInput
  refine borrow_keeps.bind fun testcase => ?_
  refine Satisfies.weaken ?_ (fun _ both => both.2) (fun _ _ holds => holds)
    fun _ _ failed => failed
  split
  · exact
      (call_keeps _ (stableInsert _)).bind fun _ =>
        (call_keeps _ stableWrite).bind fun _ =>
          (call_keeps _ (stableRename _ _)).bind fun _ => stableTake
  · exact fun _ holds => holds

end

/-- A memory with a testcase at one place, and the entries of another one elsewhere. -/
structure Put
    (memory : Memory Input Data)
    (idx : CorpusId)
    (testcase : Testcase Input Data)
    (state : State Input Data) : Prop where
  entries :
    ∀ id,
      state.memory.inner.find id =
        if id = idx then some testcase else memory.inner.find id
  cachedIndexes : state.memory.cachedIndexes = memory.cachedIndexes

theorem Put.here
    {state : State Input Data}
    (put : Put memory idx testcase state) :
    state.memory.inner.find idx = some testcase :=
  (put.entries idx).trans (if_pos rfl)

theorem Put.of_memory
    {state next : State Input Data}
    (put : Put memory idx testcase state)
    (same : next.memory = state.memory) :
    Put memory idx testcase next := by
  refine ⟨?_, ?_⟩
  · rw [same]
    exact put.entries
  · rw [same]
    exact put.cachedIndexes

/-- The search's attempt of a number finds a name that it can lock. -/
def CanLock
    (config : Config Input Data)
    (state : State Input Data)
    (fileOrig : String)
    (number : Nat) : Prop :=
  config.refuses (state.calls + number) = false ∧
    config.lockfile (nameAt fileOrig number) ∉ state.files

/-- The first number whose name can be locked, before the counter overflows. -/
structure FirstFree
    (config : Config Input Data)
    (state : State Input Data)
    (fileOrig : String)
    (number : Nat) : Prop where
  inRange : number + 2 ≤ maxCtr
  canLock : CanLock config state fileOrig number
  first : ∀ earlier < number, ¬CanLock config state fileOrig earlier

theorem FirstFree.unique
    {state : State Input Data}
    {fileOrig : String}
    {first second : Nat}
    (isFirst : FirstFree config state fileOrig first)
    (isSecond : FirstFree config state fileOrig second) :
    first = second := by
  rcases Nat.lt_trichotomy first second with less | same | greater
  · exact absurd isFirst.canLock (isSecond.first first less)
  · exact same
  · exact absurd isSecond.canLock (isFirst.first second greater)

section

variable {fileOrig : String}
variable {start number fuel : Nat}
variable {state : State Input Data}

theorem outcome_createNew
    (config : Config Input Data)
    (path : Path)
    (state : State Input Data) :
    outcome (createNew config path) state =
      if config.refuses state.calls = false ∧ path ∉ state.files then
        (.ok true,
          { state with
            files := insert path state.files
            calls := state.calls + 1 })
      else (.ok false, { state with calls := state.calls + 1 }) := by
  unfold createNew tryCall
  rw [outcome_bind, outcome_get]
  dsimp only
  by_cases isFree : config.refuses state.calls = false ∧ path ∉ state.files
  · rw [if_pos isFree, if_pos (by simp [isFree])]
    rfl
  · rw [if_neg isFree, if_neg (by simpa using isFree)]
    rfl

/-- A failed attempt goes on with the next number, as long as there is one. -/
theorem searchName_next
    (isTaken :
      ¬(config.refuses state.calls = false ∧
        config.lockfile (nameAt fileOrig start) ∉ state.files)) :
    outcome
        (searchName config fileOrig (fuel + 1) (nameAt fileOrig start) (start + 2))
        state =
      if start + 2 < maxCtr then
        outcome
          (searchName config fileOrig fuel (nameAt fileOrig (start + 1)) (start + 1 + 2))
          { state with calls := state.calls + 1 }
      else (.error .panicked, { state with calls := state.calls + 1 }) := by
  rw [searchName, outcome_bind, outcome_createNew, if_neg isTaken]
  dsimp only
  rw [if_neg Bool.false_ne_true]
  by_cases inRange : start + 2 < maxCtr
  · rw [if_pos inRange, if_pos inRange, Nat.add_right_comm start 1 2]
    rfl
  · rw [if_neg inRange, if_neg inRange]
    rfl

theorem searchName_finds
    (inRange : start + number + 2 ≤ maxCtr)
    (canLock :
      config.refuses (state.calls + number) = false ∧
        config.lockfile (nameAt fileOrig (start + number)) ∉ state.files)
    (first :
      ∀ earlier < number,
        ¬(config.refuses (state.calls + earlier) = false ∧
          config.lockfile (nameAt fileOrig (start + earlier)) ∉ state.files))
    (enough : number < fuel) :
    (outcome
        (searchName config fileOrig fuel (nameAt fileOrig start) (start + 2))
        state).1 = .ok (nameAt fileOrig (start + number)) := by
  induction fuel generalizing start number state with
  | zero =>
      exact absurd enough (Nat.not_lt_zero number)
  | succ fuel ih =>
      cases number with
      | zero =>
          rw [Nat.add_zero, Nat.add_zero] at canLock
          rw [searchName, outcome_bind, outcome_createNew, if_pos canLock]
          rfl
      | succ number =>
          rw [@searchName_next _ _ config fileOrig start fuel state
            (first 0 number.succ_pos), if_pos (by omega)]
          have shift (number : Nat) : start + (number + 1) = start + 1 + number := by
            omega
          have calls (number : Nat) :
              state.calls + (number + 1) = state.calls + 1 + number := by
            omega
          rw [shift, calls] at canLock
          rw [shift number]
          refine
            @ih (start + 1) number { state with calls := state.calls + 1 } (by omega)
              canLock (fun earlier isEarlier => ?_) (by omega)
          have isTaken := first (earlier + 1) (Nat.succ_lt_succ isEarlier)
          rwa [shift, calls] at isTaken

theorem searchName_overflows
    (inRange : start + 2 ≤ maxCtr)
    (noneCan :
      ∀ number < fuel,
        start + number + 2 ≤ maxCtr →
        ¬(config.refuses (state.calls + number) = false ∧
          config.lockfile (nameAt fileOrig (start + number)) ∉ state.files)) :
    (outcome
        (searchName config fileOrig fuel (nameAt fileOrig start) (start + 2))
        state).1 =
      .error (if maxCtr < start + 2 + fuel then .panicked else .outOfFuel) := by
  induction fuel generalizing start state with
  | zero =>
      rw [if_neg (by omega)]
      rfl
  | succ fuel ih =>
      rw [@searchName_next _ _ config fileOrig start fuel state
        (noneCan 0 fuel.succ_pos inRange)]
      by_cases goesOn : start + 2 < maxCtr
      · rw [if_pos goesOn, ih (by omega), Nat.add_right_comm start 1 2,
          Nat.add_right_comm _ 1 fuel, Nat.add_assoc _ fuel 1]
        intro number isBefore isNumber
        have isTaken := noneCan (number + 1) (Nat.succ_lt_succ isBefore) (by omega)
        rwa [Nat.add_comm number 1, ← Nat.add_assoc, ← Nat.add_assoc] at isTaken
      · rw [if_neg goesOn, if_pos (by omega)]

/-- The search finds the first free name, or counts until it overflows. -/
theorem searchName_cases
    (config : Config Input Data)
    (fileOrig : String)
    (fuel : Nat)
    (state : State Input Data) :
    (∃ number < fuel,
      FirstFree config state fileOrig number ∧
        (outcome (searchName config fileOrig fuel fileOrig 2) state).1 =
          .ok (nameAt fileOrig number)) ∨
      (∀ number < fuel, number + 2 ≤ maxCtr → ¬CanLock config state fileOrig number) ∧
        (outcome (searchName config fileOrig fuel fileOrig 2) state).1 =
          .error (if maxCtr < 2 + fuel then .panicked else .outOfFuel) := by
  classical
  by_cases someCan :
      ∃ number, (number < fuel ∧ number + 2 ≤ maxCtr) ∧ CanLock config state fileOrig number
  · obtain ⟨⟨enough, inRange⟩, canLock⟩ := Nat.find_spec someCan
    have first : ∀ earlier < Nat.find someCan, ¬CanLock config state fileOrig earlier := by
      intro earlier isEarlier canLockEarlier
      exact Nat.find_min someCan isEarlier ⟨⟨by omega, by omega⟩, canLockEarlier⟩
    refine .inl ⟨Nat.find someCan, enough, ⟨inRange, canLock, first⟩, ?_⟩
    have found :=
      @searchName_finds _ _ config fileOrig 0 (Nat.find someCan) fuel state
    simp only [Nat.zero_add] at found
    exact found inRange canLock first enough
  · have noneCan :
        ∀ number < fuel,
          number + 2 ≤ maxCtr → ¬CanLock config state fileOrig number :=
      fun number enough inRange canLock => someCan ⟨number, ⟨enough, inRange⟩, canLock⟩
    refine .inr ⟨noneCan, ?_⟩
    have overflows := @searchName_overflows _ _ config fileOrig 0 fuel state (by decide)
    simp only [Nat.zero_add] at overflows
    exact overflows noneCan

end

/-- The testcase comes without a name and gets the first free one. -/
def Named
    (config : Config Input Data)
    (idx : CorpusId)
    (testcase : Testcase Input Data)
    (state : State Input Data)
    (left : Testcase Input Data) : Prop :=
  testcase.filename = none ∧
    ∃ input number,
      testcase.input = some input ∧
        FirstFree config state (config.generateName input idx) number ∧
          left =
            { testcase with
              filename := some (config.path (nameAt (config.generateName input idx) number)) }

theorem writeTestcase_put
    {state : State Input Data}
    {change : Testcase Input Data → Testcase Input Data}
    (put : Put memory idx testcase state) :
    ∃ next,
      outcome (writeTestcase idx change) state = (.ok (), next) ∧
        Put memory idx (change testcase) next := by
  refine ⟨_, rfl, ?_, put.cachedIndexes⟩
  intro id
  rw [InMemoryCorpus.find_modify]
  split
  · rename_i isHere
    rw [isHere, put.here]
    rfl
  · rename_i isElsewhere
    rw [put.entries id, if_neg isElsewhere]

theorem outcome_borrow
    {state : State Input Data}
    (found : state.memory.inner.find idx = some testcase) :
    outcome (borrow idx) state = (.ok testcase, state) := by
  unfold borrow
  rw [outcome_bind, outcome_get]
  dsimp only
  rw [found]
  rfl

theorem nameTestcase_put
    {state : State Input Data}
    (put : Put memory idx testcase state) :
    (∃ failed next,
      outcome (nameTestcase config fuel idx) state = (.error failed, next) ∧
        failed ≠ .file) ∨
      ∃ next left,
        outcome (nameTestcase config fuel idx) state = (.ok (), next) ∧
          Put memory idx left next ∧
            (testcase.filename ≠ none ∧ left = testcase ∨
              Named config idx testcase state left) := by
  unfold nameTestcase
  rw [outcome_bind_ok (outcome_borrow put.here)]
  cases hasName : testcase.filename with
  | some filename =>
      exact .inr ⟨state, testcase, rfl, put, .inl ⟨by simp, rfl⟩⟩
  | none =>
      cases hasInput : testcase.input with
      | none =>
          exact .inl ⟨.panicked, state, rfl, nofun⟩
      | some input =>
          dsimp only
          have kept :=
            @searchName_keeps _ _ config _ (fun _ => stable_has _)
              (config.generateName input idx) fuel
              (config.generateName input idx) 2 state
              (show Has state.memory state from rfl)
          have ended := searchName_cases config (config.generateName input idx) fuel state
          cases found :
              outcome
                (searchName config (config.generateName input idx) fuel
                  (config.generateName input idx) 2) state with
          | mk result searched =>
              rw [found] at kept ended
              cases result with
              | error failed =>
                  exact .inl ⟨failed, searched, outcome_bind_error found, kept.1⟩
              | ok file =>
                  obtain ⟨number, _, isFirst, isFile⟩ | ⟨_, isError⟩ := ended
                  swap
                  · cases isError
                  obtain rfl := Except.ok.inj isFile
                  obtain ⟨next, writes, isPut⟩ :=
                    @writeTestcase_put _ _ memory idx testcase searched
                      (fun testcase =>
                        { testcase with
                          filename :=
                            some
                              (config.path
                                (nameAt (config.generateName input idx) number)) })
                      (put.of_memory kept)
                  exact
                    .inr
                      ⟨next, _, (outcome_bind_ok found).trans writes, isPut,
                        .inr ⟨hasName, input, number, hasInput, isFirst, rfl⟩⟩

/-- Only the metadata file makes saving fail with an error of the file system. -/
theorem saveTestcase_put
    {state next : State Input Data}
    (put : Put memory idx testcase state)
    (failed :
      outcome (saveTestcase config fuel idx) state = (.error .file, next)) :
    config.metaFormat = true ∧
      ∃ left,
        Put memory idx left next ∧
          (testcase.filename ≠ none ∧ left = testcase ∨
            Named config idx testcase state left) := by
  unfold saveTestcase at failed
  rcases @nameTestcase_put _ _ config fuel memory idx testcase state put with
    ⟨failure, named, fails, notFile⟩ | ⟨named, left, names, isPut, isLeft⟩
  · rw [outcome_bind_error fails] at failed
    cases failed
    exact absurd rfl notFile
  · rw [outcome_bind_ok names] at failed
    have kept :=
      @saveMetadata_keeps _ _ config idx _ (fun _ => stable_has _) (stable_has _)
        (fun _ _ => stable_has _) named (show Has named.memory named from rfl)
    cases saves : outcome (saveMetadata config idx) named with
    | mk result saved =>
        rw [saves] at kept
        cases result with
        | error failure =>
            rw [outcome_bind_error saves] at failed
            cases failed
            refine ⟨?_, left, isPut.of_memory kept, isLeft⟩
            by_contra noFormat
            rw [saveMetadata, if_neg noFormat] at saves
            cases saves
        | ok _ =>
            rw [outcome_bind_ok saves] at failed
            have stable :
                ∀ effect, Stable (fun _ : State Input Data => True) effect :=
              fun _ => ⟨fun _ _ => trivial, fun _ _ => trivial⟩
            have stores :=
              @storeInput_keeps _ _ config idx _ (fun _ => stable _) (stable _)
                (fun _ _ => stable _) (fun _ _ => trivial) saved trivial
            rw [failed] at stores
            cases stores.1

/-- The memory that a call leaves is the one that it found. -/
structure SameMemory (before after : State Input Data) : Prop where
  entries :
    ∀ id, after.memory.inner.find id = before.memory.inner.find id
  cachedIndexes : after.memory.cachedIndexes = before.memory.cachedIndexes

/-- The state once an entry was replaced in memory. -/
def replaced
    (state : State Input Data)
    (idx : CorpusId)
    (testcase : Testcase Input Data) : State Input Data :=
  { state with
    memory :=
      { state.memory with
        inner := state.memory.inner.modify idx fun _ => testcase } }

/-- The file of an entry and its metadata file can be removed. -/
structure FilesGo
    (config : Config Input Data)
    (entry : Testcase Input Data)
    (filename : Path)
    (state : State Input Data) : Prop where
  hasName : entry.filename = some filename
  hasFormat : config.metaFormat = true
  granted : config.refuses state.calls = false
  isThere : filename ∈ state.files
  grantedAgain : config.refuses (state.calls + 1) = false
  hasMetadata : metadataPath filename ∈ state.files.erase filename

theorem FilesGo.of_state
    {entry : Testcase Input Data}
    {filename : Path}
    {state next : State Input Data}
    (filesGo : FilesGo config entry filename state)
    (sameFiles : next.files = state.files)
    (sameCalls : next.calls = state.calls) :
    FilesGo config entry filename next := by
  constructor
  · exact filesGo.hasName
  · exact filesGo.hasFormat
  · exact sameCalls ▸ filesGo.granted
  · exact sameFiles ▸ filesGo.isThere
  · exact sameCalls ▸ filesGo.grantedAgain
  · exact sameFiles ▸ filesGo.hasMetadata

/-- The state once they are gone. -/
def withoutFiles
    (filename : Path)
    (state : State Input Data) : State Input Data :=
  { state with
    files := (state.files.erase filename).erase (metadataPath filename)
    calls := state.calls + 2 }

theorem outcome_removeFile
    (config : Config Input Data)
    (path : Path)
    (state : State Input Data) :
    outcome (removeFile config path) state =
      if config.refuses state.calls = false ∧ path ∈ state.files then
        (.ok (),
          { state with
            files := state.files.erase path
            calls := state.calls + 1 })
      else (.error .file, { state with calls := state.calls + 1 }) := by
  unfold removeFile call tryCall
  rw [outcome_bind, outcome_bind, outcome_get]
  dsimp only
  by_cases goes : config.refuses state.calls = false ∧ path ∈ state.files
  · rw [if_pos goes, if_pos (by simp [goes])]
    rfl
  · rw [if_neg goes, if_neg (by simpa using goes)]
    rfl

theorem removeTestcase_ok_iff
    {entry : Testcase Input Data}
    {state removed : State Input Data}
    (hasFormat : config.metaFormat = true) :
    outcome (removeTestcase config entry) state = (.ok (), removed) ↔
      ∃ filename,
        FilesGo config entry filename state ∧ removed = withoutFiles filename state := by
  unfold removeTestcase
  cases hasName : entry.filename with
  | none =>
      dsimp only
      rw [if_pos hasFormat]
      refine iff_of_false nofun ?_
      rintro ⟨filename, filesGo, _⟩
      cases hasName.symm.trans filesGo.hasName
  | some filename =>
      dsimp only
      rw [outcome_bind, outcome_removeFile]
      by_cases goes : config.refuses state.calls = false ∧ filename ∈ state.files
      · rw [if_pos goes]
        dsimp only
        rw [if_pos hasFormat, outcome_removeFile]
        constructor
        · intro isRemoved
          split at isRemoved
          · rename_i goesAgain
            exact
              ⟨filename, ⟨hasName, hasFormat, goes.1, goes.2, goesAgain.1, goesAgain.2⟩,
                (Prod.ext_iff.mp isRemoved).2.symm⟩
          · cases isRemoved
        · rintro ⟨other, filesGo, rfl⟩
          obtain rfl := Option.some.inj (hasName.symm.trans filesGo.hasName)
          exact if_pos ⟨filesGo.grantedAgain, filesGo.hasMetadata⟩
      · rw [if_neg goes]
        refine iff_of_false nofun ?_
        rintro ⟨other, filesGo, _⟩
        obtain rfl := Option.some.inj (hasName.symm.trans filesGo.hasName)
        exact goes ⟨filesGo.granted, filesGo.isThere⟩

/-- The testcase is the entry, but for the first name that is free without the old files. -/
def NamedAgain
    (config : Config Input Data)
    (idx : CorpusId)
    (entry testcase : Testcase Input Data)
    (state : State Input Data)
    (left : Testcase Input Data) : Prop :=
  ∃ filename,
    FilesGo config entry filename state ∧
      Named config idx testcase (withoutFiles filename state) left

/-- An entry is replaced by itself, or by itself without the name that it gets again. -/
def ReplacesByItself
    (config : Config Input Data)
    (state : State Input Data) : Operation Input Data → Prop
  | .replace idx testcase =>
      ∃ entry,
        state.memory.inner.find idx = some entry ∧
          (entry = testcase ∨ NamedAgain config idx entry testcase state entry)
  | _ => False

variable {state next : State Input Data}

theorem add_put
    (failed :
      outcome (add config fuel testcase) state = (.error .file, next)) :
    ∃ left, Put state.memory state.memory.inner.nextId left next := by
  let added : State Input Data :=
    { state with
      memory :=
        { state.memory with inner := (state.memory.inner.add testcase).2 } }
  have put : Put state.memory state.memory.inner.nextId testcase added :=
    ⟨fun _ => InMemoryCorpus.find_add, rfl⟩
  have saves :
      outcome (add config fuel testcase) state =
        outcome
          (do
            saveTestcase config fuel state.memory.inner.nextId
            pure state.memory.inner.nextId) added :=
    rfl
  rw [saves] at failed
  cases saved : outcome (saveTestcase config fuel state.memory.inner.nextId) added with
  | mk result after =>
      cases result with
      | ok _ =>
          rw [outcome_bind_ok saved] at failed
          cases failed
      | error failure =>
          rw [outcome_bind_error saved] at failed
          cases failed
          obtain ⟨_, left, isPut, _⟩ := saveTestcase_put put saved
          exact ⟨left, isPut⟩

theorem replace_put
    (failed :
      outcome (replace config fuel idx testcase) state = (.error .file, next)) :
    ∃ entry left,
      state.memory.inner.find idx = some entry ∧
        Put state.memory idx left next ∧
          (left = testcase ∧
              (testcase.filename = none → ¬∃ filename, FilesGo config entry filename state) ∨
            NamedAgain config idx entry testcase state left) := by
  unfold replace at failed
  rw [outcome_bind, outcome_get] at failed
  dsimp only at failed
  rw [InMemoryCorpus.replace_eq] at failed
  cases found : state.memory.inner.find idx with
  | none =>
      rw [found] at failed
      cases failed
  | some entry =>
      rw [found] at failed
      have put : Put state.memory idx testcase (replaced state idx testcase) := by
        refine ⟨fun id => ?_, rfl⟩
        have isFind :
            (replaced state idx testcase).memory.inner.find id =
              if id = idx then
                (state.memory.inner.find id).map fun _ => testcase
              else state.memory.inner.find id :=
          InMemoryCorpus.find_modify
        rw [isFind]
        split
        · rename_i isHere
          rw [isHere, found]
          rfl
        · rfl
      have goesOn :
          outcome
              (do
                removeTestcase config entry
                saveTestcase config fuel idx
                pure entry) (replaced state idx testcase) =
            (.error .file, next) :=
        failed
      have kept :=
        @removeTestcase_keeps _ _ config entry _
          (fun _ _ => ⟨stable_has _, stable_has _⟩) (replaced state idx testcase)
          (show Has (replaced state idx testcase).memory _ from rfl)
      cases removes :
          outcome (removeTestcase config entry) (replaced state idx testcase) with
      | mk result removed =>
          rw [removes] at kept
          cases result with
          | error failure =>
              rw [outcome_bind_error removes] at goesOn
              cases goesOn
              refine ⟨entry, testcase, rfl, put.of_memory kept, .inl ⟨rfl, fun _ => ?_⟩⟩
              rintro ⟨filename, filesGo⟩
              have isRemoved :
                  outcome (removeTestcase config entry) (replaced state idx testcase) =
                    (.ok (), withoutFiles filename (replaced state idx testcase)) :=
                (removeTestcase_ok_iff filesGo.hasFormat).mpr
                  ⟨filename, filesGo.of_state rfl rfl, rfl⟩
              cases removes.symm.trans isRemoved
          | ok _ =>
              rw [outcome_bind_ok removes] at goesOn
              have isPut := put.of_memory kept
              cases saved : outcome (saveTestcase config fuel idx) removed with
              | mk result after =>
                  cases result with
                  | ok _ =>
                      rw [outcome_bind_ok saved] at goesOn
                      cases goesOn
                  | error failure =>
                      rw [outcome_bind_error saved] at goesOn
                      cases goesOn
                      obtain ⟨hasFormat, left, isLeft, ⟨hasName, rfl⟩ | isNamed⟩ :=
                        saveTestcase_put isPut saved
                      · exact
                          ⟨entry, left, rfl, isLeft, .inl ⟨rfl, fun none => absurd none hasName⟩⟩
                      obtain ⟨filename, filesGo, rfl⟩ :=
                        (removeTestcase_ok_iff hasFormat).mp removes
                      obtain ⟨hasNone, input, number, hasInput, isFirst, rfl⟩ := isNamed
                      refine ⟨entry, _, rfl, isLeft, .inr ⟨filename, filesGo.of_state rfl rfl, ?_⟩⟩
                      exact
                        ⟨hasNone, input, number, hasInput,
                          ⟨isFirst.inRange, isFirst.canLock, isFirst.first⟩, rfl⟩

theorem remove_gone
    (failed : outcome (remove config idx) state = (.error .file, next)) :
    idx ∈ state.memory.inner.ids ∧ next.memory.inner.find idx = none := by
  unfold remove at failed
  rw [outcome_bind, outcome_get] at failed
  dsimp only at failed
  rw [InMemoryCorpus.remove_eq] at failed
  cases found : state.memory.inner.find idx with
  | none =>
      rw [found] at failed
      cases failed
  | some entry =>
      rw [found] at failed
      refine ⟨InMemoryCorpus.mem_ids.mpr ⟨entry, found⟩, ?_⟩
      let removed : State Input Data :=
        { state with
          memory :=
            { state.memory with inner := state.memory.inner.removed idx } }
      have goesOn :
          outcome
              (do
                removeTestcase config entry
                pure entry) removed = (.error .file, next) :=
        failed
      have kept :=
        @removeTestcase_keeps _ _ config entry _
          (fun _ _ => ⟨stable_has _, stable_has _⟩) removed
          (show Has removed.memory removed from rfl)
      cases removes : outcome (removeTestcase config entry) removed with
      | mk result after =>
          rw [removes] at kept
          cases result with
          | ok _ =>
              rw [outcome_bind_ok removes] at goesOn
              cases goesOn
          | error failure =>
              rw [outcome_bind_error removes] at goesOn
              cases goesOn
              rw [show next.memory = removed.memory from kept]
              exact InMemoryCorpus.find_removed.trans (if_pos rfl)

theorem removeCached_gone
    (failed : outcome (Cached.remove config idx) state = (.error .file, next)) :
    idx ∈ state.memory.inner.ids ∧ next.memory.inner.find idx = none := by
  unfold Cached.remove at failed
  cases removes : outcome (remove config idx) state with
  | mk result after =>
      cases result with
      | ok _ =>
          rw [outcome_bind_ok removes] at failed
          cases failed
      | error failure =>
          rw [outcome_bind_error removes] at failed
          cases failed
          exact remove_gone removes

theorem failed_of_perform
    {Value : Type}
    {procedure : OnDisk Input Data Value}
    (failed :
      outcome
          (do
            let _ ← procedure
            pure ()) state = (.error .file, next)) :
    outcome procedure state = (.error .file, next) := by
  cases ends : outcome procedure state with
  | mk result after =>
      cases result with
      | ok _ =>
          rw [outcome_bind_ok ends] at failed
          cases failed
      | error failure =>
          rw [outcome_bind_error ends] at failed
          cases failed
          rfl

/-- An error of the file system leaves the memory only where nothing was changed. -/
theorem file_errors_change_memory
    (config : Config Input Data)
    (fuel : Nat)
    (operation : Operation Input Data)
    (failed :
      outcome (perform config fuel operation) state = (.error .file, next)) :
    SameMemory state next ↔ ReplacesByItself config state operation := by
  cases operation with
  | add testcase =>
      obtain ⟨left, put⟩ := add_put (failed_of_perform failed)
      refine iff_of_false (fun same => ?_) id
      have isThere := (same.entries _).symm.trans put.here
      have isLive := InMemoryCorpus.mem_ids.mpr ⟨left, isThere⟩
      exact lt_irrefl _ (InMemoryCorpus.lt_nextId isLive)
  | replace idx testcase =>
      obtain ⟨entry, left, found, put, isLeft⟩ := replace_put (failed_of_perform failed)
      have same_iff : SameMemory state next ↔ left = entry := by
        constructor
        · intro same
          have isThere := (same.entries idx).symm.trans put.here
          exact Option.some.inj (isThere.symm.trans found)
        · rintro rfl
          refine ⟨fun id => ?_, put.cachedIndexes⟩
          rw [put.entries]
          split
          · rename_i isHere
            rw [isHere, found]
          · rfl
      rw [same_iff]
      constructor
      · rintro rfl
        exact ⟨left, found, isLeft.imp_left And.left⟩
      · rintro ⟨other, isOther, isItself⟩
        obtain rfl := Option.some.inj (found.symm.trans isOther)
        rcases isLeft with ⟨rfl, notNamed⟩ | ⟨filename, filesGo, hasNone, isNamed⟩
        · rcases isItself with rfl | ⟨filename, filesGo, hasNone, _⟩
          · rfl
          · exact absurd ⟨filename, filesGo⟩ (notNamed hasNone)
        · rcases isItself with rfl | ⟨again, goesAgain, _, isNamedAgain⟩
          · cases hasNone.symm.trans filesGo.hasName
          · obtain rfl := Option.some.inj (filesGo.hasName.symm.trans goesAgain.hasName)
            obtain ⟨input, number, hasInput, isFirst, rfl⟩ := isNamed
            obtain ⟨_, _, hasInputAgain, isFirstAgain, isEntry⟩ := isNamedAgain
            obtain rfl := Option.some.inj (hasInput.symm.trans hasInputAgain)
            rw [isEntry, isFirst.unique isFirstAgain]
  | remove idx =>
      obtain ⟨isLive, isGone⟩ := remove_gone (failed_of_perform failed)
      refine iff_of_false (fun same => ?_) id
      rw [same.entries] at isGone
      exact InMemoryCorpus.find_eq_none.mp isGone isLive
  | removeCached idx =>
      obtain ⟨isLive, isGone⟩ := removeCached_gone (failed_of_perform failed)
      refine iff_of_false (fun same => ?_) id
      rw [same.entries] at isGone
      exact InMemoryCorpus.find_eq_none.mp isGone isLive

/-- A corpus with metadata files whose system calls are refused from one on. -/
def refusingFrom (first : Nat) : Config Unit Unit where
  dirPath := "corpus"
  metaFormat := true
  generateName _ _ := "unit"
  serializes _ := true
  refuses number := first ≤ number

/-- An entry whose input is in its file. -/
def storedUnit : Testcase Unit Unit where
  input := none
  filename := some ⟨"corpus", "unit"⟩
  data := ()

/-- A corpus that has nothing but such an entry. -/
def oneStored : State Unit Unit where
  memory :=
    { inner := ((InMemoryCorpus.new : InMemoryCorpus (Testcase Unit Unit)).add
        storedUnit).2
      cachedIndexes := [] }
  files := {⟨"corpus", "unit"⟩, ⟨"corpus", ".unit.metadata"⟩}
  calls := 0

theorem file_errors_change_memory_itself :
    ∃ next,
      outcome (perform (refusingFrom 0) 0 (.replace 0 storedUnit)) oneStored =
          (.error .file, next) ∧
        SameMemory oneStored next :=
  ⟨_, rfl,
    (file_errors_change_memory (refusingFrom 0) 0 (.replace 0 storedUnit) rfl).mpr
      ⟨storedUnit, rfl, .inl rfl⟩⟩

/-- A corpus without entries. -/
def noEntries : State Unit Unit where
  memory := { inner := .new, cachedIndexes := [] }
  files := ∅
  calls := 0

/-- A testcase stays in the corpus though its metadata file could not be created. -/
theorem failed_add_leaves_entry :
    ∃ next,
      outcome (perform (refusingFrom 1) 1 (.add ⟨some (), none, ()⟩)) noEntries =
          (.error .file, next) ∧
        noEntries.memory.inner.find 0 = none ∧
        next.memory.inner.find 0 =
          some ⟨some (), some ⟨"corpus", "unit"⟩, ()⟩ :=
  ⟨_, rfl, rfl, rfl⟩

end MeFuzz.Corpus.FailingDisk
