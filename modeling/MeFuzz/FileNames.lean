import MeFuzz.DiskFailureEffects

namespace MeFuzz.Corpus.FailingDisk

open Procedure

/-!
# The names of the files

The search for a name takes every failure for a name that is taken, so it returns only at an
attempt that succeeds; without one its counter overflows.  A name that it finds is locked as
long as the lockfile stays; a testcase that comes with a name is not asked for a lockfile.
-/

variable {Input Data : Type}
variable {config : Config Input Data}
variable {state next : State Input Data}
variable {idx : CorpusId}
variable {testcase : Testcase Input Data}

/-- Some attempt can lock its name before the counter overflows. -/
def SomeNameCanBeLocked
    (config : Config Input Data)
    (fileOrig : String)
    (state : State Input Data) : Prop :=
  ∃ number, number + 2 ≤ maxCtr ∧ CanLock config state fileOrig number

/-- A call that comes back with its value or with an error. -/
def Returned {Value : Type} : Except Failure Value → Prop
  | .error .panicked => False
  | .error .outOfFuel => False
  | _ => True

/-- The search comes back, with a name or with an error. -/
def SearchReturns
    (config : Config Input Data)
    (fileOrig : String)
    (state : State Input Data) : Prop :=
  ∃ fuel, Returned (outcome (searchName config fileOrig fuel fileOrig 2) state).1

/-- With fuel for every number the search ends, and it returns where a name can be locked. -/
theorem searchName_returns
    (config : Config Input Data)
    (fileOrig : String)
    (state : State Input Data) :
    (∀ fuel, maxCtr ≤ fuel + 1 →
      (outcome (searchName config fileOrig fuel fileOrig 2) state).1 ≠
        .error .outOfFuel) ∧
      (SearchReturns config fileOrig state ↔
        SomeNameCanBeLocked config fileOrig state) := by
  refine ⟨fun fuel enough => ?_, ?_, ?_⟩
  · rcases searchName_cases config fileOrig fuel state with
      ⟨number, _, _, found⟩ | ⟨_, overflows⟩
    · rw [found]
      exact nofun
    · rw [overflows, if_pos (by omega)]
      exact nofun
  · rintro ⟨fuel, returned⟩
    rcases searchName_cases config fileOrig fuel state with
      ⟨number, _, isFirst, _⟩ | ⟨_, overflows⟩
    · exact ⟨number, isFirst.inRange, isFirst.canLock⟩
    · rw [overflows] at returned
      split at returned <;> exact returned.elim
  · rintro ⟨number, inRange, canLock⟩
    refine ⟨number + 1, ?_⟩
    rcases searchName_cases config fileOrig (number + 1) state with
      ⟨first, _, _, found⟩ | ⟨noneCan, _⟩
    · rw [found]
      trivial
    · exact absurd canLock (noneCan number number.lt_succ_self inRange)

/-- No live entries share a name, and the names of the directory are locked. -/
structure Unshared (config : Config Input Data) (state : State Input Data) : Prop where
  distinct :
    ∀ {first second testcase other path},
      state.memory.inner.find first = some testcase →
      state.memory.inner.find second = some other →
      testcase.filename = some path →
      other.filename = some path →
      first = second
  locked :
    ∀ {id testcase file},
      state.memory.inner.find id = some testcase →
      testcase.filename = some (config.path file) →
      config.lockfile file ∈ state.files

/-- A name that no one else has, and that is locked if it is in the directory. -/
structure NameIsFree
    (config : Config Input Data)
    (state : State Input Data)
    (idx : CorpusId)
    (path : Path) : Prop where
  notOwned :
    ∀ {id other},
      id ≠ idx →
      state.memory.inner.find id = some other →
      other.filename ≠ some path
  locked : ∀ {file}, path = config.path file → config.lockfile file ∈ state.files

theorem Unshared.put
    (unshared : Unshared config state)
    (isFree :
      ∀ path, testcase.filename = some path → NameIsFree config state idx path)
    (put : Put state.memory idx testcase next)
    (sameFiles : next.files = state.files) :
    Unshared config next := by
  have cases_of_find :
      ∀ {id other},
        next.memory.inner.find id = some other →
        id = idx ∧ other = testcase ∨
          id ≠ idx ∧ state.memory.inner.find id = some other := by
    intro id other found
    rw [put.entries] at found
    split at found
    · rename_i isHere
      exact .inl ⟨isHere, (Option.some.inj found).symm⟩
    · rename_i isElsewhere
      exact .inr ⟨isElsewhere, found⟩
  constructor
  · intro first second one other path isFirst isSecond firstOwns secondOwns
    rcases cases_of_find isFirst with ⟨firstHere, rfl⟩ | ⟨firstElsewhere, isFirst⟩
    · rcases cases_of_find isSecond with ⟨secondHere, rfl⟩ | ⟨elsewhere, isSecond⟩
      · rw [firstHere, secondHere]
      · exact absurd secondOwns ((isFree _ firstOwns).notOwned elsewhere isSecond)
    · rcases cases_of_find isSecond with ⟨secondHere, rfl⟩ | ⟨_, isSecond⟩
      · exact absurd firstOwns ((isFree _ secondOwns).notOwned firstElsewhere isFirst)
      · exact unshared.distinct isFirst isSecond firstOwns secondOwns
  · intro id other file found owns
    rw [sameFiles]
    rcases cases_of_find found with ⟨_, rfl⟩ | ⟨_, found⟩
    · exact (isFree _ owns).locked rfl
    · exact unshared.locked found owns

theorem Unshared.of_entries
    (unshared : Unshared config state)
    (entries :
      ∀ {id other},
        next.memory.inner.find id = some other →
        state.memory.inner.find id = some other)
    (sameFiles : next.files = state.files) :
    Unshared config next := by
  constructor
  · intro first second one other path isFirst isSecond
    exact unshared.distinct (entries isFirst) (entries isSecond)
  · intro id other file found owns
    rw [sameFiles]
    exact unshared.locked (entries found) owns

theorem stable_unshared
    {effect : Finset Path → Finset Path}
    (keeps :
      ∀ file files, config.lockfile file ∈ files → config.lockfile file ∈ effect files) :
    Stable (Unshared config) effect :=
  ⟨fun _ unshared => ⟨unshared.distinct, unshared.locked⟩, fun _ unshared =>
    ⟨unshared.distinct, fun found owns => keeps _ _ (unshared.locked found owns)⟩⟩

theorem stable_unshared_insert (path : Path) :
    Stable (Unshared config) (insert path) :=
  stable_unshared fun _ _ => Finset.mem_insert_of_mem

theorem stable_unshared_id : Stable (Unshared config) id :=
  stable_unshared fun _ _ isThere => isThere

theorem stable_unshared_erase
    {path : Path}
    (notLockfile : ∀ file, path ≠ config.lockfile file) :
    Stable (Unshared config) fun files => files.erase path :=
  stable_unshared fun file _ isThere =>
    Finset.mem_erase.mpr ⟨(notLockfile file).symm, isThere⟩

theorem tmpPath_ne_lockfile
    (filename : Path)
    (file : String) :
    tmpPath filename ≠ config.lockfile file := by
  intro same
  have sameFile := congrArg (fun path => path.file.toList) same
  simp [tmpPath, Path.setFileName, Config.lockfile, Config.path, toString] at sameFile
  have sameLast := congrArg List.getLast? sameFile
  simp at sameLast

theorem metadataPath_ne_lockfile
    (filename : Path)
    (file : String) :
    metadataPath filename ≠ config.lockfile file := by
  intro same
  have sameFile := congrArg (fun path => path.file.toList) same
  simp [metadataPath, Path.setFileName, Config.lockfile, Config.path, toString] at sameFile
  have sameLast := congrArg List.getLast? sameFile
  simp at sameLast

theorem stable_unshared_rename (filename target : Path) :
    Stable (Unshared config) fun files =>
      insert target (files.erase (tmpPath filename)) :=
  stable_unshared fun file _ isThere =>
    Finset.mem_insert_of_mem
      (Finset.mem_erase.mpr ⟨(tmpPath_ne_lockfile filename file).symm, isThere⟩)

theorem createNew_unshared (file : String) :
    Satisfies (Unshared config) (createNew config (config.lockfile file))
      (fun isFree state =>
        Unshared config state ∧
          (isFree = true → ∀ idx, NameIsFree config state idx (config.path file)))
      fun _ _ => False := by
  intro state unshared
  rw [outcome_createNew]
  by_cases isFree :
      config.refuses state.calls = false ∧ config.lockfile file ∉ state.files
  · rw [if_pos isFree]
    refine ⟨(stable_unshared_insert _).performed state unshared, fun _ idx => ?_⟩
    constructor
    · intro id other _ found owns
      exact isFree.2 (unshared.locked found owns)
    · rintro _ same
      cases same
      exact Finset.mem_insert_self _ _
  · rw [if_neg isFree]
    exact ⟨stable_unshared_id.refused state unshared, nofun⟩

theorem searchName_unshared
    (fileOrig : String)
    (fuel : Nat)
    (file : String)
    (ctr : Nat) :
    Satisfies (Unshared config) (searchName config fileOrig fuel file ctr)
      (fun file state =>
        Unshared config state ∧
          ∀ idx, NameIsFree config state idx (config.path file))
      fun _ => Unshared config := by
  induction fuel generalizing file ctr with
  | zero =>
      exact fun _ unshared => unshared
  | succ fuel ih =>
      refine
        ((createNew_unshared file).weaken (fun _ holds => holds)
          (fun _ _ holds => holds) fun _ _ => False.elim).bind ?_
      intro isFree
      cases isFree with
      | true =>
          exact fun _ both => ⟨both.1, both.2 rfl⟩
      | false =>
          by_cases inRange : ctr < maxCtr
          · simp only [inRange, if_true]
            exact
              (ih _ _).weaken (fun _ both => both.1)
                (fun _ _ holds => holds) fun _ _ holds => holds
          · simp only [inRange, if_false]
            exact fun _ both => both.1

theorem writeTestcase_unshared
    (change : Testcase Input Data → Testcase Input Data)
    (isFree :
      ∀ testcase path,
        state.memory.inner.find idx = some testcase →
        (change testcase).filename = some path →
        testcase.filename = some path ∨ NameIsFree config state idx path)
    (unshared : Unshared config state) :
    Unshared config
      { state with
        memory :=
          { state.memory with inner := state.memory.inner.modify idx change } } := by
  cases found : state.memory.inner.find idx with
  | none =>
      refine unshared.of_entries (fun {id other} isOther => ?_) rfl
      rw [← isOther]
      refine Eq.symm (InMemoryCorpus.find_modify.trans ?_)
      split
      · rename_i isHere
        rw [isHere, found]
        rfl
      · rfl
  | some testcase =>
      refine @Unshared.put _ _ config state _ idx (change testcase) unshared ?_ ?_ rfl
      · intro path owns
        rcases isFree testcase path found owns with owned | isFree
        · refine ⟨?_, ?_⟩
          · intro id other isElsewhere isOther otherOwns
            exact isElsewhere (unshared.distinct isOther found otherOwns owned)
          · rintro file rfl
            exact unshared.locked found owned
        · exact isFree
      · refine ⟨fun id => ?_, rfl⟩
        refine InMemoryCorpus.find_modify.trans ?_
        split
        · rename_i isHere
          rw [isHere, found]
          rfl
        · rfl

theorem nameTestcase_unshared (fuel : Nat) :
    Satisfies (Unshared config) (nameTestcase config fuel idx)
      (fun _ => Unshared config) fun _ => Unshared config := by
  unfold nameTestcase
  refine
    (borrow_keeps.weaken (fun _ holds => holds) (fun _ _ both => both.2)
      fun _ _ failed => failed.2).bind fun testcase => ?_
  by_cases isUnnamed : testcase.filename.isNone = true
  swap
  · rw [if_neg isUnnamed]
    exact fun _ unshared => unshared
  rw [if_pos isUnnamed]
  cases testcase.input with
  | none =>
      exact fun _ unshared => unshared
  | some input =>
      refine (searchName_unshared _ fuel _ _).bind fun file => ?_
      rintro state ⟨unshared, isFree⟩
      refine writeTestcase_unshared _ ?_ unshared
      intro other path _ owns
      cases owns
      exact .inr (isFree idx)

theorem saveTestcase_unshared (fuel : Nat) :
    Satisfies (Unshared config) (saveTestcase config fuel idx)
      (fun _ => Unshared config) fun _ => Unshared config := by
  refine (nameTestcase_unshared fuel).bind fun _ => ?_
  refine
    (saveMetadata_keeps stable_unshared_insert stable_unshared_id
      stable_unshared_rename).bind fun _ => ?_
  refine
    (storeInput_keeps stable_unshared_insert stable_unshared_id
      stable_unshared_rename ?_).weaken (fun _ holds => holds)
        (fun _ _ holds => holds) fun _ _ failed => failed.2
  intro state unshared
  exact writeTestcase_unshared _ (fun _ _ _ owns => .inl owns) unshared

/-- The name of an entry is not that of a lockfile. -/
def OwnsNoLockfile
    (config : Config Input Data)
    (testcase : Testcase Input Data) : Prop :=
  ∀ file, testcase.filename ≠ some (config.lockfile file)

theorem removeTestcase_unshared
    (notLockfile : OwnsNoLockfile config testcase) :
    Satisfies (Unshared config) (removeTestcase config testcase)
      (fun _ => Unshared config) fun _ => Unshared config := by
  refine removeTestcase_keeps fun filename hasName => ⟨?_, ?_⟩
  · refine stable_unshared_erase fun file same => ?_
    rw [same] at hasName
    exact notLockfile file hasName
  · exact stable_unshared_erase (metadataPath_ne_lockfile filename)

/-- A testcase that comes without a name, or with one that is free. -/
def ComesWithFreeName
    (config : Config Input Data)
    (state : State Input Data)
    (idx : CorpusId)
    (testcase : Testcase Input Data) : Prop :=
  ∀ path, testcase.filename = some path → NameIsFree config state idx path

theorem ends_with
    {Value : Type}
    {kept : State Input Data → Prop}
    {procedure : OnDisk Input Data Value}
    (keeps : Satisfies kept procedure (fun _ => kept) fun _ => kept)
    (holds : kept state) :
    kept (outcome procedure state).2 := by
  have ends := keeps state holds
  generalize outcome procedure state = result at ends ⊢
  obtain ⟨result, next⟩ := result
  cases result with
  | ok _ =>
      exact ends
  | error _ =>
      exact ends

theorem add_unshared
    (fuel : Nat)
    (isFree :
      ComesWithFreeName config state state.memory.inner.nextId testcase)
    (unshared : Unshared config state) :
    Unshared config (outcome (add config fuel testcase) state).2 := by
  let added : State Input Data :=
    { state with
      memory :=
        { state.memory with inner := (state.memory.inner.add testcase).2 } }
  have isAdded : Unshared config added :=
    unshared.put isFree ⟨fun _ => InMemoryCorpus.find_add, rfl⟩ rfl
  have saves :
      Satisfies (Unshared config)
        (do
          saveTestcase config fuel state.memory.inner.nextId
          pure state.memory.inner.nextId)
        (fun _ => Unshared config) fun _ => Unshared config :=
    (saveTestcase_unshared fuel).bind fun _ _ holds => holds
  have ends := ends_with saves isAdded
  exact ends

theorem replace_unshared
    (fuel : Nat)
    (isFree : ComesWithFreeName config state idx testcase)
    (notLockfile :
      ∀ entry,
        state.memory.inner.find idx = some entry → OwnsNoLockfile config entry)
    (unshared : Unshared config state) :
    Unshared config (outcome (replace config fuel idx testcase) state).2 := by
  unfold replace
  rw [outcome_bind, outcome_get]
  dsimp only
  rw [InMemoryCorpus.replace_eq]
  cases found : state.memory.inner.find idx with
  | none =>
      exact unshared
  | some entry =>
      have isReplaced : Unshared config (replaced state idx testcase) := by
        refine writeTestcase_unshared _ ?_ unshared
        exact fun _ path _ owns => .inr (isFree path owns)
      have goesOn :
          Satisfies (Unshared config)
            (do
              removeTestcase config entry
              saveTestcase config fuel idx
              pure entry)
            (fun _ => Unshared config) fun _ => Unshared config :=
        (removeTestcase_unshared (notLockfile entry found)).bind fun _ =>
          (saveTestcase_unshared fuel).bind fun _ _ holds => holds
      have ends := ends_with goesOn isReplaced
      exact ends

theorem remove_unshared
    (notLockfile :
      ∀ entry,
        state.memory.inner.find idx = some entry → OwnsNoLockfile config entry)
    (unshared : Unshared config state) :
    Unshared config (outcome (remove config idx) state).2 := by
  unfold remove
  rw [outcome_bind, outcome_get]
  dsimp only
  rw [InMemoryCorpus.remove_eq]
  cases found : state.memory.inner.find idx with
  | none =>
      exact unshared
  | some entry =>
      let removed : State Input Data :=
        { state with
          memory :=
            { state.memory with inner := state.memory.inner.removed idx } }
      have isRemoved : Unshared config removed := by
        refine unshared.of_entries (fun isOther => ?_) rfl
        have isFound := InMemoryCorpus.find_removed.symm.trans isOther
        split at isFound
        · cases isFound
        · exact isFound
      have goesOn :
          Satisfies (Unshared config)
            (do
              removeTestcase config entry
              pure entry)
            (fun _ => Unshared config) fun _ => Unshared config :=
        (removeTestcase_unshared (notLockfile entry found)).bind fun _ _ holds => holds
      have ends := ends_with goesOn isRemoved
      exact ends

theorem removeCached_unshared
    (notLockfile :
      ∀ entry,
        state.memory.inner.find idx = some entry → OwnsNoLockfile config entry)
    (unshared : Unshared config state) :
    Unshared config (outcome (Cached.remove config idx) state).2 := by
  have removed := remove_unshared notLockfile unshared
  unfold Cached.remove
  rw [outcome_bind]
  generalize outcome (remove config idx) state = result at removed ⊢
  obtain ⟨result, next⟩ := result
  cases result with
  | ok _ =>
      exact ⟨removed.distinct, removed.locked⟩
  | error _ =>
      exact removed

/-- An operation of the corpus, or what others do in the meantime. -/
inductive Event (Input Data : Type) where
  | operation (operation : Operation Input Data)
  | outside (files : Finset Path)

/-- An operation may end anywhere in its search; others may do anything to the files. -/
inductive Step (config : Config Input Data) :
    StepRelation (State Input Data) (Event Input Data) where
  | operation
      (state : State Input Data)
      (operation : Operation Input Data)
      (fuel : Nat) :
      Step config state (.operation operation)
        (outcome (perform config fuel operation) state).2
  | outside
      (state : State Input Data)
      (files : Finset Path) :
      Step config state (.outside files) { state with files := files }

/-- Names that come with a testcase are free, and no one removes a lockfile in use. -/
def Careful
    (config : Config Input Data)
    (state : State Input Data) : Event Input Data → Prop
  | .operation (.add testcase) =>
      ComesWithFreeName config state state.memory.inner.nextId testcase
  | .operation (.replace idx testcase) =>
      ComesWithFreeName config state idx testcase ∧
        ∀ entry,
          state.memory.inner.find idx = some entry → OwnsNoLockfile config entry
  | .operation (.remove idx) =>
      ∀ entry,
        state.memory.inner.find idx = some entry → OwnsNoLockfile config entry
  | .operation (.removeCached idx) =>
      ∀ entry,
        state.memory.inner.find idx = some entry → OwnsNoLockfile config entry
  | .outside files =>
      ∀ id testcase file,
        state.memory.inner.find id = some testcase →
        testcase.filename = some (config.path file) →
        config.lockfile file ∈ files

theorem perform_snd
    {Value : Type}
    (procedure : OnDisk Input Data Value)
    (state : State Input Data) :
    (outcome
        (do
          let _ ← procedure
          pure ()) state).2 = (outcome procedure state).2 := by
  rw [outcome_bind]
  cases outcome procedure state with
  | mk result next =>
      cases result with
      | ok _ =>
          rfl
      | error _ =>
          rfl

theorem step_unshared
    {event : Event Input Data}
    (unshared : Unshared config state)
    (careful : Careful config state event)
    (taken : Step config state event next) :
    Unshared config next := by
  cases taken with
  | operation _ operation fuel =>
      cases operation with
      | add testcase =>
          rw [perform, perform_snd]
          exact add_unshared fuel careful unshared
      | replace idx testcase =>
          rw [perform, perform_snd]
          exact replace_unshared fuel careful.1 careful.2 unshared
      | remove idx =>
          rw [perform, perform_snd]
          exact remove_unshared careful unshared
      | removeCached idx =>
          rw [perform, perform_snd]
          exact removeCached_unshared careful unshared
  | outside files =>
      exact ⟨unshared.distinct, fun found owns => careful _ _ _ found owns⟩

/-- Live entries that own the same name are the same. -/
def NamesAreDistinct (state : State Input Data) : Prop :=
  ∀ first second testcase other path,
    state.memory.inner.find first = some testcase →
    state.memory.inner.find second = some other →
    testcase.filename = some path →
    other.filename = some path →
    first = second

/--
The search always ends, and returns just where a name can be locked; names that are taken with
care are not shared.
-/
theorem names_are_found_and_distinct
    (config : Config Input Data) :
    (∀ fileOrig state,
      (∀ fuel, maxCtr ≤ fuel + 1 →
        (outcome (searchName config fileOrig fuel fileOrig 2) state).1 ≠
          .error .outOfFuel) ∧
        (SearchReturns config fileOrig state ↔
          SomeNameCanBeLocked config fileOrig state)) ∧
      ∀ start events,
        start.memory.inner = InMemoryCorpus.new →
        Run.Everywhere (Step config) (Careful config) start events →
        Run.Always (Step config) NamesAreDistinct start events := by
  refine ⟨searchName_returns config, ?_⟩
  intro start events isNew careful
  have noEntry : ∀ id, start.memory.inner.find id = none := by
    intro id
    rw [isNew]
    exact InMemoryCorpus.find_new
  have initially : Unshared config start := by
    constructor
    · intro first _ _ _ _ found
      cases (noEntry first).symm.trans found
    · intro id _ _ found
      cases (noEntry id).symm.trans found
  intro seen state isPrefix run
  have unshared :=
    Run.invariant_of_everywhere careful step_unshared initially seen state isPrefix
      run
  intro first second testcase other path
  exact unshared.distinct

/-- Adding a testcase without a name twice. -/
def twoUnnamed : List (Event Unit Unit) :=
  [.operation (.add ⟨some (), none, ()⟩), .operation (.add ⟨some (), none, ()⟩)]

theorem names_are_found_and_distinct_unnamed :
    Run.Always (Step (refusingFrom 14)) NamesAreDistinct noEntries twoUnnamed := by
  refine (names_are_found_and_distinct (refusingFrom 14)).2 _ _ rfl ?_
  intro earlier event state next isPrefix _ _
  have isAdd : event = .operation (.add ⟨some (), none, ()⟩) := by
    have isEvent : event ∈ twoUnnamed := isPrefix.subset (by simp)
    simpa [twoUnnamed] using isEvent
  rw [isAdd]
  exact nofun

/-- A directory that refuses every lockfile, and two testcases that come with one name. -/
theorem refused_search_panics :
    (∀ fuel, maxCtr ≤ fuel + 1 →
      (outcome (add (refusingFrom 0) fuel ⟨some (), none, ()⟩) noEntries).1 =
        .error .panicked) ∧
      ∃ added both,
        outcome (add (refusingFrom 12) 0 ⟨some (), some ⟨"corpus", "unit"⟩, ()⟩)
            noEntries = (.ok 0, added) ∧
          outcome (add (refusingFrom 12) 0 ⟨some (), some ⟨"corpus", "unit"⟩, ()⟩)
              added = (.ok 1, both) ∧
            both.memory.inner.find 0 = some storedUnit ∧
              both.memory.inner.find 1 = some storedUnit := by
  constructor
  · intro fuel enough
    let added : State Unit Unit :=
      { noEntries with
        memory :=
          { noEntries.memory with
            inner := (noEntries.memory.inner.add ⟨some (), none, ()⟩).2 } }
    have panics :
        (outcome (searchName (refusingFrom 0) "unit" fuel "unit" 2) added).1 =
          .error .panicked := by
      have overflows :=
        @searchName_overflows _ _ (refusingFrom 0) "unit" 0 fuel added (by decide)
          fun _ _ _ canLock => nomatch canLock.1
      rwa [if_pos (by omega)] at overflows
    have searches :
        outcome (searchName (refusingFrom 0) "unit" fuel "unit" 2) added =
          (.error .panicked, _) :=
      Prod.ext panics rfl
    have names :
        outcome (nameTestcase (refusingFrom 0) fuel 0) added = (.error .panicked, _) :=
      (outcome_bind_ok (outcome_borrow rfl)).trans (outcome_bind_error searches)
    have saves :
        outcome (saveTestcase (refusingFrom 0) fuel 0) added = (.error .panicked, _) :=
      outcome_bind_error names
    have adds :
        outcome (add (refusingFrom 0) fuel ⟨some (), none, ()⟩) noEntries =
          (.error .panicked, _) :=
      (outcome_bind_error saves :
        outcome
            (do
              saveTestcase (refusingFrom 0) fuel 0
              pure 0) added = _)
    rw [adds]
  · exact ⟨_, _, rfl, rfl, rfl, rfl⟩

end MeFuzz.Corpus.FailingDisk
