import MeFuzz.Entities

namespace MeFuzz.InfoDb

/-!
# The info database

The master stores here which branches the testcases of its fuzzers reach: one
global map, one map for each registered fuzzer, and the pool of seeds worth
keeping.  Every operation runs under one mutex, whose state is modelled,
because one error path does not release it.
-/

structure Fuzzer where
  id : ElementID
  configuration : FuzzerConf
  bugsFound : Nat
  totalSaveTestcaseCount : Nat
  registered : Time
  deriving Repr, DecidableEq

/-- The key under which the seed pool orders a testcase. -/
structure Seed where
  id : UInt64
  newCov : Nat
  createdAt : Time
  fuzzerID : ElementID
  crash : Bool
  deriving Repr, DecidableEq

/-- `seedCmp`; the difference of the new branches is taken in 64 bits. -/
def seedCmp (a b : Seed) : Int :=
  if a.id = b.id then 0
  else if a.crash && !b.crash then -1
  else if !a.crash && b.crash then 1
  else if a.newCov ≠ b.newCov then
    ((b.newCov : Int) - (a.newCov : Int)).bmod (2 ^ 64)
  else if a.createdAt.before b.createdAt then 1
  else -1

/--
The seed pool: the tree of seeds in iteration order, the identifiers given to
the bloom filter, and the corpus directory with the files written to it.
-/
structure SeedPool where
  seeds : List (Seed × Testcase)
  bloom : List UInt64
  corpusDir : String
  files : List (List String × Bytes)
  deriving Repr, DecidableEq

/-- What the machine does to one `os.WriteFile` of a seed. -/
structure SeedWrite where
  now : Int
  succeeds : Bool
  deriving Repr, DecidableEq

/-- The answer of the bloom filter after some identifiers were added. -/
abbrev BloomTest := List UInt64 → UInt64 → Bool

namespace SeedPool

/-- The tree's `Put`: replace an equal key, else insert where it belongs. -/
def put
    (key : Seed)
    (value : Testcase) :
    List (Seed × Testcase) → List (Seed × Testcase)
  | [] => [(key, value)]
  | entry :: rest =>
      if seedCmp key entry.1 = 0 then
        (key, value) :: rest
      else if seedCmp key entry.1 < 0 then
        (key, value) :: entry :: rest
      else
        entry :: put key value rest

/-- `HasInBloom`. -/
def hasInBloom
    (bloomTest : BloomTest)
    (pool : SeedPool)
    (id : UInt64) : Bool :=
  bloomTest pool.bloom id

/-- `AddSeed`; the second component tells whether it returned no error. -/
def addSeed
    (pool : SeedPool)
    (write : SeedWrite)
    (tc : Testcase)
    (evalData : EvaluatingData) : SeedPool × Bool :=
  if write.succeeds then
    let file :=
      ([pool.corpusDir,
          toString tc.fuzzerID.nodeID ++ "_" ++
            toString tc.fuzzerID.onNodeID,
          toString write.now ++ "_" ++ toString tc.id],
        tc.inputData)
    -- The source leaves the fuzzer of the key at its zero value.
    let key : Seed :=
      { id := tc.id
        crash := evalData.hasCrash
        newCov := evalData.newCov
        createdAt := tc.createdAt
        fuzzerID := ⟨0, 0⟩ }
    ({ pool with
        files := file :: pool.files
        bloom := pool.bloom ++ [tc.id]
        seeds := put key { tc with inputData := [] } pool.seeds }, true)
  else
    (pool, false)

end SeedPool

/-- `fuzzInfoDB`, with the state of its mutex. -/
structure FuzzInfoDB where
  seedPool : SeedPool
  generalCoverage : Branch → Bool
  muLocked : Bool
  fuzzerMap : Finmap fun _ : ElementID => Fuzzer
  covData : Finmap fun _ : ElementID => (Branch → UInt32)

/-- `New`. -/
def new (corpusDirName : String) : FuzzInfoDB where
  seedPool :=
    { seeds := [], bloom := [], corpusDir := corpusDirName, files := [] }
  generalCoverage := fun _ => false
  muLocked := false
  fuzzerMap := ∅
  covData := ∅

/-- How a call on the database ends. -/
inductive Outcome (Result : Type) where
  | returned : FuzzInfoDB → Result → Outcome Result
  | blocked : Outcome Result
  | panicked : Outcome Result

/-- `AddFuzzer`; the error path returns without unlocking the mutex. -/
def addFuzzer
    (db : FuzzInfoDB)
    (f : Fuzzer) : Outcome (Except String Unit) :=
  if db.muLocked then .blocked
  else if f.id ∈ db.fuzzerMap then
    .returned { db with muLocked := true }
      (.error ("fuzzer with id=" ++ f.id.string ++ " already exists"))
  else
    .returned
      { db with
        covData := db.covData.insert f.id (fun _ => 0)
        fuzzerMap := db.fuzzerMap.insert f.id f }
      (.ok ())

/-- `DeleteFuzzer`. -/
def deleteFuzzer
    (db : FuzzInfoDB)
    (id : ElementID) : Outcome (Except String Unit) :=
  if db.muLocked then .blocked
  else if id ∈ db.fuzzerMap then
    .returned
      { db with
        fuzzerMap := db.fuzzerMap.erase id
        covData := db.covData.erase id }
      (.ok ())
  else
    .returned db
      (.error ("fuzzer with id=" ++ id.string ++ " doesn't exist"))

/-- `AddTestcaseCoverage`. -/
def addTestcaseCoverage
    (covData : Finmap fun _ : ElementID => (Branch → UInt32))
    (fuzzerID : ElementID)
    (cov : Coverage) : Finmap fun _ : ElementID => (Branch → UInt32) :=
  match covData.lookup fuzzerID with
  | none => covData
  | some own =>
      covData.insert fuzzerID
        (fun branch => if cov branch ≠ 0 then 1 else own branch)

section CoverageLoops

-- The size of the coverage map is a parameter of its loops, so that no proof
-- ever enumerates the branches.
variable {size : Nat}

/-- The loop of `NewGeneralCov` with `remaining` rounds to go. -/
def newGeneralCovLoop
    (cov : Fin size → UInt8) :
    (remaining : Nat) → remaining ≤ size →
      (Fin size → Bool) → Nat → (Fin size → Bool) × Nat
  | 0, _, generalCoverage, res => (generalCoverage, res)
  | remaining + 1, bound, generalCoverage, res =>
      let i : Fin size := ⟨size - (remaining + 1), by omega⟩
      if cov i ≠ 0 then
        if generalCoverage i then
          newGeneralCovLoop cov remaining (by omega) generalCoverage res
        else
          newGeneralCovLoop cov remaining (by omega)
            (Function.update generalCoverage i true) (res + 1)
      else
        newGeneralCovLoop cov remaining (by omega) generalCoverage res

/-- `NewGeneralCov`: the updated map and the number of new branches. -/
def newGeneralCov
    (generalCoverage : Fin size → Bool)
    (cov : Fin size → UInt8) : (Fin size → Bool) × Nat :=
  newGeneralCovLoop cov size (Nat.le_refl size) generalCoverage 0

/-- The loop of `GetGlobalCoveragenfo` with `remaining` rounds to go. -/
def openedBranchesLoop
    (generalCoverage : Fin size → Bool) :
    (remaining : Nat) → remaining ≤ size → Nat
  | 0, _ => 0
  | remaining + 1, bound =>
      if generalCoverage ⟨size - (remaining + 1), by omega⟩ then
        openedBranchesLoop generalCoverage remaining (by omega) + 1
      else
        openedBranchesLoop generalCoverage remaining (by omega)

/-- The number of branches set in a coverage map. -/
def openedBranches (generalCoverage : Fin size → Bool) : Nat :=
  openedBranchesLoop generalCoverage size (Nat.le_refl size)

variable {remaining : Nat}

theorem visited_succ
    (bound : remaining + 1 ≤ size)
    (branch : Fin size) :
    size - (remaining + 1) ≤ branch.val ↔
      branch = ⟨size - (remaining + 1), by omega⟩ ∨
        size - remaining ≤ branch.val := by
  rw [Fin.ext_iff]
  dsimp only
  omega

theorem openedBranchesLoop_eq_ncard
    (generalCoverage : Fin size → Bool)
    (bound : remaining ≤ size) :
    openedBranchesLoop generalCoverage remaining bound =
      {branch : Fin size |
        size - remaining ≤ branch.val ∧
          generalCoverage branch = true}.ncard := by
  induction remaining with
  | zero =>
      have nothing :
          {branch : Fin size |
            size - 0 ≤ branch.val ∧ generalCoverage branch = true} = ∅ := by
        ext branch
        simp
      simp only [openedBranchesLoop, nothing, Set.ncard_empty]
  | succ remaining ih =>
      have rest := ih (by omega)
      rw [openedBranchesLoop]
      split
      · rename_i opened
        have oneMore :
            {branch : Fin size |
                size - (remaining + 1) ≤ branch.val ∧
                  generalCoverage branch = true} =
              insert ⟨size - (remaining + 1), by omega⟩
                {branch : Fin size |
                  size - remaining ≤ branch.val ∧
                    generalCoverage branch = true} := by
          ext branch
          simp only [Set.mem_ofPred_eq, Set.mem_insert_iff,
            visited_succ bound]
          constructor
          · rintro ⟨rfl | later, set⟩
            · exact .inl rfl
            · exact .inr ⟨later, set⟩
          · rintro (rfl | ⟨later, set⟩)
            · exact ⟨.inl rfl, opened⟩
            · exact ⟨.inr later, set⟩
        rw [oneMore, Set.ncard_insert_of_notMem, rest]
        simp only [Set.mem_ofPred_eq, not_and]
        omega
      · rename_i closed
        rw [rest]
        congr 1
        ext branch
        simp only [Set.mem_ofPred_eq, visited_succ bound]
        constructor
        · rintro ⟨later, set⟩
          exact ⟨.inr later, set⟩
        · rintro ⟨rfl | later, set⟩
          · exact absurd set closed
          · exact ⟨later, set⟩

theorem openedBranches_eq_ncard
    (generalCoverage : Fin size → Bool) :
    openedBranches generalCoverage =
      {branch | generalCoverage branch = true}.ncard := by
  simp [openedBranches, openedBranchesLoop_eq_ncard]

theorem openedBranches_update
    {generalCoverage : Fin size → Bool}
    {branch : Fin size}
    (fresh : generalCoverage branch = false) :
    openedBranches (Function.update generalCoverage branch true) =
      openedBranches generalCoverage + 1 := by
  have inserted :
      {other | Function.update generalCoverage branch true other = true} =
        insert branch {other | generalCoverage other = true} := by
    ext other
    by_cases same : other = branch
    · simp [same]
    · simp [same]
  rw [openedBranches_eq_ncard, openedBranches_eq_ncard, inserted,
    Set.ncard_insert_of_notMem (by simp [fresh])]

theorem newGeneralCovLoop_apply
    (cov : Fin size → UInt8)
    (bound : remaining ≤ size)
    (generalCoverage : Fin size → Bool)
    (res : Nat)
    (branch : Fin size) :
    (newGeneralCovLoop cov remaining bound generalCoverage res).1 branch =
        true ↔
      generalCoverage branch = true ∨
        size - remaining ≤ branch.val ∧ cov branch ≠ 0 := by
  induction remaining generalizing generalCoverage res with
  | zero =>
      have noneLeft : ¬ size - 0 ≤ branch.val := by omega
      simp only [newGeneralCovLoop, noneLeft, false_and, or_false]
  | succ remaining ih =>
      rw [newGeneralCovLoop, visited_succ bound]
      split
      · rename_i covered
        split
        · rename_i opened
          rw [ih]
          constructor
          · rintro (old | ⟨later, covers⟩)
            · exact .inl old
            · exact .inr ⟨.inr later, covers⟩
          · rintro (old | ⟨rfl | later, covers⟩)
            · exact .inl old
            · exact .inl opened
            · exact .inr ⟨later, covers⟩
        · rw [ih]
          by_cases same : branch = ⟨size - (remaining + 1), by omega⟩
          · subst same
            simpa using .inr covered
          · simp [same]
      · rename_i uncovered
        rw [ih]
        constructor
        · rintro (old | ⟨later, covers⟩)
          · exact .inl old
          · exact .inr ⟨.inr later, covers⟩
        · rintro (old | ⟨rfl | later, covers⟩)
          · exact .inl old
          · exact absurd covers uncovered
          · exact .inr ⟨later, covers⟩

theorem newGeneralCovLoop_count
    (cov : Fin size → UInt8)
    (bound : remaining ≤ size)
    (generalCoverage : Fin size → Bool)
    (res : Nat) :
    openedBranches
          (newGeneralCovLoop cov remaining bound generalCoverage res).1 +
        res =
      openedBranches generalCoverage +
        (newGeneralCovLoop cov remaining bound generalCoverage res).2 := by
  induction remaining generalizing generalCoverage res with
  | zero =>
      rfl
  | succ remaining ih =>
      rw [newGeneralCovLoop]
      split
      · split
        · exact ih _ _ _
        · rename_i closed
          have oneMore := openedBranches_update (by simpa using closed)
          have rest := ih (by omega)
            (Function.update generalCoverage
              ⟨size - (remaining + 1), by omega⟩ true) (res + 1)
          omega
      · exact ih _ _ _

theorem newGeneralCov_apply
    (generalCoverage : Fin size → Bool)
    (cov : Fin size → UInt8)
    (branch : Fin size) :
    (newGeneralCov generalCoverage cov).1 branch = true ↔
      generalCoverage branch = true ∨ cov branch ≠ 0 := by
  simp [newGeneralCov, newGeneralCovLoop_apply]

theorem openedBranches_newGeneralCov
    (generalCoverage : Fin size → Bool)
    (cov : Fin size → UInt8) :
    openedBranches (newGeneralCov generalCoverage cov).1 =
      openedBranches generalCoverage +
        (newGeneralCov generalCoverage cov).2 := by
  have counted :=
    newGeneralCovLoop_count cov (Nat.le_refl size) generalCoverage 0
  simpa only [newGeneralCov, Nat.add_zero] using counted

end CoverageLoops

/-- `GetGlobalCoveragenfo`. -/
def getGlobalCoverageInfo (db : FuzzInfoDB) : Nat :=
  openedBranches db.generalCoverage

/-- What `AddTestcases` does with one testcase. -/
inductive Verdict where
  | unknownFuzzer
  | alreadyExists
  | useless
  | handed (tc : Testcase) (evalData : EvaluatingData) (saved : Bool)

/--
One round of the loop of `AddTestcases`.  The result is `none` when the
testcase has no evaluation data: the index is out of range.
-/
def addTestcase
    (bloomTest : BloomTest)
    (db : FuzzInfoDB)
    (write : SeedWrite)
    (tc : Testcase)
    (evalData? : Option EvaluatingData) : Option (FuzzInfoDB × Verdict) :=
  match db.fuzzerMap.lookup tc.fuzzerID with
  | none => some (db, .unknownFuzzer)
  | some fuzzer =>
      match evalData? with
      | none => none
      | some evalData =>
          let covData :=
            addTestcaseCoverage db.covData fuzzer.id evalData.cov
          if db.seedPool.hasInBloom bloomTest tc.id then
            some ({ db with covData := covData }, .alreadyExists)
          else
            let general := newGeneralCov db.generalCoverage evalData.cov
            let evalData := { evalData with newCov := general.2 }
            if !evalData.hasCrash && evalData.newCov == 0 then
              some
                ({ db with
                    covData := covData
                    generalCoverage := general.1 }, .useless)
            else
              let fuzzer :=
                { fuzzer with
                  totalSaveTestcaseCount :=
                    fuzzer.totalSaveTestcaseCount + 1
                  bugsFound :=
                    if evalData.hasCrash then fuzzer.bugsFound + 1
                    else fuzzer.bugsFound }
              let seeded := db.seedPool.addSeed write tc evalData
              some
                ({ db with
                    covData := covData
                    generalCoverage := general.1
                    fuzzerMap := db.fuzzerMap.insert tc.fuzzerID fuzzer
                    seedPool := seeded.1 },
                  .handed tc evalData seeded.2)

/-- The loop of `AddTestcases` from index `i` on. -/
def addTestcasesFrom
    (bloomTest : BloomTest)
    (disk : Nat → SeedWrite)
    (evalDataList : List EvaluatingData)
    (i : Nat) :
    List Testcase → FuzzInfoDB → Option (FuzzInfoDB × List Verdict)
  | [], db => some (db, [])
  | tc :: rest, db =>
      match addTestcase bloomTest db (disk i) tc evalDataList[i]? with
      | none => none
      | some (next, verdict) =>
          match addTestcasesFrom bloomTest disk evalDataList (i + 1)
              rest next with
          | none => none
          | some (final, verdicts) => some (final, verdict :: verdicts)

/-- `AddTestcases`. -/
def addTestcases
    (bloomTest : BloomTest)
    (disk : Nat → SeedWrite)
    (db : FuzzInfoDB)
    (tcList : List Testcase)
    (evalDataList : List EvaluatingData) : Outcome (List Verdict) :=
  if db.muLocked then .blocked
  else
    match addTestcasesFrom bloomTest disk evalDataList 0 tcList db with
    | none => .panicked
    | some (next, verdicts) => .returned next verdicts

theorem lookup_addTestcaseCoverage_of_ne
    {covData : Finmap fun _ : ElementID => (Branch → UInt32)}
    {id fuzzerID : ElementID}
    (different : id ≠ fuzzerID)
    (cov : Coverage) :
    (addTestcaseCoverage covData fuzzerID cov).lookup id =
      covData.lookup id := by
  unfold addTestcaseCoverage
  split
  · rfl
  · rw [Finmap.lookup_insert_of_ne _ different]

theorem lookup_addTestcaseCoverage_self
    {covData : Finmap fun _ : ElementID => (Branch → UInt32)}
    {fuzzerID : ElementID}
    {own : Branch → UInt32}
    (recorded : covData.lookup fuzzerID = some own)
    (cov : Coverage) :
    (addTestcaseCoverage covData fuzzerID cov).lookup fuzzerID =
      some (fun branch => if cov branch ≠ 0 then 1 else own branch) := by
  simp [addTestcaseCoverage, recorded]

section OneTestcase

variable {bloomTest : BloomTest}
variable {db : FuzzInfoDB}
variable {write : SeedWrite}
variable {tc : Testcase}
variable {evalData : EvaluatingData}
variable {fuzzer : Fuzzer}
variable {general : (Branch → Bool) × Nat}

theorem addTestcase_unknown
    (missing : db.fuzzerMap.lookup tc.fuzzerID = none)
    (evalData? : Option EvaluatingData) :
    addTestcase bloomTest db write tc evalData? =
      some (db, .unknownFuzzer) := by
  simp [addTestcase, missing]

theorem addTestcase_known
    (found : db.fuzzerMap.lookup tc.fuzzerID = some fuzzer)
    (known : db.seedPool.hasInBloom bloomTest tc.id = true) :
    addTestcase bloomTest db write tc (some evalData) =
      some
        ({ db with
            covData :=
              addTestcaseCoverage db.covData fuzzer.id evalData.cov },
          .alreadyExists) := by
  simp only [addTestcase, found, known, if_true]

theorem addTestcase_useless
    (found : db.fuzzerMap.lookup tc.fuzzerID = some fuzzer)
    (unseen : db.seedPool.hasInBloom bloomTest tc.id = false)
    (opened : newGeneralCov db.generalCoverage evalData.cov = general)
    (useless : (!evalData.hasCrash && general.2 == 0) = true) :
    addTestcase bloomTest db write tc (some evalData) =
      some
        ({ db with
            covData :=
              addTestcaseCoverage db.covData fuzzer.id evalData.cov
            generalCoverage := general.1 },
          .useless) := by
  simp only [addTestcase, found, unseen, opened, useless, if_true,
    Bool.false_eq_true, if_false]

theorem addTestcase_handed
    (write : SeedWrite)
    (found : db.fuzzerMap.lookup tc.fuzzerID = some fuzzer)
    (unseen : db.seedPool.hasInBloom bloomTest tc.id = false)
    (opened : newGeneralCov db.generalCoverage evalData.cov = general)
    (useful : (!evalData.hasCrash && general.2 == 0) = false) :
    ∃ counted : Fuzzer,
      counted.id = fuzzer.id ∧
        addTestcase bloomTest db write tc (some evalData) =
          some
            ({ db with
                covData :=
                  addTestcaseCoverage db.covData fuzzer.id evalData.cov
                generalCoverage := general.1
                fuzzerMap := db.fuzzerMap.insert tc.fuzzerID counted
                seedPool :=
                  (db.seedPool.addSeed write tc
                    { evalData with newCov := general.2 }).1 },
              .handed tc { evalData with newCov := general.2 }
                (db.seedPool.addSeed write tc
                  { evalData with newCov := general.2 }).2) := by
  refine ⟨{ fuzzer with
      totalSaveTestcaseCount := fuzzer.totalSaveTestcaseCount + 1
      bugsFound :=
        if evalData.hasCrash then fuzzer.bugsFound + 1
        else fuzzer.bugsFound }, rfl, ?_⟩
  simp only [addTestcase, found, unseen, opened, useful,
    Bool.false_eq_true, if_false]

theorem addTestcase_eq_none
    {evalData? : Option EvaluatingData} :
    addTestcase bloomTest db write tc evalData? = none ↔
      tc.fuzzerID ∈ db.fuzzerMap ∧ evalData? = none := by
  cases found : db.fuzzerMap.lookup tc.fuzzerID with
  | none =>
      rw [addTestcase_unknown found]
      simp [Finmap.lookup_eq_none.mp found]
  | some fuzzer =>
      have registered := Finmap.mem_of_lookup_eq_some found
      cases evalData? with
      | none =>
          simp [addTestcase, found, registered]
      | some evalData =>
          cases known : db.seedPool.hasInBloom bloomTest tc.id with
          | true =>
              simp [addTestcase_known found known]
          | false =>
              cases useless : !evalData.hasCrash &&
                  (newGeneralCov db.generalCoverage evalData.cov).2 == 0 with
              | true =>
                  simp [addTestcase_useless found known rfl useless]
              | false =>
                  obtain ⟨counted, _, handed⟩ :=
                    addTestcase_handed write found known rfl useless
                  simp [handed]

variable {evalData? : Option EvaluatingData}
variable {next : FuzzInfoDB}

/--
A round skips a testcase of an unknown fuzzer; for any other it needs the
evaluation data, and either only looks at them or hands the testcase over.
-/
theorem addTestcase_cases
    {verdict : Verdict}
    (taken :
      addTestcase bloomTest db write tc evalData? = some (next, verdict)) :
    (next = db ∧ verdict = .unknownFuzzer) ∨
      ∃ evalData,
        evalData? = some evalData ∧ tc.fuzzerID ∈ db.fuzzerMap ∧
          ((next.fuzzerMap = db.fuzzerMap ∧
              (verdict = .alreadyExists ∨ verdict = .useless)) ∨
            ∃ counted newCov saved,
              next.fuzzerMap =
                  db.fuzzerMap.insert tc.fuzzerID counted ∧
                verdict =
                  .handed tc { evalData with newCov := newCov } saved) := by
  cases found : db.fuzzerMap.lookup tc.fuzzerID with
  | none =>
      rw [addTestcase_unknown found] at taken
      cases taken
      exact .inl ⟨rfl, rfl⟩
  | some fuzzer =>
      have registered := Finmap.mem_of_lookup_eq_some found
      cases evalData? with
      | none =>
          rw [addTestcase_eq_none.mpr ⟨registered, rfl⟩] at taken
          cases taken
      | some evalData =>
          refine .inr ⟨evalData, rfl, registered, ?_⟩
          cases known : db.seedPool.hasInBloom bloomTest tc.id with
          | true =>
              rw [addTestcase_known found known] at taken
              cases taken
              exact .inl ⟨rfl, .inl rfl⟩
          | false =>
              cases useless : !evalData.hasCrash &&
                  (newGeneralCov db.generalCoverage evalData.cov).2 == 0 with
              | true =>
                  rw [addTestcase_useless found known rfl useless] at taken
                  cases taken
                  exact .inl ⟨rfl, .inr rfl⟩
              | false =>
                  obtain ⟨counted, _, handed⟩ :=
                    addTestcase_handed write found known rfl useless
                  rw [handed] at taken
                  cases taken
                  exact .inr ⟨counted, _, _, rfl, rfl⟩

theorem addTestcase_fuzzers
    {verdict : Verdict}
    (taken :
      addTestcase bloomTest db write tc evalData? = some (next, verdict))
    (id : ElementID) :
    id ∈ next.fuzzerMap ↔ id ∈ db.fuzzerMap := by
  rcases addTestcase_cases taken with
    ⟨rfl, _⟩ | ⟨_, _, registered, ⟨same, _⟩ | ⟨_, _, _, inserted, _⟩⟩
  · rfl
  · rw [same]
  · rw [inserted, Finmap.mem_insert]
    constructor
    · rintro (rfl | old)
      · exact registered
      · exact old
    · exact .inr

theorem addTestcase_pairs
    {kept : Testcase}
    {keptData : EvaluatingData}
    {saved : Bool}
    (taken :
      addTestcase bloomTest db write tc evalData? =
        some (next, .handed kept keptData saved)) :
    kept = tc ∧
      ∃ evalData,
        evalData? = some evalData ∧ keptData.cov = evalData.cov ∧
          keptData.hasCrash = evalData.hasCrash := by
  rcases addTestcase_cases taken with
    ⟨_, other⟩ | ⟨evalData, given, _, ⟨_, other | other⟩ |
      ⟨_, _, _, _, handed⟩⟩
  · cases other
  · cases other
  · cases other
  · cases handed
    exact ⟨rfl, evalData, given, rfl, rfl⟩

end OneTestcase

section Batch

variable {bloomTest : BloomTest}
variable {disk : Nat → SeedWrite}
variable {evalDataList : List EvaluatingData}

/--
The loop runs out of evaluation data exactly if a testcase of a registered
fuzzer has none at its index.
-/
theorem addTestcasesFrom_eq_none
    {i : Nat}
    {tcList : List Testcase}
    {db : FuzzInfoDB} :
    addTestcasesFrom bloomTest disk evalDataList i tcList db = none ↔
      ∃ offset tc,
        tcList[offset]? = some tc ∧ tc.fuzzerID ∈ db.fuzzerMap ∧
          evalDataList.length ≤ i + offset := by
  induction tcList generalizing i db with
  | nil =>
      simp [addTestcasesFrom]
  | cons tc rest ih =>
      rw [addTestcasesFrom]
      cases taken :
          addTestcase bloomTest db (disk i) tc evalDataList[i]? with
      | none =>
          obtain ⟨registered, missing⟩ := addTestcase_eq_none.mp taken
          simp only [true_iff]
          exact ⟨0, tc, rfl, registered,
            List.getElem?_eq_none_iff.mp missing⟩
      | some result =>
          obtain ⟨next, verdict⟩ := result
          have rounds :
              addTestcasesFrom bloomTest disk evalDataList (i + 1) rest
                  next = none ↔
                ∃ offset later,
                  rest[offset]? = some later ∧
                    later.fuzzerID ∈ db.fuzzerMap ∧
                    evalDataList.length ≤ i + 1 + offset := by
            simpa only [addTestcase_fuzzers taken] using
              @ih (i + 1) next
          have unchanged :
              (match addTestcasesFrom bloomTest disk evalDataList (i + 1)
                  rest next with
                | none => none
                | some (final, verdicts) =>
                    some (final, verdict :: verdicts)) = none ↔
                addTestcasesFrom bloomTest disk evalDataList (i + 1) rest
                  next = none := by
            split <;> simp_all
          dsimp only
          rw [unchanged, rounds]
          constructor
          · rintro ⟨offset, later, at_, registered, missing⟩
            exact ⟨offset + 1, later, by simpa using at_, registered,
              by omega⟩
          · rintro ⟨offset, later, at_, registered, missing⟩
            cases offset with
            | zero =>
                obtain rfl : tc = later := by simpa using at_
                rw [Nat.add_zero] at missing
                rw [addTestcase_eq_none.mpr ⟨registered,
                  List.getElem?_eq_none_iff.mpr missing⟩] at taken
                cases taken
            | succ offset =>
                exact ⟨offset, later, by simpa using at_, registered,
                  by omega⟩

theorem addTestcasesFrom_pairs
    {i : Nat}
    {tcList : List Testcase}
    {db next : FuzzInfoDB}
    {verdicts : List Verdict}
    (rounds :
      addTestcasesFrom bloomTest disk evalDataList i tcList db =
        some (next, verdicts))
    {offset : Nat}
    {kept : Testcase}
    {keptData : EvaluatingData}
    {saved : Bool}
    (handed : verdicts[offset]? = some (.handed kept keptData saved)) :
    tcList[offset]? = some kept ∧
      ∃ evalData,
        evalDataList[i + offset]? = some evalData ∧
          keptData.cov = evalData.cov ∧
          keptData.hasCrash = evalData.hasCrash := by
  induction tcList generalizing i db verdicts offset with
  | nil =>
      simp only [addTestcasesFrom, Option.some.injEq,
        Prod.mk.injEq] at rounds
      rw [← rounds.2] at handed
      simp at handed
  | cons tc rest ih =>
      rw [addTestcasesFrom] at rounds
      cases taken :
          addTestcase bloomTest db (disk i) tc evalDataList[i]? with
      | none =>
          rw [taken] at rounds
          cases rounds
      | some result =>
          obtain ⟨middle, verdict⟩ := result
          rw [taken] at rounds
          dsimp only at rounds
          split at rounds
          · cases rounds
          · rename_i later laterRounds
            simp only [Option.some.injEq, Prod.mk.injEq] at rounds
            obtain ⟨rfl, rfl⟩ := rounds
            cases offset with
            | zero =>
                obtain rfl : verdict = .handed kept keptData saved := by
                  simpa using handed
                obtain ⟨rfl, paired⟩ := addTestcase_pairs taken
                exact ⟨rfl, paired⟩
            | succ offset =>
                have paired :=
                  ih laterRounds (by simpa using handed)
                rw [Nat.add_right_comm i 1 offset] at paired
                exact paired

end Batch

theorem SeedPool.mem_bloom_addSeed
    {pool : SeedPool}
    {write : SeedWrite}
    {tc : Testcase}
    {evalData : EvaluatingData}
    {id : UInt64}
    (member : id ∈ (pool.addSeed write tc evalData).1.bloom) :
    id ∈ pool.bloom ∨ id = tc.id := by
  unfold SeedPool.addSeed at member
  split at member
  · simpa using member
  · exact .inl member

end MeFuzz.InfoDb
