import MeFuzz.InfoDbState
import MeFuzz.TransitionRun

namespace MeFuzz.InfoDb

/-!
# Consistency of the info database

Between two calls the mutex of the database is free, and the registered
fuzzers are those that have a coverage record.  One error path does not get
there: adding a fuzzer that is already registered.
-/

/-- A call on the database. -/
inductive Call where
  | addFuzzer (f : Fuzzer)
  | addTestcases
      (tcList : List Testcase)
      (evalDataList : List EvaluatingData)
      (disk : Nat → SeedWrite)
  | deleteFuzzer (id : ElementID)

/-- A call that returns, with or without an error. -/
inductive Step (bloomTest : BloomTest) :
    StepRelation FuzzInfoDB Call where
  | addFuzzer
      {db next : FuzzInfoDB}
      {f : Fuzzer}
      {result : Except String Unit} :
      addFuzzer db f = .returned next result →
      Step bloomTest db (.addFuzzer f) next
  | addTestcases
      {db next : FuzzInfoDB}
      {tcList : List Testcase}
      {evalDataList : List EvaluatingData}
      {disk : Nat → SeedWrite}
      {verdicts : List Verdict} :
      addTestcases bloomTest disk db tcList evalDataList =
        .returned next verdicts →
      Step bloomTest db (.addTestcases tcList evalDataList disk) next
  | deleteFuzzer
      {db next : FuzzInfoDB}
      {id : ElementID}
      {result : Except String Unit} :
      deleteFuzzer db id = .returned next result →
      Step bloomTest db (.deleteFuzzer id) next

/-- The mutex is free, and both maps have the same keys. -/
def Consistent (db : FuzzInfoDB) : Prop :=
  db.muLocked = false ∧ ∀ id, id ∈ db.fuzzerMap ↔ id ∈ db.covData

/-- A fuzzer that is added is not registered yet. -/
def AddsUnregistered (db : FuzzInfoDB) : Call → Prop
  | .addFuzzer f => f.id ∉ db.fuzzerMap
  | .addTestcases _ _ _ => True
  | .deleteFuzzer _ => True

theorem mem_addTestcaseCoverage
    {covData : Finmap fun _ : ElementID => (Branch → UInt32)}
    {fuzzerID id : ElementID}
    (cov : Coverage) :
    id ∈ addTestcaseCoverage covData fuzzerID cov ↔ id ∈ covData := by
  unfold addTestcaseCoverage
  split
  · rfl
  · rename_i own recorded
    rw [Finmap.mem_insert]
    constructor
    · rintro (rfl | old)
      · exact Finmap.mem_of_lookup_eq_some recorded
      · exact old
    · exact .inr

theorem addTestcase_records
    {bloomTest : BloomTest}
    {db next : FuzzInfoDB}
    {write : SeedWrite}
    {tc : Testcase}
    {evalData? : Option EvaluatingData}
    {verdict : Verdict}
    (taken :
      addTestcase bloomTest db write tc evalData? = some (next, verdict)) :
    next.muLocked = db.muLocked ∧
      ∀ id, id ∈ next.covData ↔ id ∈ db.covData := by
  cases found : db.fuzzerMap.lookup tc.fuzzerID with
  | none =>
      rw [addTestcase_unknown found] at taken
      cases taken
      exact ⟨rfl, fun _ => Iff.rfl⟩
  | some fuzzer =>
      cases evalData? with
      | none =>
          rw [addTestcase_eq_none.mpr
            ⟨Finmap.mem_of_lookup_eq_some found, rfl⟩] at taken
          cases taken
      | some evalData =>
          cases known : db.seedPool.hasInBloom bloomTest tc.id with
          | true =>
              rw [addTestcase_known found known] at taken
              cases taken
              exact ⟨rfl, fun _ => mem_addTestcaseCoverage _⟩
          | false =>
              cases useless : !evalData.hasCrash &&
                  (newGeneralCov db.generalCoverage evalData.cov).2 == 0 with
              | true =>
                  rw [addTestcase_useless found known rfl useless] at taken
                  cases taken
                  exact ⟨rfl, fun _ => mem_addTestcaseCoverage _⟩
              | false =>
                  obtain ⟨counted, _, handed⟩ :=
                    addTestcase_handed write found known rfl useless
                  rw [handed] at taken
                  cases taken
                  exact ⟨rfl, fun _ => mem_addTestcaseCoverage _⟩

theorem addTestcasesFrom_consistent
    {bloomTest : BloomTest}
    {disk : Nat → SeedWrite}
    {evalDataList : List EvaluatingData}
    {i : Nat}
    {tcList : List Testcase}
    {db next : FuzzInfoDB}
    {verdicts : List Verdict}
    (consistent : Consistent db)
    (rounds :
      addTestcasesFrom bloomTest disk evalDataList i tcList db =
        some (next, verdicts)) :
    Consistent next := by
  induction tcList generalizing i db verdicts with
  | nil =>
      cases rounds
      exact consistent
  | cons tc rest ih =>
      rw [addTestcasesFrom] at rounds
      cases taken :
          addTestcase bloomTest db (disk i) tc evalDataList[i]? with
      | none =>
          rw [taken] at rounds
          cases rounds
      | some result =>
          obtain ⟨middle, verdict⟩ := result
          rw [taken] at rounds
          obtain ⟨mutex, records⟩ := addTestcase_records taken
          have middleConsistent : Consistent middle :=
            ⟨mutex.trans consistent.1, fun id =>
              (addTestcase_fuzzers taken id).trans
                ((consistent.2 id).trans (records id).symm)⟩
          dsimp only at rounds
          split at rounds
          · cases rounds
          · rename_i laterRounds
            cases rounds
            exact ih middleConsistent laterRounds

theorem addFuzzer_unregistered
    {db : FuzzInfoDB}
    {f : Fuzzer}
    (unlocked : db.muLocked = false)
    (unregistered : f.id ∉ db.fuzzerMap) :
    addFuzzer db f =
      .returned
        { db with
          covData := db.covData.insert f.id fun _ => 0
          fuzzerMap := db.fuzzerMap.insert f.id f }
        (.ok ()) := by
  unfold addFuzzer
  rw [unlocked, if_neg Bool.false_ne_true, if_neg unregistered]

/-- A fuzzer that is registered is refused, and the mutex stays locked. -/
theorem addFuzzer_registered
    {db : FuzzInfoDB}
    {f : Fuzzer}
    (unlocked : db.muLocked = false)
    (registered : f.id ∈ db.fuzzerMap) :
    addFuzzer db f =
      .returned { db with muLocked := true }
        (.error ("fuzzer with id=" ++ f.id.string ++ " already exists")) := by
  unfold addFuzzer
  rw [unlocked, if_neg Bool.false_ne_true, if_pos registered]

theorem step_consistent_iff
    {bloomTest : BloomTest}
    {db next : FuzzInfoDB}
    {call : Call}
    (consistent : Consistent db)
    (taken : Step bloomTest db call next) :
    Consistent next ↔ AddsUnregistered db call := by
  obtain ⟨unlocked, keys⟩ := consistent
  cases taken with
  | @addFuzzer _ _ f _ returned =>
      by_cases registered : f.id ∈ db.fuzzerMap
      · rw [addFuzzer_registered unlocked registered] at returned
        cases returned
        exact ⟨fun locked => Bool.noConfusion locked.1,
          fun unregistered => absurd registered unregistered⟩
      · rw [addFuzzer_unregistered unlocked registered] at returned
        cases returned
        refine ⟨fun _ => registered, fun _ => ⟨unlocked, fun id => ?_⟩⟩
        rw [Finmap.mem_insert, Finmap.mem_insert, keys id]
  | addTestcases returned =>
      simp only [addTestcases, unlocked, Bool.false_eq_true, if_false]
        at returned
      split at returned
      · cases returned
      · rename_i rounds
        cases returned
        exact ⟨fun _ => trivial, fun _ =>
          addTestcasesFrom_consistent ⟨unlocked, keys⟩ rounds⟩
  | deleteFuzzer returned =>
      simp only [deleteFuzzer, unlocked, Bool.false_eq_true, if_false]
        at returned
      split at returned
      · cases returned
        refine ⟨fun _ => trivial, fun _ => ⟨rfl, fun other => ?_⟩⟩
        rw [Finmap.mem_erase, Finmap.mem_erase, keys other]
      · cases returned
        exact ⟨fun _ => trivial, fun _ => ⟨unlocked, keys⟩⟩

theorem new_consistent (corpusDirName : String) :
    Consistent (new corpusDirName) :=
  ⟨rfl, fun _ => Iff.rfl⟩

/--
Along every sequence of calls, each call leaves the database consistent exactly
if no fuzzer is added while it is registered.
-/
theorem always_consistent_iff
    (bloomTest : BloomTest)
    (corpusDirName : String)
    (calls : List Call) :
    Run.Always (Step bloomTest) Consistent (new corpusDirName) calls ↔
      Run.Everywhere (Step bloomTest) AddsUnregistered (new corpusDirName)
        calls :=
  @Run.always_iff_everywhere _ _ _ Consistent AddsUnregistered
    (fun consistent taken => step_consistent_iff consistent taken)
    _ (new_consistent corpusDirName) calls

/-- A fuzzer of the first node. -/
def sampleFuzzer : Fuzzer where
  id := ⟨1, 1⟩
  configuration :=
    { mutatorID := ""
      scheduleID := ""
      poolID := ""
      isHavoc := false
      isConcolic := false
      forkMode := false }
  bugsFound := 0
  totalSaveTestcaseCount := 0
  registered := ⟨0, 0⟩

/-- The second of two equal calls returns an error and leaves the mutex locked. -/
theorem duplicate_leaves_mutex_locked :
    ∃ (bloomTest : BloomTest) (first second : FuzzInfoDB) (text : String),
      addFuzzer (new "corpus") sampleFuzzer = .returned first (.ok ()) ∧
        addFuzzer first sampleFuzzer = .returned second (.error text) ∧
        Run (Step bloomTest) (new "corpus")
          [.addFuzzer sampleFuzzer, .addFuzzer sampleFuzzer] second ∧
        ¬Consistent second := by
  have unknown : sampleFuzzer.id ∉ (new "corpus").fuzzerMap :=
    Finmap.notMem_empty
  have known :
      sampleFuzzer.id ∈
        (new "corpus").fuzzerMap.insert sampleFuzzer.id sampleFuzzer :=
    Finmap.mem_insert.mpr (.inl rfl)
  have firstCall := addFuzzer_unregistered rfl unknown
  have secondCall :=
    @addFuzzer_registered
      { new "corpus" with
        covData := (new "corpus").covData.insert sampleFuzzer.id fun _ => 0
        fuzzerMap :=
          (new "corpus").fuzzerMap.insert sampleFuzzer.id sampleFuzzer }
      sampleFuzzer rfl known
  exact ⟨fun _ _ => false, _, _, _, firstCall, secondCall,
    .cons (.addFuzzer firstCall) (.single (.addFuzzer secondCall)),
    fun consistent => Bool.noConfusion consistent.1⟩

end MeFuzz.InfoDb
