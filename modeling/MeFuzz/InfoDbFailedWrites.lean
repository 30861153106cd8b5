import MeFuzz.InfoDbState

namespace MeFuzz.InfoDb

/-!
# Testcases whose input cannot be written

A testcase is counted, and its coverage taken over, before its input is written
to the disk; an error of the write is only reported.  The reference that this is
compared with takes everything back that a failed testcase has done.
-/

/-- A round in which a failed write leaves only the coverage of the fuzzer behind. -/
def addTestcaseOrNothing
    (bloomTest : BloomTest)
    (db : FuzzInfoDB)
    (write : SeedWrite)
    (tc : Testcase)
    (evalData? : Option EvaluatingData) : Option (FuzzInfoDB × Verdict) :=
  match addTestcase bloomTest db write tc evalData? with
  | some (next, .handed tc evalData false) =>
      some ({ db with covData := next.covData }, .handed tc evalData false)
  | other => other

/-- Such rounds, one after the other. -/
def addTestcasesOrNothing
    (bloomTest : BloomTest)
    (disk : Nat → SeedWrite)
    (evalDataList : List EvaluatingData)
    (i : Nat) :
    List Testcase → FuzzInfoDB → Option (FuzzInfoDB × List Verdict)
  | [], db => some (db, [])
  | tc :: rest, db =>
      match addTestcaseOrNothing bloomTest db (disk i) tc evalDataList[i]? with
      | none => none
      | some (next, verdict) =>
          match addTestcasesOrNothing bloomTest disk evalDataList (i + 1)
              rest next with
          | none => none
          | some (final, verdicts) => some (final, verdict :: verdicts)

/-- The write of this testcase was tried and failed. -/
def Verdict.Failed : Verdict → Prop
  | .handed _ _ false => True
  | _ => False

/--
The general coverage, the counters of the fuzzers, and the stored seeds are as
if no testcase had been seen whose write failed.
-/
def AsIfNotSeen
    (bloomTest : BloomTest)
    (disk : Nat → SeedWrite)
    (db next : FuzzInfoDB)
    (tcList : List Testcase)
    (evalDataList : List EvaluatingData) : Prop :=
  ∃ reference verdicts,
    addTestcasesOrNothing bloomTest disk evalDataList 0 tcList db =
        some (reference, verdicts) ∧
      next.generalCoverage = reference.generalCoverage ∧
      next.fuzzerMap = reference.fuzzerMap ∧
      next.seedPool = reference.seedPool

/-- The fuzzers whose testcases were handed to the pool. -/
def handedBy (verdicts : List Verdict) : List ElementID :=
  verdicts.filterMap fun
    | .handed tc _ _ => some tc.fuzzerID
    | _ => none

/-- The fuzzers whose testcases were stored. -/
def savedBy (verdicts : List Verdict) : List ElementID :=
  verdicts.filterMap fun
    | .handed tc _ true => some tc.fuzzerID
    | _ => none

/-- The counter of a fuzzer, if it is registered. -/
def savedCount (db : FuzzInfoDB) (id : ElementID) : Nat :=
  ((db.fuzzerMap.lookup id).map Fuzzer.totalSaveTestcaseCount).getD 0

section

variable {bloomTest : BloomTest}
variable {disk : Nat → SeedWrite}

variable {db next : FuzzInfoDB}
variable {tc : Testcase}
variable {write : SeedWrite}

theorem addTestcase_counts
    {evalData? : Option EvaluatingData}
    {verdict : Verdict}
    (taken :
      addTestcase bloomTest db write tc evalData? = some (next, verdict)) :
    (∀ id,
        savedCount next id =
          savedCount db id + (handedBy [verdict]).count id) ∧
      next.seedPool.files.length =
        db.seedPool.files.length + (savedBy [verdict]).length := by
  unfold addTestcase at taken
  split at taken
  · cases taken
    exact ⟨fun _ => rfl, rfl⟩
  · rename_i fuzzer found
    split at taken
    · cases taken
    · rename_i evalData
      dsimp only at taken
      split at taken
      · cases taken
        exact ⟨fun _ => rfl, rfl⟩
      · split at taken
        · cases taken
          exact ⟨fun _ => rfl, rfl⟩
        · cases taken
          constructor
          · intro id
            by_cases same : id = tc.fuzzerID
            · subst same
              simp [savedCount, handedBy, found]
            · simp [savedCount, handedBy, Finmap.lookup_insert_of_ne _ same,
                Ne.symm same]
          · unfold SeedPool.addSeed
            split
            · simp [savedBy]
            · simp [savedBy]

theorem addTestcaseOrNothing_counts
    {evalData? : Option EvaluatingData}
    {verdict : Verdict}
    (taken :
      addTestcaseOrNothing bloomTest db write tc evalData? =
        some (next, verdict)) :
    (∀ id,
        savedCount next id =
          savedCount db id + (savedBy [verdict]).count id) ∧
      next.seedPool.files.length =
        db.seedPool.files.length + (savedBy [verdict]).length := by
  unfold addTestcaseOrNothing at taken
  split at taken
  · cases taken
    exact ⟨fun _ => rfl, rfl⟩
  · rename_i notFailed
    have counts := addTestcase_counts taken
    refine ⟨?_, counts.2⟩
    have sameFuzzers : handedBy [verdict] = savedBy [verdict] := by
      cases verdict with
      | handed tc evalData saved =>
          cases saved with
          | false =>
              exact absurd taken (notFailed next tc evalData)
          | true =>
              rfl
      | _ => rfl
    rw [← sameFuzzers]
    exact counts.1

theorem handedBy_cons
    (verdict : Verdict)
    (rest : List Verdict) :
    handedBy (verdict :: rest) = handedBy [verdict] ++ handedBy rest := by
  rw [handedBy, ← List.singleton_append, List.filterMap_append]
  rfl

theorem savedBy_cons
    (verdict : Verdict)
    (rest : List Verdict) :
    savedBy (verdict :: rest) = savedBy [verdict] ++ savedBy rest := by
  rw [savedBy, ← List.singleton_append, List.filterMap_append]
  rfl

variable {verdicts : List Verdict}
variable {evalDataList : List EvaluatingData}
variable {tcList : List Testcase}

theorem addTestcasesFrom_counts
    {i : Nat}
    (ran :
      addTestcasesFrom bloomTest disk evalDataList i tcList db =
        some (next, verdicts)) :
    (∀ id,
        savedCount next id =
          savedCount db id + (handedBy verdicts).count id) ∧
      next.seedPool.files.length =
        db.seedPool.files.length + (savedBy verdicts).length := by
  induction tcList generalizing i db verdicts with
  | nil =>
      cases ran
      exact ⟨fun _ => rfl, rfl⟩
  | cons tc rest ih =>
      unfold addTestcasesFrom at ran
      split at ran
      · cases ran
      · rename_i middle verdict taken
        split at ran
        · cases ran
        · rename_i later further
          cases ran
          have first := addTestcase_counts taken
          have second := ih further
          constructor
          · intro id
            rw [second.1, first.1, handedBy_cons verdict later, List.count_append,
              Nat.add_assoc]
          · rw [second.2, first.2, savedBy_cons verdict later, List.length_append,
              Nat.add_assoc]

theorem addTestcasesOrNothing_counts
    {i : Nat}
    (ran :
      addTestcasesOrNothing bloomTest disk evalDataList i tcList db =
        some (next, verdicts)) :
    (∀ id,
        savedCount next id =
          savedCount db id + (savedBy verdicts).count id) ∧
      next.seedPool.files.length =
        db.seedPool.files.length + (savedBy verdicts).length := by
  induction tcList generalizing i db verdicts with
  | nil =>
      cases ran
      exact ⟨fun _ => rfl, rfl⟩
  | cons tc rest ih =>
      unfold addTestcasesOrNothing at ran
      split at ran
      · cases ran
      · rename_i middle verdict taken
        split at ran
        · cases ran
        · rename_i later further
          cases ran
          have first := addTestcaseOrNothing_counts taken
          have second := ih further
          constructor
          · intro id
            rw [second.1, first.1, savedBy_cons verdict later, List.count_append,
              Nat.add_assoc]
          · rw [second.2, first.2, savedBy_cons verdict later, List.length_append,
              Nat.add_assoc]

theorem savedBy_lt_handedBy
    (failed : ∃ verdict ∈ verdicts, verdict.Failed) :
    (savedBy verdicts).length < (handedBy verdicts).length := by
  have atMost : ∀ verdicts : List Verdict,
      (savedBy verdicts).length ≤ (handedBy verdicts).length := by
    intro verdicts
    induction verdicts with
    | nil =>
        exact Nat.le_refl _
    | cons verdict rest ih =>
        rw [savedBy_cons verdict rest, handedBy_cons verdict rest,
          List.length_append, List.length_append]
        have first :
            (savedBy [verdict]).length ≤ (handedBy [verdict]).length := by
          rcases verdict with _ | _ | _ | ⟨_, _, _ | _⟩ <;>
            simp [savedBy, handedBy]
        omega
  obtain ⟨verdict, isIn, isFailed⟩ := failed
  obtain ⟨before, after, rfl⟩ := List.append_of_mem isIn
  rcases verdict with _ | _ | _ | ⟨tc, evalData, _ | _⟩
  · cases isFailed
  · cases isFailed
  · cases isFailed
  · have beforeAtMost := atMost before
    have afterAtMost := atMost after
    simp only [savedBy, handedBy, List.filterMap_append, List.filterMap_cons,
      List.length_append, List.length_cons] at beforeAtMost afterAtMost ⊢
    omega
  · cases isFailed

theorem not_asIfNotSeen
    (looped :
      addTestcasesFrom bloomTest disk evalDataList 0 tcList db =
        some (next, verdicts))
    (failed : ∃ verdict ∈ verdicts, verdict.Failed) :
    ¬AsIfNotSeen bloomTest disk db next tcList evalDataList := by
  rintro ⟨reference, saved, ranReference, -, sameFuzzers, sameSeeds⟩
  have counted := addTestcasesFrom_counts looped
  have expected := addTestcasesOrNothing_counts ranReference
  have sameCounts : (handedBy verdicts).Perm (savedBy saved) := by
    rw [List.perm_iff_count]
    intro id
    have sameCount : savedCount next id = savedCount reference id := by
      rw [savedCount, sameFuzzers, savedCount]
    have handed := counted.1 id
    have isSaved := expected.1 id
    omega
  have sameLength := sameCounts.length_eq
  have handed := counted.2
  have isSaved := expected.2
  have fewer := savedBy_lt_handedBy failed
  rw [sameSeeds] at handed
  omega

theorem addTestcases_returned
    (ran :
      addTestcases bloomTest disk db tcList evalDataList =
        .returned next verdicts) :
    addTestcasesFrom bloomTest disk evalDataList 0 tcList db =
      some (next, verdicts) := by
  unfold addTestcases at ran
  split at ran
  · cases ran
  · split at ran
    · cases ran
    · rename_i looped
      cases ran
      exact looped

theorem newGeneralCov_fresh
    {size : Nat}
    {generalCoverage : Fin size → Bool}
    {cov : Fin size → UInt8}
    {branch : Fin size}
    (fresh : generalCoverage branch = false)
    (covered : cov branch ≠ 0) :
    (newGeneralCov generalCoverage cov).2 ≠ 0 := by
  intro noneNew
  have counted := openedBranches_newGeneralCov generalCoverage cov
  rw [noneNew, openedBranches_eq_ncard, openedBranches_eq_ncard] at counted
  have more :
      {other | generalCoverage other = true}.ncard <
        {other |
          (newGeneralCov generalCoverage cov).1 other = true}.ncard := by
    refine Set.ncard_lt_ncard ⟨fun other isSet =>
      (newGeneralCov_apply generalCoverage cov other).mpr (.inl isSet), ?_⟩
      (Set.toFinite _)
    intro atMost
    have isSet : generalCoverage branch = true :=
      atMost ((newGeneralCov_apply generalCoverage cov branch).mpr
        (.inr covered))
    rw [fresh] at isSet
    cases isSet
  omega

theorem newGeneralCov_again
    {size : Nat}
    (generalCoverage : Fin size → Bool)
    (cov : Fin size → UInt8) :
    (newGeneralCov (newGeneralCov generalCoverage cov).1 cov).2 = 0 := by
  have counted :=
    openedBranches_newGeneralCov (newGeneralCov generalCoverage cov).1 cov
  have same :
      (newGeneralCov (newGeneralCov generalCoverage cov).1 cov).1 =
        (newGeneralCov generalCoverage cov).1 := by
    funext branch
    rw [Bool.eq_iff_iff, newGeneralCov_apply, newGeneralCov_apply]
    constructor
    · rintro (isSet | covered)
      · exact isSet
      · exact .inr covered
    · exact .inl
  rw [same] at counted
  omega

theorem resent_is_useless
    {evalData handed : EvaluatingData}
    (taken :
      addTestcase bloomTest db write tc (some evalData) =
        some (next, .handed tc handed false))
    (noCrash : evalData.hasCrash = false)
    (again : SeedWrite) :
    ∃ after,
      addTestcase bloomTest next again tc (some evalData) =
        some (after, .useless) := by
  unfold addTestcase at taken
  split at taken
  · cases taken
  · rename_i fuzzer found
    dsimp only at taken
    split at taken
    · cases taken
    · rename_i unseen
      split at taken
      · cases taken
      · obtain ⟨isNext, isVerdict⟩ := Prod.mk.inj (Option.some.inj taken)
        injection isVerdict with _ _ notSaved
        subst isNext
        have samePool : ∀ evalData : EvaluatingData,
            (db.seedPool.addSeed write tc evalData).2 = false →
              (db.seedPool.addSeed write tc evalData).1 = db.seedPool := by
          intro evalData
          unfold SeedPool.addSeed
          split
          · intro saved
            cases saved
          · intro _
            rfl
        refine ⟨_, addTestcase_useless (Finmap.lookup_insert _) ?_ rfl ?_⟩
        · simp only [samePool _ notSaved]
          exact Bool.eq_false_iff.mpr unseen
        · simp [noCrash, newGeneralCov_again]

theorem addTestcases_pair
    {disk : Nat → SeedWrite}
    {db middle next : FuzzInfoDB}
    {evalData : EvaluatingData}
    {first second : Verdict}
    (unlocked : db.muLocked = false)
    (once :
      addTestcase bloomTest db (disk 0) tc (some evalData) =
        some (middle, first))
    (twice :
      addTestcase bloomTest middle (disk 1) tc (some evalData) =
        some (next, second)) :
    addTestcases bloomTest disk db [tc, tc] [evalData, evalData] =
      .returned next [first, second] := by
  simp [addTestcases, addTestcasesFrom, unlocked, once, twice]

end

/-- The first fuzzer of node 1. -/
def oneFuzzer : Fuzzer :=
  ⟨⟨1, 1⟩, ⟨"m", "s", "p", true, false, true⟩, 0, 0, ⟨0, 0⟩⟩

/-- The database with this fuzzer. -/
def oneFuzzerDB : FuzzInfoDB :=
  { new "corpus" with
    fuzzerMap := .singleton ⟨1, 1⟩ oneFuzzer
    covData := .singleton ⟨1, 1⟩ fun _ => 0 }

/-- A testcase of this fuzzer. -/
def oneTestcase : Testcase :=
  ⟨5, ⟨1, 1⟩, [7], 1, 1, ⟨0, 0⟩⟩

/-- It covers everything. -/
def oneEvaluation : EvaluatingData :=
  ⟨fun _ => 1, false, 0⟩

/-- Only the first write fails. -/
def firstFails : Nat → SeedWrite
  | 0 => ⟨0, false⟩
  | _ => ⟨0, true⟩

theorem oneTestcase_twice :
    ∃ next handed,
      addTestcases (fun ids id => ids.contains id) firstFails oneFuzzerDB
          [oneTestcase, oneTestcase] [oneEvaluation, oneEvaluation] =
        .returned next [.handed oneTestcase handed false, .useless] := by
  have found :
      oneFuzzerDB.fuzzerMap.lookup oneTestcase.fuzzerID =
        some oneFuzzer :=
    Finmap.lookup_singleton_eq
  have positive : 0 < CovSize := by
    unfold CovSize
    decide
  have isNew :
      (newGeneralCov oneFuzzerDB.generalCoverage oneEvaluation.cov).2 ≠ 0 :=
    @newGeneralCov_fresh _ _ _ ⟨0, positive⟩ rfl (by simp [oneEvaluation])
  obtain ⟨counted, -, first⟩ :=
    @addTestcase_handed (fun ids id => ids.contains id) _ _ oneEvaluation _ _
      (firstFails 0) found rfl rfl (by simpa [oneEvaluation] using isNew)
  obtain ⟨after, second⟩ :=
    resent_is_useless first rfl (firstFails 1)
  exact ⟨after, _, addTestcases_pair rfl first second⟩

/--
After a batch in which some write fails, the database is never as if the
testcases concerned had not been seen.
-/
theorem failed_write_is_seen
    {bloomTest : BloomTest}
    {disk : Nat → SeedWrite}
    {db next : FuzzInfoDB}
    {tcList : List Testcase}
    {evalDataList : List EvaluatingData}
    {verdicts : List Verdict}
    (ran :
      addTestcases bloomTest disk db tcList evalDataList =
        .returned next verdicts)
    (failed : ∃ verdict ∈ verdicts, verdict.Failed) :
    ¬AsIfNotSeen bloomTest disk db next tcList evalDataList :=
  not_asIfNotSeen (addTestcases_returned ran) failed

theorem failed_write_is_seen_twice :
    ∃ next verdicts,
      addTestcases (fun ids id => ids.contains id) firstFails oneFuzzerDB
            [oneTestcase, oneTestcase] [oneEvaluation, oneEvaluation] =
          .returned next verdicts ∧
        ¬AsIfNotSeen (fun ids id => ids.contains id) firstFails oneFuzzerDB next
          [oneTestcase, oneTestcase] [oneEvaluation, oneEvaluation] := by
  obtain ⟨next, handed, ran⟩ := oneTestcase_twice
  exact ⟨next, _, ran,
    failed_write_is_seen ran ⟨_, List.mem_cons_self, trivial⟩⟩

/--
A testcase opens every branch, but its input cannot be written.  When it is sent
again it counts as useless, and nothing is stored although the disk has recovered.
-/
theorem resent_testcase_is_not_stored :
    ∃ next handed,
      addTestcases (fun ids id => ids.contains id) firstFails oneFuzzerDB
            [oneTestcase, oneTestcase] [oneEvaluation, oneEvaluation] =
          .returned next [.handed oneTestcase handed false, .useless] ∧
        next.seedPool.files = [] ∧
        ¬AsIfNotSeen (fun ids id => ids.contains id) firstFails oneFuzzerDB next
          [oneTestcase, oneTestcase] [oneEvaluation, oneEvaluation] := by
  obtain ⟨next, handed, ran⟩ := oneTestcase_twice
  have looped := addTestcases_returned ran
  have stored := (addTestcasesFrom_counts looped).2
  exact ⟨next, handed, ran, List.length_eq_zero_iff.mp stored,
    not_asIfNotSeen looped ⟨_, List.mem_cons_self, trivial⟩⟩

end MeFuzz.InfoDb
