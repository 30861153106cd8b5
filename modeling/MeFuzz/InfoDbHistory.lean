import MeFuzz.InfoDbState

namespace MeFuzz.InfoDb

/-!
# Histories of the info database

A history is the list of calls made on the database.  Its meaning is a ledger
that only remembers which testcases were processed, and for whom; the database
is shown to refine that ledger.  What the database reports then depends on the
ledger alone, so neither order nor batching of testcases matters.
-/

/-- A testcase together with its evaluation. -/
abbrev Entry := Testcase × EvaluatingData

/-- One call on the database. -/
inductive Event where
  | addFuzzer (f : Fuzzer)
  | addTestcases (entries : List Entry) (disk : Nat → SeedWrite)
  | deleteFuzzer (id : ElementID)

namespace Event

/-- The testcases that a call brings. -/
def entries : Event → List Entry
  | .addTestcases entries _ => entries
  | .addFuzzer _ => []
  | .deleteFuzzer _ => []

end Event

/-- The testcases that a history brings. -/
def broughtEntries (history : List Event) : List Entry :=
  history.flatMap Event.entries

/-- Testcases with the same identifier have the same coverage. -/
def SameCoverage (entries : List Entry) : Prop :=
  ∀ first ∈ entries, ∀ second ∈ entries,
    first.1.id = second.1.id → first.2.cov = second.2.cov

/-- The database after a call, and what became of each testcase. -/
def perform
    (bloomTest : BloomTest)
    (db : FuzzInfoDB) : Event → Outcome (List Verdict)
  | .addFuzzer f =>
      match addFuzzer db f with
      | .returned next _ => .returned next []
      | .blocked => .blocked
      | .panicked => .panicked
  | .addTestcases entries disk =>
      addTestcases bloomTest disk db
        (entries.map Prod.fst) (entries.map Prod.snd)
  | .deleteFuzzer id =>
      match deleteFuzzer db id with
      | .returned next _ => .returned next []
      | .blocked => .blocked
      | .panicked => .panicked

/--
A whole history.  A blocked call waits for ever and changes nothing; a panic
ends the process, so there is no result.
-/
def runHistory
    (bloomTest : BloomTest) :
    List Event → FuzzInfoDB → Option (FuzzInfoDB × List Verdict)
  | [], db => some (db, [])
  | event :: rest, db =>
      match perform bloomTest db event with
      | .panicked => none
      | .blocked => runHistory bloomTest rest db
      | .returned next verdicts =>
          match runHistory bloomTest rest next with
          | none => none
          | some (final, later) => some (final, verdicts ++ later)

/-- The `NewCov` values handed to the seed pool. -/
def handedNewCov (verdicts : List Verdict) : List Nat :=
  verdicts.filterMap fun verdict =>
    match verdict with
    | .handed _ evalData _ => some evalData.newCov
    | .unknownFuzzer => none
    | .alreadyExists => none
    | .useless => none

/-- The branches covered by some of the testcases. -/
def coveredBy (entries : List Entry) : Set Branch :=
  {branch | ∃ entry ∈ entries, branch ∈ entry.2.branches}

@[simp] theorem coveredBy_append
    (first second : List Entry) :
    coveredBy (first ++ second) = coveredBy first ∪ coveredBy second := by
  ext branch
  simp [coveredBy, or_and_right, exists_or]

@[simp] theorem coveredBy_singleton
    (entry : Entry) :
    coveredBy [entry] = entry.2.branches := by
  ext branch
  simp [coveredBy]

theorem coveredBy_mono
    {first second : List Entry}
    (subset : ∀ entry ∈ first, entry ∈ second) :
    coveredBy first ⊆ coveredBy second := by
  rintro branch ⟨entry, member, covers⟩
  exact ⟨entry, subset entry member, covers⟩

theorem coveredBy_perm
    {first second : List Entry}
    (permuted : first.Perm second) :
    coveredBy first = coveredBy second :=
  Set.Subset.antisymm
    (coveredBy_mono fun _ member => permuted.mem_iff.mp member)
    (coveredBy_mono fun _ member => permuted.mem_iff.mpr member)

/--
What a history means: the fuzzers registered now, the testcases processed so
far, and for each fuzzer its own testcases since it was last registered.
-/
structure Ledger where
  stuck : Bool
  registered : Finset ElementID
  processed : List Entry
  since : ElementID → List Entry
  since_processed : ∀ id, ∀ entry ∈ since id, entry ∈ processed

namespace Ledger

/-- Nothing has happened yet. -/
def empty : Ledger where
  stuck := false
  registered := ∅
  processed := []
  since := fun _ => []
  since_processed := by simp

/-- A testcase is processed when its fuzzer is registered. -/
def process (ledger : Ledger) (entry : Entry) : Ledger :=
  if entry.1.fuzzerID ∈ ledger.registered then
    { ledger with
      processed := ledger.processed ++ [entry]
      since := Function.update ledger.since entry.1.fuzzerID
        (ledger.since entry.1.fuzzerID ++ [entry])
      since_processed := by
        intro id other member
        by_cases same : id = entry.1.fuzzerID
        · subst same
          rw [Function.update_self] at member
          rcases List.mem_append.mp member with old | isEntry
          · exact List.mem_append_left _
              (ledger.since_processed _ other old)
          · exact List.mem_append_right _ isEntry
        · rw [Function.update_of_ne same] at member
          exact List.mem_append_left _
            (ledger.since_processed id other member) }
  else ledger

/-- Register a fuzzer: its own testcases are counted from now on. -/
def register (ledger : Ledger) (id : ElementID) : Ledger where
  stuck := ledger.stuck
  registered := insert id ledger.registered
  processed := ledger.processed
  since := Function.update ledger.since id []
  since_processed := by
    intro other entry member
    by_cases same : other = id
    · subst same
      simp at member
    · rw [Function.update_of_ne same] at member
      exact ledger.since_processed other entry member

/--
The meaning of one call.  After a fuzzer was registered twice, the mutex is
never released and no later call has an effect.
-/
def after (ledger : Ledger) (event : Event) : Ledger :=
  if ledger.stuck then ledger
  else
    match event with
    | .addFuzzer f =>
        if f.id ∈ ledger.registered then { ledger with stuck := true }
        else ledger.register f.id
    | .addTestcases entries _ => entries.foldl process ledger
    | .deleteFuzzer id =>
        { ledger with registered := ledger.registered.erase id }

/-- The meaning of a history. -/
def ofHistory (history : List Event) : Ledger :=
  history.foldl after empty

end Ledger

/-- The record that `covData` should hold for these testcases. -/
def ownCoverage (entries : List Entry) : Branch → UInt32 :=
  fun branch =>
    if entries.any fun entry => entry.2.cov branch != 0 then 1 else 0

/-- The database represents the ledger. -/
structure Refines
    (db : FuzzInfoDB)
    (ledger : Ledger) : Prop where
  muLocked : db.muLocked = ledger.stuck
  fuzzerID : ∀ id fuzzer,
    db.fuzzerMap.lookup id = some fuzzer → fuzzer.id = id
  fuzzers : ∀ id, id ∈ db.fuzzerMap ↔ id ∈ ledger.registered
  own : ∀ id,
    db.covData.lookup id =
      if id ∈ ledger.registered then some (ownCoverage (ledger.since id))
      else none
  general : ∀ branch,
    db.generalCoverage branch = true ↔ branch ∈ coveredBy ledger.processed
  pooled : ∀ id ∈ db.seedPool.bloom,
    ∃ entry ∈ ledger.processed, entry.1.id = id

theorem ownCoverage_append
    (entries : List Entry)
    (entry : Entry) :
    ownCoverage (entries ++ [entry]) =
      fun branch =>
        if entry.2.cov branch ≠ 0 then 1
        else ownCoverage entries branch := by
  funext branch
  by_cases covered : entry.2.cov branch = 0
  · simp only [ownCoverage, List.any_append, List.any_cons, List.any_nil,
      covered, ne_eq, not_true_eq_false, if_false, bne_self_eq_false,
      Bool.or_false]
  · simp [ownCoverage, covered]

theorem ownCoverage_ne_zero
    (entries : List Entry)
    (branch : Branch) :
    ownCoverage entries branch ≠ 0 ↔ branch ∈ coveredBy entries := by
  unfold ownCoverage
  split
  · rename_i found
    simpa [coveredBy, EvaluatingData.branches] using found
  · rename_i missing
    simpa [coveredBy, EvaluatingData.branches] using missing

namespace Ledger

variable {ledger : Ledger}

theorem process_of_mem
    {entry : Entry}
    (registered : entry.1.fuzzerID ∈ ledger.registered) :
    (ledger.process entry).processed = ledger.processed ++ [entry] ∧
      (ledger.process entry).since =
        Function.update ledger.since entry.1.fuzzerID
          (ledger.since entry.1.fuzzerID ++ [entry]) := by
  simp [process, registered]

theorem process_of_notMem
    {entry : Entry}
    (unknown : entry.1.fuzzerID ∉ ledger.registered) :
    ledger.process entry = ledger := by
  simp [process, unknown]

@[simp] theorem process_stuck
    (ledger : Ledger)
    (entry : Entry) :
    (ledger.process entry).stuck = ledger.stuck := by
  unfold process
  split <;> rfl

@[simp] theorem process_registered
    (ledger : Ledger)
    (entry : Entry) :
    (ledger.process entry).registered = ledger.registered := by
  unfold process
  split <;> rfl

theorem after_of_stuck
    {event : Event}
    (stuck : ledger.stuck = true) :
    ledger.after event = ledger := by
  simp [after, stuck]

theorem after_addFuzzer
    {f : Fuzzer}
    (free : ledger.stuck = false) :
    ledger.after (.addFuzzer f) =
      if f.id ∈ ledger.registered then { ledger with stuck := true }
      else ledger.register f.id := by
  simp [after, free]

theorem after_addTestcases
    {entries : List Entry}
    {disk : Nat → SeedWrite}
    (free : ledger.stuck = false) :
    ledger.after (.addTestcases entries disk) =
      entries.foldl process ledger := by
  simp [after, free]

theorem after_deleteFuzzer
    {id : ElementID}
    (free : ledger.stuck = false) :
    ledger.after (.deleteFuzzer id) =
      { ledger with registered := ledger.registered.erase id } := by
  simp [after, free]

end Ledger

variable {ledger : Ledger}

/--
Processing a testcase of a registered fuzzer: the database has to extend the
coverage of that fuzzer and the general coverage, and may remember the
testcase.
-/
theorem Refines.process
    {db next : FuzzInfoDB}
    {entry : Entry}
    (refines : Refines db ledger)
    (registered : entry.1.fuzzerID ∈ ledger.registered)
    (muLocked : next.muLocked = db.muLocked)
    (fuzzerID : ∀ id fuzzer,
      next.fuzzerMap.lookup id = some fuzzer → fuzzer.id = id)
    (fuzzers : ∀ id, id ∈ next.fuzzerMap ↔ id ∈ db.fuzzerMap)
    (covData :
      next.covData =
        addTestcaseCoverage db.covData entry.1.fuzzerID entry.2.cov)
    (general : ∀ branch,
      next.generalCoverage branch = true ↔
        db.generalCoverage branch = true ∨ entry.2.cov branch ≠ 0)
    (bloom : ∀ id ∈ next.seedPool.bloom,
      id ∈ db.seedPool.bloom ∨ id = entry.1.id) :
    Refines next (ledger.process entry) := by
  obtain ⟨processed, since⟩ := Ledger.process_of_mem registered
  constructor
  · rw [muLocked, refines.muLocked, Ledger.process_stuck]
  · exact fuzzerID
  · intro id
    rw [fuzzers, refines.fuzzers, Ledger.process_registered]
  · intro id
    rw [covData, since, Ledger.process_registered]
    by_cases same : id = entry.1.fuzzerID
    · subst same
      have recorded := refines.own entry.1.fuzzerID
      rw [if_pos registered] at recorded
      rw [lookup_addTestcaseCoverage_self recorded, if_pos registered,
        Function.update_self, ownCoverage_append]
    · rw [lookup_addTestcaseCoverage_of_ne same, refines.own,
        Function.update_of_ne same]
  · intro branch
    rw [general, refines.general, processed, coveredBy_append,
      coveredBy_singleton]
    rfl
  · intro id member
    rw [processed]
    rcases bloom id member with old | isEntry
    · obtain ⟨earlier, earlierMember, sameID⟩ := refines.pooled id old
      exact ⟨earlier, List.mem_append_left _ earlierMember, sameID⟩
    · exact ⟨entry, by simp, isEntry.symm⟩

/-- One round of `AddTestcases` does what the ledger does. -/
theorem addTestcase_refines
    {bloomTest : BloomTest}
    (noFalsePositive : ∀ added id,
      bloomTest added id = true → id ∈ added)
    {db : FuzzInfoDB}
    {ledger : Ledger}
    (refines : Refines db ledger)
    (write : SeedWrite)
    (entry : Entry)
    (sameCoverage : ∀ earlier ∈ ledger.processed,
      earlier.1.id = entry.1.id → earlier.2.cov = entry.2.cov) :
    ∃ next verdict,
      addTestcase bloomTest db write entry.1 (some entry.2) =
          some (next, verdict) ∧
        Refines next (ledger.process entry) ∧
        getGlobalCoverageInfo next =
          getGlobalCoverageInfo db + (handedNewCov [verdict]).sum := by
  obtain ⟨tc, evalData⟩ := entry
  cases found : db.fuzzerMap.lookup tc.fuzzerID with
  | none =>
      have unknown : tc.fuzzerID ∉ ledger.registered := by
        rw [← refines.fuzzers]
        exact Finmap.lookup_eq_none.mp found
      refine ⟨db, .unknownFuzzer, addTestcase_unknown found _, ?_,
        (Nat.add_zero _).symm⟩
      rw [Ledger.process_of_notMem unknown]
      exact refines
  | some fuzzer =>
      have registered : tc.fuzzerID ∈ ledger.registered := by
        rw [← refines.fuzzers]
        exact Finmap.mem_of_lookup_eq_some found
      have ownID : fuzzer.id = tc.fuzzerID :=
        refines.fuzzerID _ _ found
      cases known : db.seedPool.hasInBloom bloomTest tc.id with
      | true =>
          -- Its coverage was counted when it was first processed.
          have covered : ∀ branch, evalData.cov branch ≠ 0 →
              db.generalCoverage branch = true := by
            intro branch covers
            obtain ⟨earlier, member, sameID⟩ :=
              refines.pooled tc.id (noFalsePositive _ _ known)
            rw [refines.general]
            refine ⟨earlier, member, ?_⟩
            simpa [EvaluatingData.branches,
              sameCoverage earlier member sameID] using covers
          refine ⟨_, _, addTestcase_known found known, ?_,
            (Nat.add_zero (getGlobalCoverageInfo db)).symm⟩
          refine refines.process registered rfl refines.fuzzerID
            (fun _ => Iff.rfl) (by rw [ownID]) ?_
            (fun _ member => .inl member)
          intro branch
          exact ⟨.inl, fun either => either.elim id (covered branch)⟩
      | false =>
          generalize opened :
            newGeneralCov db.generalCoverage evalData.cov = general
          have counted := openedBranches_newGeneralCov
            db.generalCoverage evalData.cov
          have extended := newGeneralCov_apply
            db.generalCoverage evalData.cov
          rw [opened] at counted extended
          cases useless : !evalData.hasCrash && general.2 == 0 with
          | true =>
              have nothingNew : general.2 = 0 := by
                simp only [Bool.and_eq_true, beq_iff_eq] at useless
                exact useless.2
              refine ⟨_, _,
                addTestcase_useless found known opened useless, ?_, ?_⟩
              · exact refines.process registered rfl refines.fuzzerID
                  (fun _ => Iff.rfl) (by rw [ownID]) extended
                  (fun _ member => .inl member)
              · rw [nothingNew] at counted
                exact counted
          | false =>
              obtain ⟨counter, counterID, handed⟩ :=
                addTestcase_handed write found known opened useless
              refine ⟨_, _, handed, ?_, ?_⟩
              · refine refines.process registered rfl ?_ ?_
                  (by rw [ownID]) extended
                  (fun _ member => SeedPool.mem_bloom_addSeed member)
                · intro id other present
                  by_cases same : id = tc.fuzzerID
                  · subst same
                    rw [Finmap.lookup_insert] at present
                    obtain rfl := Option.some.inj present
                    rw [counterID, ownID]
                  · rw [Finmap.lookup_insert_of_ne _ same] at present
                    exact refines.fuzzerID id other present
                · intro id
                  rw [Finmap.mem_insert]
                  constructor
                  · rintro (rfl | present)
                    · exact Finmap.mem_of_lookup_eq_some found
                    · exact present
                  · exact .inr
              · simpa only [getGlobalCoverageInfo, handedNewCov,
                  List.filterMap_cons, List.filterMap_nil,
                  List.sum_cons, List.sum_nil, Nat.add_zero] using counted

theorem handedNewCov_append
    (first second : List Verdict) :
    (handedNewCov (first ++ second)).sum =
      (handedNewCov first).sum + (handedNewCov second).sum := by
  simp [handedNewCov]

theorem Ledger.mem_processed_process
    {entry other : Entry}
    (member : other ∈ (ledger.process entry).processed) :
    other ∈ ledger.processed ∨ other = entry := by
  by_cases registered : entry.1.fuzzerID ∈ ledger.registered
  · rw [(Ledger.process_of_mem registered).1] at member
    simpa using member
  · rw [Ledger.process_of_notMem registered] at member
    exact .inl member

theorem Refines.register
    {db : FuzzInfoDB}
    (refines : Refines db ledger)
    (f : Fuzzer) :
    Refines
      { db with
        covData := db.covData.insert f.id (fun _ => 0)
        fuzzerMap := db.fuzzerMap.insert f.id f }
      (ledger.register f.id) := by
  constructor
  · exact refines.muLocked
  · intro id fuzzer present
    by_cases same : id = f.id
    · subst same
      rw [Finmap.lookup_insert] at present
      rw [Option.some.inj present]
    · rw [Finmap.lookup_insert_of_ne _ same] at present
      exact refines.fuzzerID id fuzzer present
  · intro id
    rw [Finmap.mem_insert, refines.fuzzers]
    simp [Ledger.register]
  · intro id
    by_cases same : id = f.id
    · subst same
      rw [Finmap.lookup_insert]
      simp only [Ledger.register, Finset.mem_insert_self, if_true,
        Function.update_self]
      rfl
    · rw [Finmap.lookup_insert_of_ne _ same, refines.own]
      simp [Ledger.register, same]
  · exact refines.general
  · exact refines.pooled

theorem Refines.unregister
    {db : FuzzInfoDB}
    (refines : Refines db ledger)
    (id : ElementID) :
    Refines
      { db with
        fuzzerMap := db.fuzzerMap.erase id
        covData := db.covData.erase id }
      { ledger with registered := ledger.registered.erase id } := by
  constructor
  · exact refines.muLocked
  · intro other fuzzer present
    by_cases same : other = id
    · subst same
      simp at present
    · rw [Finmap.lookup_erase_ne same] at present
      exact refines.fuzzerID other fuzzer present
  · intro other
    rw [Finmap.mem_erase, refines.fuzzers, Finset.mem_erase]
  · intro other
    by_cases same : other = id
    · subst same
      simp
    · rw [Finmap.lookup_erase_ne same, refines.own]
      simp [same]
  · exact refines.general
  · exact refines.pooled

section Histories

variable {bloomTest : BloomTest}
variable {everBrought : List Entry}

/-- The loop of `AddTestcases` does what the ledger does. -/
theorem addTestcasesFrom_refines
    (noFalsePositive : ∀ added id,
      bloomTest added id = true → id ∈ added)
    (sameCoverage : SameCoverage everBrought)
    (disk : Nat → SeedWrite)
    (before rest : List Entry)
    {db : FuzzInfoDB}
    {ledger : Ledger}
    (refines : Refines db ledger)
    (processed : ∀ entry ∈ ledger.processed, entry ∈ everBrought)
    (brought : ∀ entry ∈ rest, entry ∈ everBrought) :
    ∃ next verdicts,
      addTestcasesFrom bloomTest disk ((before ++ rest).map Prod.snd)
          before.length (rest.map Prod.fst) db = some (next, verdicts) ∧
        Refines next (rest.foldl Ledger.process ledger) ∧
        getGlobalCoverageInfo next =
          getGlobalCoverageInfo db + (handedNewCov verdicts).sum := by
  induction rest generalizing before db ledger with
  | nil =>
      exact ⟨db, [], rfl, refines,
        (Nat.add_zero (getGlobalCoverageInfo db)).symm⟩
  | cons entry rest ih =>
      obtain ⟨middle, verdict, taken, middleRefines, middleCount⟩ :=
        addTestcase_refines noFalsePositive refines
          (disk before.length) entry
          (fun earlier member =>
            sameCoverage earlier (processed earlier member)
              entry (brought entry (by simp)))
      obtain ⟨next, verdicts, rounds, nextRefines, nextCount⟩ :=
        ih (before ++ [entry]) middleRefines
          (fun other member =>
            (Ledger.mem_processed_process member).elim
              (processed other)
              (fun isEntry => isEntry ▸ brought entry (by simp)))
          (fun other member =>
            brought other (List.mem_cons_of_mem _ member))
      refine ⟨next, verdict :: verdicts, ?_, nextRefines, ?_⟩
      · have data :
            ((before ++ entry :: rest).map Prod.snd)[before.length]? =
              some entry.2 := by
          simp
        simp only [List.append_assoc, List.singleton_append,
          List.length_append, List.length_singleton] at rounds
        simp only [List.map_cons, addTestcasesFrom]
        rw [data, taken]
        dsimp only
        rw [rounds]
      · have split := handedNewCov_append [verdict] verdicts
        rw [List.singleton_append] at split
        rw [nextCount, middleCount, split, Nat.add_assoc]

theorem perform_refines
    (noFalsePositive : ∀ added id,
      bloomTest added id = true → id ∈ added)
    (sameCoverage : SameCoverage everBrought)
    (event : Event)
    {db : FuzzInfoDB}
    {ledger : Ledger}
    (refines : Refines db ledger)
    (processed : ∀ entry ∈ ledger.processed, entry ∈ everBrought)
    (brought : ∀ entry ∈ event.entries, entry ∈ everBrought) :
    (perform bloomTest db event = .blocked ∧
        ledger.after event = ledger) ∨
      ∃ next verdicts,
        perform bloomTest db event = .returned next verdicts ∧
          Refines next (ledger.after event) ∧
          getGlobalCoverageInfo next =
            getGlobalCoverageInfo db + (handedNewCov verdicts).sum := by
  cases locked : ledger.stuck with
  | true =>
      left
      have dbLocked : db.muLocked = true := by
        rw [refines.muLocked, locked]
      constructor
      · cases event <;>
          simp [perform, addFuzzer, addTestcases, deleteFuzzer, dbLocked]
      · exact Ledger.after_of_stuck locked
  | false =>
      right
      have unlocked : db.muLocked = false := by
        rw [refines.muLocked, locked]
      cases event with
      | addFuzzer f =>
          by_cases present : f.id ∈ db.fuzzerMap
          · refine ⟨{ db with muLocked := true }, [], ?_, ?_, ?_⟩
            · simp [perform, addFuzzer, unlocked, present]
            · rw [refines.fuzzers] at present
              rw [Ledger.after_addFuzzer locked, if_pos present]
              exact ⟨rfl, refines.fuzzerID, refines.fuzzers, refines.own,
                refines.general, refines.pooled⟩
            · exact (Nat.add_zero (getGlobalCoverageInfo db)).symm
          · have absent := present
            rw [refines.fuzzers] at absent
            rw [Ledger.after_addFuzzer locked, if_neg absent]
            refine ⟨_, [], ?_, refines.register f,
              (Nat.add_zero (getGlobalCoverageInfo db)).symm⟩
            simp [perform, addFuzzer, unlocked, present]
      | addTestcases entries disk =>
          obtain ⟨next, verdicts, rounds, nextRefines, counted⟩ :=
            addTestcasesFrom_refines noFalsePositive sameCoverage disk
              [] entries refines processed brought
          refine ⟨next, verdicts, ?_, ?_, counted⟩
          · simp only [List.nil_append, List.length_nil] at rounds
            simp [perform, addTestcases, unlocked, rounds]
          · rw [Ledger.after_addTestcases locked]
            exact nextRefines
      | deleteFuzzer id =>
          rw [Ledger.after_deleteFuzzer locked]
          by_cases present : id ∈ db.fuzzerMap
          · refine ⟨_, [], ?_, refines.unregister id,
              (Nat.add_zero (getGlobalCoverageInfo db)).symm⟩
            simp [perform, deleteFuzzer, unlocked, present]
          · refine ⟨db, [], ?_, ?_,
              (Nat.add_zero (getGlobalCoverageInfo db)).symm⟩
            · simp [perform, deleteFuzzer, unlocked, present]
            · rw [refines.fuzzers] at present
              rw [Finset.erase_eq_of_notMem present]
              exact refines

theorem Ledger.mem_processed_after
    {ledger : Ledger}
    {event : Event}
    {entry : Entry}
    (member : entry ∈ (ledger.after event).processed) :
    entry ∈ ledger.processed ∨ entry ∈ event.entries := by
  unfold Ledger.after at member
  split at member
  · exact .inl member
  · cases event with
    | addFuzzer f =>
        dsimp only at member
        split at member
        · exact .inl member
        · exact .inl member
    | addTestcases entries disk =>
        dsimp only at member
        clear * - member
        induction entries generalizing ledger with
        | nil =>
            exact .inl member
        | cons first rest ih =>
            rcases ih member with before | later
            · rcases Ledger.mem_processed_process before with
                old | isFirst
              · exact .inl old
              · exact .inr (by simp [Event.entries, isFirst])
            · exact .inr (List.mem_cons_of_mem _ later)
    | deleteFuzzer id =>
        exact .inl member

theorem runHistory_refines
    (noFalsePositive : ∀ added id,
      bloomTest added id = true → id ∈ added)
    (sameCoverage : SameCoverage everBrought)
    (history : List Event)
    {db : FuzzInfoDB}
    {ledger : Ledger}
    (refines : Refines db ledger)
    (processed : ∀ entry ∈ ledger.processed, entry ∈ everBrought)
    (brought : ∀ entry ∈ broughtEntries history, entry ∈ everBrought) :
    ∃ final verdicts,
      runHistory bloomTest history db = some (final, verdicts) ∧
        Refines final (history.foldl Ledger.after ledger) ∧
        getGlobalCoverageInfo final =
          getGlobalCoverageInfo db + (handedNewCov verdicts).sum := by
  induction history generalizing db ledger with
  | nil =>
      exact ⟨db, [], rfl, refines,
        (Nat.add_zero (getGlobalCoverageInfo db)).symm⟩
  | cons event rest ih =>
      have broughtNow : ∀ entry ∈ event.entries, entry ∈ everBrought :=
        fun entry member => brought entry (by simp [broughtEntries, member])
      have broughtLater :
          ∀ entry ∈ broughtEntries rest, entry ∈ everBrought := by
        intro entry member
        apply brought entry
        rw [broughtEntries, List.flatMap_cons]
        exact List.mem_append_right _ member
      rcases perform_refines noFalsePositive sameCoverage event refines
          processed broughtNow with
        ⟨blocked, unchanged⟩ | ⟨next, verdicts, performed, nextRefines, count⟩
      · obtain ⟨final, later, ran, finalRefines, laterCount⟩ :=
          ih refines processed broughtLater
        refine ⟨final, later, ?_, ?_, laterCount⟩
        · rw [runHistory, blocked]
          exact ran
        · rw [List.foldl_cons, unchanged]
          exact finalRefines
      · obtain ⟨final, later, ran, finalRefines, laterCount⟩ :=
          ih nextRefines
            (fun entry member =>
              (Ledger.mem_processed_after member).elim
                (processed entry) (broughtNow entry))
            broughtLater
        refine ⟨final, verdicts ++ later, ?_, finalRefines, ?_⟩
        · rw [runHistory, performed]
          dsimp only
          rw [ran]
        · rw [laterCount, count, handedNewCov_append, Nat.add_assoc]

end Histories

/-- Testcases handed over in consecutive calls. -/
abbrev Batches := List (List Entry × (Nat → SeedWrite))

/-- The calls that hand over some batches. -/
def Batches.calls (batches : Batches) : List Event :=
  batches.map fun batch => .addTestcases batch.1 batch.2

/-- The testcases of some batches, in order. -/
def Batches.entries (batches : Batches) : List Entry :=
  batches.flatMap Prod.fst

/--
The same registrations and removals in the same order, with the same testcases
between any two of them, in any order and any batches.
-/
inductive Reordered : List Event → List Event → Prop where
  | nil :
      Reordered [] []
  | addFuzzer
      {first second : List Event}
      (f : Fuzzer) :
      Reordered first second →
      Reordered (.addFuzzer f :: first) (.addFuzzer f :: second)
  | deleteFuzzer
      {first second : List Event}
      (id : ElementID) :
      Reordered first second →
      Reordered (.deleteFuzzer id :: first) (.deleteFuzzer id :: second)
  | testcases
      {first second : List Event}
      (firstBatches secondBatches : Batches) :
      firstBatches.entries.Perm secondBatches.entries →
      Reordered first second →
      Reordered
        (firstBatches.calls ++ first)
        (secondBatches.calls ++ second)

theorem Reordered.brought_perm
    {first second : List Event}
    (reordered : Reordered first second) :
    (broughtEntries first).Perm (broughtEntries second) := by
  have broughtByCalls (batches : Batches) (rest : List Event) :
      broughtEntries (batches.calls ++ rest) =
        batches.entries ++ broughtEntries rest := by
    simp [broughtEntries, Batches.calls, Batches.entries,
      List.flatMap_map, Event.entries]
  induction reordered with
  | nil =>
      exact .refl _
  | addFuzzer f _ ih =>
      simpa [broughtEntries, Event.entries] using ih
  | deleteFuzzer id _ ih =>
      simpa [broughtEntries, Event.entries] using ih
  | testcases firstBatches secondBatches permuted _ ih =>
      rw [broughtByCalls, broughtByCalls]
      exact permuted.append ih

namespace Ledger

theorem processed_foldl_process
    (ledger : Ledger)
    (entries : List Entry) :
    (entries.foldl process ledger).processed =
      ledger.processed ++
        entries.filter (·.1.fuzzerID ∈ ledger.registered) := by
  induction entries generalizing ledger with
  | nil =>
      simp
  | cons entry rest ih =>
      rw [List.foldl_cons, ih, process_registered]
      by_cases registered : entry.1.fuzzerID ∈ ledger.registered
      · rw [(process_of_mem registered).1]
        simp [registered]
      · rw [process_of_notMem registered]
        simp [registered]

theorem since_foldl_process
    (ledger : Ledger)
    (entries : List Entry)
    (id : ElementID) :
    (entries.foldl process ledger).since id =
      ledger.since id ++
        if id ∈ ledger.registered then
          entries.filter (·.1.fuzzerID = id)
        else [] := by
  induction entries generalizing ledger with
  | nil =>
      simp
  | cons entry rest ih =>
      rw [List.foldl_cons, ih, process_registered]
      by_cases registered : entry.1.fuzzerID ∈ ledger.registered
      · rw [(process_of_mem registered).2]
        by_cases own : id = entry.1.fuzzerID
        · subst own
          simp [registered]
        · rw [Function.update_of_ne own]
          simp [Ne.symm own]
      · rw [process_of_notMem registered]
        by_cases own : entry.1.fuzzerID = id
        · subst own
          simp [registered]
        · simp [own]

@[simp] theorem stuck_foldl_process
    (ledger : Ledger)
    (entries : List Entry) :
    (entries.foldl process ledger).stuck = ledger.stuck := by
  induction entries generalizing ledger with
  | nil =>
      rfl
  | cons entry rest ih =>
      rw [List.foldl_cons, ih, process_stuck]

@[simp] theorem registered_foldl_process
    (ledger : Ledger)
    (entries : List Entry) :
    (entries.foldl process ledger).registered = ledger.registered := by
  induction entries generalizing ledger with
  | nil =>
      rfl
  | cons entry rest ih =>
      rw [List.foldl_cons, ih, process_registered]

theorem foldl_after_calls
    (ledger : Ledger)
    (batches : Batches) :
    batches.calls.foldl after ledger =
      if ledger.stuck then ledger
      else batches.entries.foldl process ledger := by
  induction batches generalizing ledger with
  | nil =>
      simp [Batches.calls, Batches.entries]
  | cons batch rest ih =>
      have later := ih (ledger.after
        (.addTestcases batch.1 batch.2))
      simp only [Batches.calls] at later
      simp only [Batches.calls, List.map_cons, List.foldl_cons, later]
      cases locked : ledger.stuck with
      | true =>
          rw [after_of_stuck locked]
          simp [locked]
      | false =>
          rw [after_addTestcases locked]
          simp [locked, Batches.entries, List.foldl_append]

/-- Ledgers that differ in the order of testcases only. -/
structure Alike (first second : Ledger) : Prop where
  stuck : first.stuck = second.stuck
  registered : first.registered = second.registered
  processed : first.processed.Perm second.processed
  since : ∀ id, (first.since id).Perm (second.since id)

namespace Alike

variable {first second : Ledger}

theorem process
    {firstEntries secondEntries : List Entry}
    (alike : Alike first second)
    (permuted : firstEntries.Perm secondEntries) :
    Alike
      (firstEntries.foldl Ledger.process first)
      (secondEntries.foldl Ledger.process second) := by
  constructor
  · simp [alike.stuck]
  · simp [alike.registered]
  · rw [processed_foldl_process, processed_foldl_process,
      alike.registered]
    exact alike.processed.append (permuted.filter _)
  · intro id
    rw [since_foldl_process, since_foldl_process, alike.registered]
    split
    · exact (alike.since id).append (permuted.filter _)
    · exact (alike.since id).append (.refl _)

theorem addFuzzer
    {first second : Ledger}
    (alike : Alike first second)
    (f : Fuzzer) :
    Alike (first.after (.addFuzzer f)) (second.after (.addFuzzer f)) := by
  cases locked : first.stuck with
  | true =>
      have secondLocked := alike.stuck ▸ locked
      rw [after_of_stuck locked, after_of_stuck secondLocked]
      exact alike
  | false =>
      have secondFree := alike.stuck ▸ locked
      have sameMember :
          f.id ∈ second.registered ↔ f.id ∈ first.registered := by
        rw [alike.registered]
      rw [after_addFuzzer locked, after_addFuzzer secondFree]
      simp only [sameMember]
      split
      · exact ⟨rfl, alike.registered, alike.processed, alike.since⟩
      · refine ⟨alike.stuck, ?_, alike.processed, ?_⟩
        · simp [register, alike.registered]
        · intro id
          by_cases same : id = f.id
          · subst same
            simp [register]
          · simpa [register, same] using alike.since id

theorem deleteFuzzer
    (alike : Alike first second)
    (id : ElementID) :
    Alike
      (first.after (.deleteFuzzer id))
      (second.after (.deleteFuzzer id)) := by
  cases locked : first.stuck with
  | true =>
      have secondLocked := alike.stuck ▸ locked
      rw [after_of_stuck locked, after_of_stuck secondLocked]
      exact alike
  | false =>
      have secondFree := alike.stuck ▸ locked
      rw [after_deleteFuzzer locked, after_deleteFuzzer secondFree]
      refine ⟨alike.stuck, ?_, alike.processed, alike.since⟩
      simp [alike.registered]

theorem reordered
    {firstHistory secondHistory : List Event}
    (alike : Alike first second)
    (reordered : Reordered firstHistory secondHistory) :
    Alike
      (firstHistory.foldl after first)
      (secondHistory.foldl after second) := by
  induction reordered generalizing first second with
  | nil =>
      exact alike
  | addFuzzer f _ ih =>
      exact ih (alike.addFuzzer f)
  | deleteFuzzer id _ ih =>
      exact ih (alike.deleteFuzzer id)
  | testcases firstBatches secondBatches permuted _ ih =>
      rw [List.foldl_append, List.foldl_append]
      apply ih
      rw [foldl_after_calls, foldl_after_calls, ← alike.stuck]
      split
      · exact alike
      · exact alike.process permuted

end Alike

end Ledger

theorem ownCoverage_perm
    {first second : List Entry}
    (permuted : first.Perm second) :
    ownCoverage first = ownCoverage second := by
  funext branch
  simp only [ownCoverage, permuted.any_eq]

/-- What the database reports about the testcases of a history. -/
structure FaithfulUnion
    (ledger : Ledger)
    (db : FuzzInfoDB)
    (verdicts : List Verdict) : Prop where
  general : ∀ branch,
    db.generalCoverage branch = true ↔
      ∃ entry ∈ ledger.processed, branch ∈ entry.2.branches
  newCov : (handedNewCov verdicts).sum = getGlobalCoverageInfo db
  size : getGlobalCoverageInfo db =
    {branch |
      ∃ entry ∈ ledger.processed, branch ∈ entry.2.branches}.ncard
  registered : ∀ id, id ∈ db.covData ↔ id ∈ ledger.registered
  own : ∀ id cov, db.covData.lookup id = some cov →
    ∀ branch, cov branch ≠ 0 ↔
      ∃ entry ∈ ledger.since id, branch ∈ entry.2.branches
  contained : ∀ id cov, db.covData.lookup id = some cov →
    ∀ branch, cov branch ≠ 0 → db.generalCoverage branch = true

theorem Refines.faithfulUnion
    {db : FuzzInfoDB}
    {ledger : Ledger}
    {verdicts : List Verdict}
    (refines : Refines db ledger)
    (counted : (handedNewCov verdicts).sum = getGlobalCoverageInfo db) :
    FaithfulUnion ledger db verdicts := by
  have own : ∀ id cov, db.covData.lookup id = some cov →
      ∀ branch, cov branch ≠ 0 ↔ branch ∈ coveredBy (ledger.since id) := by
    intro id cov found branch
    rw [refines.own] at found
    split at found
    · rw [← Option.some.inj found, ownCoverage_ne_zero]
    · cases found
  constructor
  · exact refines.general
  · exact counted
  · rw [getGlobalCoverageInfo, openedBranches_eq_ncard]
    congr 1
    ext branch
    exact refines.general branch
  · intro id
    rw [← Finmap.lookup_isSome, refines.own]
    split <;> simp_all
  · exact own
  · intro id cov found branch covers
    rw [refines.general]
    exact coveredBy_mono (ledger.since_processed id)
      ((own id cov found branch).mp covers)

theorem new_refines (corpusDirName : String) :
    Refines (new corpusDirName) Ledger.empty := by
  constructor <;>
    simp [new, Ledger.empty, coveredBy, Finmap.notMem_empty]

theorem getGlobalCoverageInfo_new (corpusDirName : String) :
    getGlobalCoverageInfo (new corpusDirName) = 0 := by
  rw [getGlobalCoverageInfo, openedBranches_eq_ncard]
  simp [new]

/--
The info database is a faithful union of the testcases processed, and its
coverages do not depend on their order or batching.  Only false positives of
the bloom filter matter: a false negative costs a second look, and a failed
write loses a seed but no coverage.
-/
theorem runHistory_faithful
    (bloomTest : BloomTest)
    (noFalsePositive : ∀ added id,
      bloomTest added id = true → id ∈ added)
    (corpusDirName : String)
    (history : List Event)
    (sameCoverage : SameCoverage (broughtEntries history)) :
    ∃ db verdicts,
      runHistory bloomTest history (new corpusDirName) =
          some (db, verdicts) ∧
        FaithfulUnion (Ledger.ofHistory history) db verdicts ∧
        ∀ other, Reordered history other →
          ∃ otherDb otherVerdicts,
            runHistory bloomTest other (new corpusDirName) =
                some (otherDb, otherVerdicts) ∧
              otherDb.generalCoverage = db.generalCoverage ∧
              otherDb.covData = db.covData := by
  have start := new_refines corpusDirName
  obtain ⟨db, verdicts, ran, refines, counted⟩ :=
    runHistory_refines noFalsePositive sameCoverage history start
      (by simp [Ledger.empty]) (fun _ member => member)
  rw [getGlobalCoverageInfo_new, Nat.zero_add] at counted
  refine ⟨db, verdicts, ran, refines.faithfulUnion counted.symm, ?_⟩
  intro other reordered
  have sameBrought := reordered.brought_perm
  obtain ⟨otherDb, otherVerdicts, otherRan, otherRefines, _⟩ :=
    runHistory_refines noFalsePositive sameCoverage other start
      (by simp [Ledger.empty])
      (fun _ member => sameBrought.mem_iff.mpr member)
  have alike : Ledger.Alike
      (history.foldl Ledger.after Ledger.empty)
      (other.foldl Ledger.after Ledger.empty) :=
    Ledger.Alike.reordered
      ⟨rfl, rfl, .refl _, fun _ => .refl _⟩ reordered
  refine ⟨otherDb, otherVerdicts, otherRan, ?_, ?_⟩
  · funext branch
    rw [Bool.eq_iff_iff, refines.general, otherRefines.general,
      coveredBy_perm alike.processed]
  · apply Finmap.ext_lookup
    intro id
    rw [refines.own, otherRefines.own, alike.registered,
      ownCoverage_perm (alike.since id)]

/-- The database is faithful on a history with one registered fuzzer. -/
theorem runHistory_faithful_one_fuzzer :
    let f : Fuzzer :=
      { id := ⟨1, 1⟩
        configuration := ⟨"m", "s", "p", true, false, true⟩
        bugsFound := 0
        totalSaveTestcaseCount := 0
        registered := ⟨0, 0⟩ }
    let tc : Testcase :=
      { id := 7
        fuzzerID := ⟨1, 1⟩
        inputData := [1, 2]
        execs := 3
        corpusSize := 4
        createdAt := ⟨0, 0⟩ }
    let evalData : EvaluatingData :=
      { cov := fun branch => if branch.val = 5 then 1 else 0
        hasCrash := false
        newCov := 0 }
    let history : List Event :=
      [.addFuzzer f,
        .addTestcases [(tc, evalData)] (fun _ => ⟨0, true⟩),
        .deleteFuzzer ⟨1, 1⟩]
    ∃ db verdicts,
      runHistory (fun added id => added.contains id) history
          (new "corpus") = some (db, verdicts) ∧
        FaithfulUnion (Ledger.ofHistory history) db verdicts ∧
        ∀ other, Reordered history other →
          ∃ otherDb otherVerdicts,
            runHistory (fun added id => added.contains id) other
                (new "corpus") = some (otherDb, otherVerdicts) ∧
              otherDb.generalCoverage = db.generalCoverage ∧
              otherDb.covData = db.covData := by
  intro f tc evalData history
  refine runHistory_faithful (fun added id => added.contains id)
    (by simp) "corpus" history ?_
  intro first firstMember second secondMember _
  simp only [history, broughtEntries, Event.entries, List.flatMap_cons,
    List.flatMap_nil, List.append_nil, List.nil_append,
    List.mem_singleton] at firstMember secondMember
  rw [firstMember, secondMember]

end MeFuzz.InfoDb
