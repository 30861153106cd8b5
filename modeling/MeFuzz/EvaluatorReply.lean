import MeFuzz.InfoDbState
import MeFuzz.EvalerWorker

namespace MeFuzz.EvaluatorReply

open InfoDb EvalerWorker

/-!
# Replies of an evaluator

An evaluator answers a batch with a list of evaluations.  Neither the number
of entries nor the length of a coverage list is checked before the entries are
indexed, so a reply decides whether the master survives it.
-/

/-- `evaluationData`: one entry of a reply. -/
structure EvaluationData where
  execInfo : UInt64
  coverage : List Int
  deriving Repr, DecidableEq

/-- `evaluationOutput`: a decoded reply. -/
structure EvaluationOutput where
  evalData : List EvaluationData
  deriving Repr, DecidableEq

/--
The loops of `Evaluate` over one entry.  The inner one reads the indices below
`CovSize`, so a shorter list of coverage values is a panic.
-/
def evaluateEntry (entry : EvaluationData) : Option EvaluatingData :=
  if long : CovSize ≤ entry.coverage.length then
    some
      { cov := fun branch =>
          UInt8.ofInt
            (entry.coverage.get ⟨branch.val, branch.isLt.trans_le long⟩)
        hasCrash := entry.execInfo ≠ 1
        newCov := 0 }
  else none

/-- The outer loop of `Evaluate`; `none` is a panic. -/
def evaluateEntries : List EvaluationData → Option (List EvaluatingData)
  | [] => some []
  | entry :: rest =>
      match evaluateEntry entry, evaluateEntries rest with
      | some evalData, some evalDataList => some (evalData :: evalDataList)
      | _, _ => none

/-- What `Evaluate` makes of a reply; `none` is a panic. -/
def evaluate (out : EvaluationOutput) : Option (List EvaluatingData) :=
  evaluateEntries out.evalData

/-- What an effect of the worker does to the database. -/
def applyEffect
    (bloomTest : BloomTest)
    (disk : Nat → SeedWrite)
    (db : FuzzInfoDB) : Effect → Outcome (List Verdict)
  | .addTestcases tcList evalDataList =>
      addTestcases bloomTest disk db tcList evalDataList
  | .elementDeleted _ => .returned db []
  | .resend _ => .returned db []
  | .needMoreFuzzers => .returned db []

/--
The whole path of a reply: the client decodes it, the worker's `flush` gets
the result, and the worker acts on it.
-/
def handleReply
    (bloomTest : BloomTest)
    (disk : Nat → SeedWrite)
    (db : FuzzInfoDB)
    (worker : Worker)
    (attempt : Nat)
    (caller : Caller)
    (out : EvaluationOutput) : Outcome (List Verdict) :=
  match evaluate out with
  | none => .panicked
  | some evalDataList =>
      match (worker.evaluated attempt caller
          (.success evalDataList)).phase with
      | .acting effect _ _ => applyEffect bloomTest disk db effect
      | _ => .returned db []

/-- No panic, and what is kept of a testcase is its own evaluation. -/
structure Safe
    (worker : Worker)
    (out : EvaluationOutput)
    (outcome : Outcome (List Verdict)) : Prop where
  noPanic : outcome ≠ .panicked
  paired : ∀ (next : FuzzInfoDB) (verdicts : List Verdict) (i : Nat)
      (tc : Testcase) (evalData : EvaluatingData) (saved : Bool),
    outcome = .returned next verdicts →
      verdicts[i]? = some (.handed tc evalData saved) →
        worker.tcBuf[i]? = some tc ∧
          ∃ entry : EvaluationData,
            out.evalData[i]? = some entry ∧
              evalData.hasCrash = (entry.execInfo ≠ 1 : Bool) ∧
              ∀ branch : Branch, ∃ hits,
                entry.coverage[branch.val]? = some hits ∧
                  evalData.cov branch = UInt8.ofInt hits

theorem evaluateEntry_eq_none
    {entry : EvaluationData} :
    evaluateEntry entry = none ↔ entry.coverage.length < CovSize := by
  unfold evaluateEntry
  split <;> simp <;> omega

/-- The loops of `Evaluate` panic exactly on a short coverage. -/
theorem evaluateEntries_eq_none
    {entries : List EvaluationData} :
    evaluateEntries entries = none ↔
      ∃ entry ∈ entries, entry.coverage.length < CovSize := by
  induction entries with
  | nil =>
      simp [evaluateEntries]
  | cons entry rest ih =>
      have head : evaluateEntry entry = none ↔
          entry.coverage.length < CovSize :=
        evaluateEntry_eq_none
      rw [evaluateEntries]
      cases first : evaluateEntry entry <;>
        cases later : evaluateEntries rest <;>
        simp_all

theorem evaluateEntries_getElem?
    {entries : List EvaluationData}
    {evalDataList : List EvaluatingData}
    (evaluated : evaluateEntries entries = some evalDataList)
    (i : Nat) :
    evalDataList[i]? = entries[i]?.bind evaluateEntry := by
  induction entries generalizing evalDataList i with
  | nil =>
      cases evaluated
      simp
  | cons entry rest ih =>
      rw [evaluateEntries] at evaluated
      split at evaluated
      · rename_i evalData later first restEvaluated
        cases evaluated
        cases i with
        | zero => simp [first]
        | succ i => simpa using ih restEvaluated i
      · cases evaluated

theorem evaluateEntries_length
    {entries : List EvaluationData}
    {evalDataList : List EvaluatingData}
    (evaluated : evaluateEntries entries = some evalDataList) :
    evalDataList.length = entries.length := by
  induction entries generalizing evalDataList with
  | nil =>
      cases evaluated
      rfl
  | cons entry rest ih =>
      rw [evaluateEntries] at evaluated
      split at evaluated
      · rename_i evalData later _ restEvaluated
        cases evaluated
        simp [ih restEvaluated]
      · cases evaluated

theorem evaluateEntry_spec
    {entry : EvaluationData}
    {evalData : EvaluatingData}
    (evaluated : evaluateEntry entry = some evalData) :
    evalData.hasCrash = (entry.execInfo ≠ 1 : Bool) ∧
      ∀ branch : Branch, ∃ hits,
        entry.coverage[branch.val]? = some hits ∧
          evalData.cov branch = UInt8.ofInt hits := by
  unfold evaluateEntry at evaluated
  split at evaluated
  · rename_i long
    cases evaluated
    refine ⟨rfl, fun branch => ?_⟩
    have inRange := branch.isLt.trans_le long
    exact ⟨_, List.getElem?_eq_getElem inRange, rfl⟩
  · cases evaluated

/--
A reply is handled safely exactly if every coverage it carries is complete
and, unless the database blocks the caller, no testcase of a registered fuzzer
lacks an entry.
-/
theorem handleReply_safe_iff
    (bloomTest : BloomTest)
    (disk : Nat → SeedWrite)
    (db : FuzzInfoDB)
    (worker : Worker)
    (attempt : Nat)
    (caller : Caller)
    (out : EvaluationOutput) :
    Safe worker out
        (handleReply bloomTest disk db worker attempt caller out) ↔
      (∀ entry ∈ out.evalData, CovSize ≤ entry.coverage.length) ∧
        (db.muLocked = true ∨
          ∀ i tc,
            worker.tcBuf[i]? = some tc →
              tc.fuzzerID ∈ db.fuzzerMap →
                i < out.evalData.length) := by
  cases evaluated : evaluate out with
  | none =>
      obtain ⟨entry, member, short⟩ := evaluateEntries_eq_none.mp evaluated
      constructor
      · intro safe
        exact absurd (by simp [handleReply, evaluated]) safe.noPanic
      · rintro ⟨long, _⟩
        have enough := long entry member
        omega
  | some evalDataList =>
      have long : ∀ entry ∈ out.evalData,
          CovSize ≤ entry.coverage.length := by
        intro entry member
        by_contra short
        have panics := evaluateEntries_eq_none.mpr
          ⟨entry, member, by omega⟩
        rw [evaluate, panics] at evaluated
        cases evaluated
      have handled :
          handleReply bloomTest disk db worker attempt caller out =
            addTestcases bloomTest disk db worker.tcBuf evalDataList := by
        simp [handleReply, evaluated, Worker.evaluated, applyEffect]
      have sameLength := evaluateEntries_length evaluated
      rw [handled]
      cases locked : db.muLocked with
      | true =>
          simp only [addTestcases, locked, if_true, true_or, and_true]
          exact ⟨fun _ => long, fun _ => ⟨by simp, by simp⟩⟩
      | false =>
          have panics :
              addTestcasesFrom bloomTest disk evalDataList 0 worker.tcBuf
                  db = none ↔
                ∃ i tc,
                  worker.tcBuf[i]? = some tc ∧
                    tc.fuzzerID ∈ db.fuzzerMap ∧
                    out.evalData.length ≤ i := by
            simpa only [Nat.zero_add, sameLength] using
              @addTestcasesFrom_eq_none bloomTest disk evalDataList 0
                worker.tcBuf db
          cases rounds : addTestcasesFrom bloomTest disk evalDataList 0
              worker.tcBuf db with
          | none =>
              obtain ⟨i, tc, at_, registered, missing⟩ :=
                panics.mp rounds
              constructor
              · intro safe
                exact absurd (by simp [addTestcases, locked, rounds])
                  safe.noPanic
              · rintro ⟨_, enough⟩
                rcases enough with impossible | enough
                · cases impossible
                · have inRange := enough i tc at_ registered
                  omega
          | some result =>
              obtain ⟨final, finalVerdicts⟩ := result
              constructor
              · intro _
                refine ⟨long, .inr ?_⟩
                intro i tc at_ registered
                by_contra missing
                rw [panics.mpr ⟨i, tc, at_, registered, by omega⟩] at rounds
                cases rounds
              · intro _
                refine ⟨by simp [addTestcases, locked, rounds], ?_⟩
                intro next verdicts i tc evalData saved returned handed
                simp only [addTestcases, locked, rounds,
                  Bool.false_eq_true, if_false, Outcome.returned.injEq]
                  at returned
                obtain ⟨rfl, rfl⟩ := returned
                obtain ⟨at_, given, found, sameCov, sameCrash⟩ :=
                  addTestcasesFrom_pairs rounds handed
                rw [Nat.zero_add, evaluateEntries_getElem? evaluated,
                  Option.bind_eq_some_iff] at found
                obtain ⟨entry, entryAt, entryEvaluated⟩ := found
                rw [sameCov, sameCrash]
                exact ⟨at_, entry, entryAt,
                  evaluateEntry_spec entryEvaluated⟩

/-- A registered fuzzer, and a worker that evaluates one of its testcases. -/
def sampleFuzzer : Fuzzer where
  id := ⟨1, 2⟩
  configuration := ⟨"m", "s", "p", true, false, true⟩
  bugsFound := 0
  totalSaveTestcaseCount := 0
  registered := ⟨0, 0⟩

/-- The worker sent one testcase of the registered fuzzer for evaluation. -/
def evaluatingWorker : Worker :=
  { newEvaler ⟨1, 3⟩ with
    tcBuf := [sampleTestcase]
    phase := .evaluating 0 .tick }

/-- A reply without entries crashes the master. -/
theorem empty_reply_panics :
    ∃ db,
      addFuzzer (new "corpus") sampleFuzzer = .returned db (.ok ()) ∧
        ¬ Safe evaluatingWorker ⟨[]⟩
            (handleReply (fun added id => added.contains id)
              (fun _ => ⟨0, true⟩) db evaluatingWorker 0 .tick ⟨[]⟩) := by
  refine ⟨{ new "corpus" with
      covData := (new "corpus").covData.insert ⟨1, 2⟩ (fun _ => 0)
      fuzzerMap := (new "corpus").fuzzerMap.insert ⟨1, 2⟩ sampleFuzzer },
    ?_, ?_⟩
  · have absent : sampleFuzzer.id ∉ (new "corpus").fuzzerMap :=
      Finmap.notMem_empty
    rw [addFuzzer, if_neg (by simp [new]), if_neg absent]
    rfl
  · intro safe
    apply safe.noPanic
    have missing : addTestcasesFrom (fun added id => added.contains id)
        (fun _ => ⟨0, true⟩) [] 0 [sampleTestcase]
        { new "corpus" with
          covData := (new "corpus").covData.insert ⟨1, 2⟩ (fun _ => 0)
          fuzzerMap :=
            (new "corpus").fuzzerMap.insert ⟨1, 2⟩ sampleFuzzer } =
          none :=
      addTestcasesFrom_eq_none.mpr
        ⟨0, sampleTestcase, rfl, by simp [sampleTestcase], by simp⟩
    simp only [handleReply, evaluate, evaluateEntries, Worker.evaluated,
      evaluatingWorker, applyEffect, addTestcases]
    rw [missing]
    rfl

end MeFuzz.EvaluatorReply
