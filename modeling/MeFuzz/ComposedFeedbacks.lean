import MeFuzz.MapFeedbackAccess

namespace MeFuzz.Feedbacks.Composed

/-!
# Composed feedbacks

Feedbacks are combined with the eager and the fast operations and inverted.  What
is appended to a testcase is asked of all feedbacks, also of those that a fast
operation has not asked about the execution.  A testcase keeps its metadata by their
type, so that a later feedback replaces the record of an earlier one.  The histories of map feedbacks are
kept in the state, under the type of their entries and a name.
-/

/-- `FeedbackLogic`. -/
inductive FeedbackLogic where
  | logicEagerOr
  | logicFastOr
  | logicEagerAnd
  | logicFastAnd
  deriving Repr, DecidableEq

/-- Whether the second feedback is asked after a verdict of the first. -/
def FeedbackLogic.asksSecond : FeedbackLogic → Bool → Bool
  | .logicEagerOr, _ => true
  | .logicFastOr, a => !a
  | .logicEagerAnd, _ => true
  | .logicFastAnd, a => a

/-- The verdict of two feedbacks, if both are asked. -/
def FeedbackLogic.both : FeedbackLogic → Bool → Bool → Bool
  | .logicEagerOr, a, b => a || b
  | .logicFastOr, _, b => b
  | .logicEagerAnd, a, b => a && b
  | .logicFastAnd, _, b => b

/-- A testcase without metadata. -/
def emptyMetadata : TestcaseMetadata :=
  ⟨none, none⟩

/-- `add_metadata`.  A testcase keeps one record of each type, the last one added. -/
def addMetadata (testcase added : TestcaseMetadata) : TestcaseMetadata :=
  ⟨added.novelties.or testcase.novelties, added.indexes.or testcase.indexes⟩

section

variable {Kind : Type}
variable (Entry : Kind → Type)

/-- The histories of map feedbacks, among the named metadata of the state. -/
abbrev Histories :=
  (kind : Kind) → String → Option (List (Entry kind))

/--
An execution: the observers by their names, what feedbacks without a map say about
it, whether it is a solution, and whether its input is added in any case.
-/
structure Execution where
  observers : (kind : Kind) → String → Option (MapObserver (Entry kind))
  verdicts : Nat → Bool
  isSolution : Bool
  forced : Bool

/-- A map feedback in a tree. -/
structure Leaf where
  kind : Kind
  strategy : Strategy (Entry kind)
  name : String
  observerName : String
  indexes : Bool
  novelties : Option (List Nat)

/-- A feedback. -/
inductive Feedback where
  | other (id : Nat)
  | map (leaf : Leaf Entry)
  | combined (logic : FeedbackLogic) (first second : Feedback)
  | not (first : Feedback)

/-- A feedback that was asked about an execution. -/
structure Asked where
  verdict : Bool
  feedback : Feedback Entry
  histories : Histories Entry

/-- A feedback that was told to append its metadata, and the testcase's. -/
structure Appended where
  testcase : TestcaseMetadata
  feedback : Feedback Entry
  histories : Histories Entry

end

section

variable {Kind : Type}
variable [DecidableEq Kind]
variable {Entry : Kind → Type}

/-- A history is replaced. -/
def Histories.set
    (histories : Histories Entry)
    (kind : Kind)
    (name : String)
    (historyMap : List (Entry kind)) : Histories Entry :=
  Function.update histories kind
    (Function.update (histories kind) name (some historyMap))

namespace Leaf

/-- The map feedback, with the history that it finds. -/
def toMapFeedback
    (leaf : Leaf Entry)
    (historyMap : List (Entry leaf.kind)) : MapFeedback (Entry leaf.kind) :=
  ⟨leaf.indexes, leaf.novelties, historyMap⟩

/-- `MapFeedback::is_interesting`. -/
def isInteresting
    (leaf : Leaf Entry)
    (execution : Execution Entry)
    (histories : Histories Entry) : Option (Asked Entry) :=
  match execution.observers leaf.kind leaf.observerName,
    histories leaf.kind leaf.name with
  | some observer, some historyMap =>
      (leaf.strategy.isInteresting observer (leaf.toMapFeedback historyMap)).map
        fun (verdict, self) =>
          { verdict
            feedback := .map { leaf with novelties := self.novelties }
            histories := histories.set leaf.kind leaf.name self.historyMap }
  | _, _ => none

/-- `MapFeedback::append_metadata`. -/
def appendMetadata
    (leaf : Leaf Entry)
    (execution : Execution Entry)
    (histories : Histories Entry)
    (testcase : TestcaseMetadata) : Option (Appended Entry) :=
  match execution.observers leaf.kind leaf.observerName,
    histories leaf.kind leaf.name with
  | some observer, some historyMap =>
      (leaf.strategy.append observer (leaf.toMapFeedback historyMap)).map
        fun (metadata, self) =>
          { testcase := addMetadata testcase metadata
            feedback := .map { leaf with novelties := self.novelties }
            histories := histories.set leaf.kind leaf.name self.historyMap }
  | _, _ => none

end Leaf

namespace Feedback

/-- `is_interesting`. -/
def isInteresting :
    Feedback Entry → Execution Entry → Histories Entry → Option (Asked Entry)
  | .other id, execution, histories =>
      some ⟨execution.verdicts id, .other id, histories⟩
  | .map leaf, execution, histories => leaf.isInteresting execution histories
  | .combined logic first second, execution, histories => do
      let a ← first.isInteresting execution histories
      if logic.asksSecond a.verdict then
        let b ← second.isInteresting execution a.histories
        some
          ⟨logic.both a.verdict b.verdict,
            .combined logic a.feedback b.feedback, b.histories⟩
      else some ⟨a.verdict, .combined logic a.feedback second, a.histories⟩
  | .not first, execution, histories => do
      let a ← first.isInteresting execution histories
      some ⟨!a.verdict, .not a.feedback, a.histories⟩

/-- `append_metadata`. -/
def appendMetadata :
    Feedback Entry → Execution Entry → Histories Entry → TestcaseMetadata →
      Option (Appended Entry)
  | .other id, _, histories, testcase => some ⟨testcase, .other id, histories⟩
  | .map leaf, execution, histories, testcase =>
      leaf.appendMetadata execution histories testcase
  | .combined logic first second, execution, histories, testcase => do
      let a ← first.appendMetadata execution histories testcase
      let b ← second.appendMetadata execution a.histories a.testcase
      some ⟨b.testcase, .combined logic a.feedback b.feedback, b.histories⟩
  | .not first, execution, histories, testcase => do
      let a ← first.appendMetadata execution histories testcase
      some ⟨a.testcase, .not a.feedback, a.histories⟩

end Feedback

/-- A feedback of the fuzzer and the state of its histories. -/
structure Fuzzer (Entry : Kind → Type) where
  feedback : Feedback Entry
  histories : Histories Entry

/-- Metadata are appended where the input is interesting or added in any case. -/
def Execution.adds
    (execution : Execution Entry)
    (verdict : Bool) : Bool :=
  verdict || execution.forced

/--
`process_execution` and `add_input`, for the feedback.  It is not asked about
solutions, and nothing is done to discard its metadata.
-/
def processExecution
    (fuzzer : Fuzzer Entry)
    (execution : Execution Entry) : Option (Fuzzer Entry) :=
  if execution.isSolution then some fuzzer
  else do
    let asked ← fuzzer.feedback.isInteresting execution fuzzer.histories
    if execution.adds asked.verdict then
      let appended ←
        asked.feedback.appendMetadata execution asked.histories emptyMetadata
      some ⟨appended.feedback, appended.histories⟩
    else some ⟨asked.feedback, asked.histories⟩

/-- Executions are steps. -/
def Step : StepRelation (Fuzzer Entry) (Execution Entry) :=
  .ofFunction processExecution

end

end MeFuzz.Feedbacks.Composed
