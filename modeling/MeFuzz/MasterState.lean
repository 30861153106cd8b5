import MeFuzz.TransitionRun
import MeFuzz.InfoDbState

namespace MeFuzz

open InfoDb

/-!
# The master's tables

The master keeps a table of nodes with their elements, and two tables of
workers, one for fuzzers and one for evalers.  Four operations update them
under one mutex.
-/

/-- An element as a node lists it. -/
structure Element where
  onNodeID : OnNodeID
  type : ElementType
  deriving Repr, DecidableEq

/-- A node; its identity is the key under which it is stored. -/
structure Node where
  elements : List Element
  cores : Int
  fuzzerByAllTime : UInt32
  deriving Repr, DecidableEq

/-- What stands behind an entry of a worker table. -/
inductive WorkerEntry where
  | noopWorker
  | evaler
  | fuzzer
  deriving Repr, DecidableEq

/--
The master's state.  `muHeld` records that a call got stuck in the database
while it held the mutex; no later call can enter.
-/
structure Master where
  isTest : Bool
  muHeld : Bool
  db : FuzzInfoDB
  nodes : Finmap fun _ : NodeID => Node
  fuzzers : Finmap fun _ : ElementID => WorkerEntry
  evalers : Finmap fun _ : ElementID => WorkerEntry

namespace Master

/-- `NewMaster`. -/
def newMaster (db : FuzzInfoDB) : Master where
  isTest := true
  muHeld := false
  db := db
  nodes := ∅
  fuzzers := ∅
  evalers := ∅

def testcaseChanBuf : Nat := 1024

/-- `int(math.Ceil(0.90*TestcaseChanBuf))`. -/
def evalerThreshold : Nat := (testcaseChanBuf * 90 + 99) / 100

/-- What `SetupNewNode` takes from its surroundings. -/
structure SetupEnv where
  uuid : OnNodeID
  testcases : Nat
  now : Time
  deriving Repr, DecidableEq

/-- What `SetupNewNode` returns, unless it gets stuck. -/
inductive SetupReply where
  | setUp (elements : List Element)
  | errMaxElements
  | stuck
  deriving Repr, DecidableEq

/-- `newEvaler`. -/
def newEvaler
    (nodeID : NodeID)
    (uuid : OnNodeID)
    (state : Master × Node) : Master × Node :=
  ({ state.1 with
      evalers := state.1.evalers.insert ⟨nodeID, uuid⟩ .noopWorker },
    { state.2 with
      elements := state.2.elements ++ [⟨uuid, .evaler⟩] })

/-- The configuration that `SetupNewNode` gives to every fuzzer. -/
def defaultConf : FuzzerConf where
  mutatorID := "mut1"
  scheduleID := ""
  poolID := ""
  isHavoc := false
  isConcolic := false
  forkMode := true

/-- `newFuzzer`; an error of the database is only logged. -/
def newFuzzer
    (nodeID : NodeID)
    (conf : FuzzerConf)
    (now : Time)
    (state : Master × Node) : Master × Node :=
  let onNodeID := state.2.fuzzerByAllTime + 1
  let id : ElementID := ⟨nodeID, onNodeID⟩
  let node : Node :=
    { state.2 with
      fuzzerByAllTime := onNodeID
      elements := state.2.elements ++ [⟨onNodeID, .fuzzer⟩] }
  let m : Master :=
    { state.1 with fuzzers := state.1.fuzzers.insert id .noopWorker }
  let f : Fuzzer :=
    { id := id
      configuration := conf
      bugsFound := 0
      totalSaveTestcaseCount := 0
      registered := now }
  match addFuzzer m.db f with
  | .returned db _ => ({ m with db := db }, node)
  | .blocked => ({ m with muHeld := true }, node)
  | .panicked => (m, node)

@[simp] theorem newFuzzer_elements
    (nodeID : NodeID)
    (conf : FuzzerConf)
    (now : Time)
    (state : Master × Node) :
    (newFuzzer nodeID conf now state).2.elements =
      state.2.elements ++ [⟨state.2.fuzzerByAllTime + 1, .fuzzer⟩] := by
  simp only [newFuzzer]
  split <;> rfl

@[simp] theorem newFuzzer_nodes
    (nodeID : NodeID)
    (conf : FuzzerConf)
    (now : Time)
    (state : Master × Node) :
    (newFuzzer nodeID conf now state).1.nodes = state.1.nodes := by
  simp only [newFuzzer]
  split <;> rfl

theorem newFuzzer_muHeld
    {state : Master × Node}
    (free : state.1.db.muLocked = false)
    (nodeID : NodeID)
    (conf : FuzzerConf)
    (now : Time) :
    (newFuzzer nodeID conf now state).1.muHeld = state.1.muHeld := by
  simp only [newFuzzer]
  split
  · rfl
  · rename_i blocked
    unfold addFuzzer at blocked
    rw [if_neg (by simp [free])] at blocked
    split at blocked <;> cases blocked
  · rfl

/-- The loop that fills a node with fuzzers, with `remaining` rounds to go. -/
def newFuzzers
    (nodeID : NodeID)
    (now : Time) :
    Nat → Master × Node → Master × Node
  | 0, state => state
  | remaining + 1, state =>
      let next := newFuzzer nodeID defaultConf now state
      if next.1.muHeld then next else newFuzzers nodeID now remaining next

/-- The automatic choice of roles. -/
def chooseRoles
    (nodeID : NodeID)
    (cores : Int)
    (env : SetupEnv)
    (state : Master × Node) : Master × Node :=
  let lastElementInd := state.2.elements.length
  let state :=
    if state.1.evalers.keys.card = 0 then
      newEvaler nodeID env.uuid state
    else if env.testcases > evalerThreshold then
      newEvaler nodeID env.uuid state
    else state
  if !state.1.isTest then
    newFuzzers nodeID env.now
      (cores - state.2.elements.length).toNat state
  else if lastElementInd ≠ 0 then
    newFuzzer nodeID defaultConf env.now state
  else state

/-- The elements that `SetupNewNode` adds to a node. -/
def assignRoles
    (nodeID : NodeID)
    (cores : Int)
    (manualRole : String)
    (env : SetupEnv)
    (state : Master × Node) : Master × Node :=
  if manualRole = "fuzz" then newFuzzer nodeID defaultConf env.now state
  else if manualRole = "eval" then newEvaler nodeID env.uuid state
  else chooseRoles nodeID cores env state

/-- The node is a pointer: what is done to it is seen in the table. -/
def writeBack (nodeID : NodeID) (state : Master × Node) : Master :=
  { state.1 with nodes := state.1.nodes.insert nodeID state.2 }

/--
The node of a connection.  For a new node, `make` with a negative capacity, or
with one beyond the address space, panics.
-/
def nodeFor (m : Master) (nodeID : NodeID) (cores : Int) : Option Node :=
  match m.nodes.lookup nodeID with
  | some node => some node
  | none =>
      if cores < 0 ∨ 2 ^ 45 < cores then none
      else some { elements := [], cores := cores, fuzzerByAllTime := 0 }

/-- `SetupNewNode`; `none` when the call blocks at the mutex or panics. -/
def setupNewNode
    (m : Master)
    (nodeID : NodeID)
    (cores : Int)
    (manualRole : String)
    (env : SetupEnv) : Option (Master × SetupReply) :=
  if m.muHeld then none
  else
    let cores := if cores = 0 then 1 else cores
    match m.nodeFor nodeID cores with
    | none => none
    | some node =>
        if 2 * node.cores < node.elements.length then
          some (writeBack nodeID (m, node), .errMaxElements)
        else
          let final := assignRoles nodeID cores manualRole env (m, node)
          some (writeBack nodeID final,
            if final.1.muHeld then .stuck
            else
              .setUp (final.2.elements.drop node.elements.length))

/--
`elementDeleted`; `none` when the call blocks at the mutex, or when the node is
unknown and the nil pointer is used.
-/
def elementDeleted
    (m : Master)
    (element : ElementID)
    (nodeType : ElementType) : Option Master :=
  if m.muHeld then none
  else
    match m.nodes.lookup element.nodeID with
    | none => none
    | some node =>
        let node : Node :=
          { node with
            elements := node.elements.filter fun el =>
              !(el.onNodeID == element.onNodeID && el.type == nodeType) }
        let m := writeBack element.nodeID (m, node)
        if nodeType = .evaler then
          some { m with evalers := m.evalers.erase element }
        else
          let m : Master := { m with fuzzers := m.fuzzers.erase element }
          match deleteFuzzer m.db element with
          | .returned db _ => some { m with db := db }
          | .blocked => some { m with muHeld := true }
          | .panicked => none

/-- `StartEvaler`. -/
def startEvaler (m : Master) (id : ElementID) : Option Master :=
  if m.muHeld then none
  else some { m with evalers := m.evalers.insert id .evaler }

/-- `StartFuzzer`: the worker is entered into the table of evalers. -/
def startFuzzer (m : Master) (id : ElementID) : Option Master :=
  if m.muHeld then none
  else some { m with evalers := m.evalers.insert id .fuzzer }

/-- One call on the master. -/
inductive Call where
  | setupNewNode
      (nodeID : NodeID) (cores : Int) (manualRole : String)
      (env : SetupEnv)
  | startEvaler (id : ElementID)
  | startFuzzer (id : ElementID)
  | elementDeleted (element : ElementID) (nodeType : ElementType)
  deriving Repr, DecidableEq

/-- The state after one call, if the call gets that far. -/
def step? (m : Master) : Call → Option Master
  | .setupNewNode nodeID cores manualRole env =>
      (m.setupNewNode nodeID cores manualRole env).map Prod.fst
  | .startEvaler id => m.startEvaler id
  | .startFuzzer id => m.startFuzzer id
  | .elementDeleted element nodeType => m.elementDeleted element nodeType

/-- Calls on the master, in any order. -/
abbrev Step : StepRelation Master Call :=
  StepRelation.ofFunction step?

/-- The evalers among elements. -/
def evalersOf (elements : List Element) : List Element :=
  elements.filter fun el => el.type = .evaler

theorem evalersOf_append
    (first second : List Element) :
    evalersOf (first ++ second) = evalersOf first ++ evalersOf second :=
  List.filter_append _ _

theorem newFuzzers_evalers
    (nodeID : NodeID)
    (now : Time)
    (remaining : Nat)
    (state : Master × Node) :
    ∃ added,
      (newFuzzers nodeID now remaining state).2.elements =
          state.2.elements ++ added ∧
        evalersOf added = [] := by
  induction remaining generalizing state with
  | zero => exact ⟨[], by simp [newFuzzers], rfl⟩
  | succ remaining ih =>
      simp only [newFuzzers]
      split
      · exact ⟨_, newFuzzer_elements nodeID defaultConf now state, rfl⟩
      · obtain ⟨added, elements, none⟩ :=
          ih (newFuzzer nodeID defaultConf now state)
        refine ⟨⟨state.2.fuzzerByAllTime + 1, .fuzzer⟩ :: added, ?_, none⟩
        rw [elements, newFuzzer_elements, List.append_assoc,
          List.singleton_append]

theorem chooseRoles_evalers
    (nodeID : NodeID)
    (cores : Int)
    (env : SetupEnv)
    (state : Master × Node) :
    ∃ added,
      (chooseRoles nodeID cores env state).2.elements =
          state.2.elements ++ added ∧
        (evalersOf added).length ≤ 1 := by
  have fill :
      ∀ start : Master × Node, ∀ first : List Element,
        start.2.elements = state.2.elements ++ first →
          (evalersOf first).length ≤ 1 →
            ∃ added,
              (if !start.1.isTest then
                  newFuzzers nodeID env.now
                    (cores - start.2.elements.length).toNat start
                else if state.2.elements.length ≠ 0 then
                  newFuzzer nodeID defaultConf env.now start
                else start).2.elements =
                  state.2.elements ++ added ∧
                (evalersOf added).length ≤ 1 := by
    intro start first elements few
    split
    · obtain ⟨added, filled, none⟩ :=
        newFuzzers_evalers nodeID env.now
          (cores - start.2.elements.length).toNat start
      refine ⟨first ++ added, ?_, ?_⟩
      · rw [filled, elements, List.append_assoc]
      · rw [evalersOf_append, none, List.append_nil]
        exact few
    · split
      · refine ⟨first ++ [⟨start.2.fuzzerByAllTime + 1, .fuzzer⟩], ?_, ?_⟩
        · rw [newFuzzer_elements, elements, List.append_assoc]
        · simpa [evalersOf_append, evalersOf] using few
      · exact ⟨first, elements, few⟩
  simp only [chooseRoles]
  split
  · exact fill (newEvaler nodeID env.uuid state) [⟨env.uuid, .evaler⟩] rfl
      (Nat.le_refl 1)
  · split
    · exact fill (newEvaler nodeID env.uuid state) [⟨env.uuid, .evaler⟩] rfl
        (Nat.le_refl 1)
    · exact fill state [] (by simp) (by decide)

theorem assignRoles_evalers
    (nodeID : NodeID)
    (cores : Int)
    (manualRole : String)
    (env : SetupEnv)
    (state : Master × Node) :
    ∃ added,
      (assignRoles nodeID cores manualRole env state).2.elements =
          state.2.elements ++ added ∧
        (evalersOf added).length ≤ 1 := by
  simp only [assignRoles]
  split
  · exact ⟨_, newFuzzer_elements nodeID defaultConf env.now state,
      Nat.zero_le 1⟩
  · split
    · exact ⟨[⟨env.uuid, .evaler⟩], rfl, Nat.le_refl 1⟩
    · exact chooseRoles_evalers nodeID cores env state

theorem setupNewNode_evalers
    {m next : Master}
    {nodeID : NodeID}
    {cores : Int}
    {manualRole : String}
    {env : SetupEnv}
    {elements : List Element}
    (replied :
      m.setupNewNode nodeID cores manualRole env =
        some (next, .setUp elements)) :
    (evalersOf elements).length ≤ 1 := by
  unfold setupNewNode at replied
  generalize (if cores = 0 then 1 else cores) = count at replied
  split at replied
  · cases replied
  · simp only at replied
    split at replied
    · cases replied
    · rename_i node _
      split at replied
      · simp at replied
      · obtain ⟨added, grown, few⟩ :=
          assignRoles_evalers nodeID count manualRole env (m, node)
        simp only [Option.some.injEq, Prod.mk.injEq] at replied
        have reply := replied.2
        split at reply
        · exact SetupReply.noConfusion reply
        · rw [grown, List.drop_left, SetupReply.setUp.injEq] at reply
          rw [← reply]
          exact few

end Master

end MeFuzz
