import MeFuzz.MasterState

namespace MeFuzz.Master

/-!
# When the master's tables agree

The worker tables should name exactly the live elements of the nodes.  Every
operation keeps this agreement except starting a worker under an identity that
is not a live evaler, which is what starting a fuzzer always does.
-/

/-- An element of this type is listed by its node. -/
def Live (m : Master) (type : ElementType) (id : ElementID) : Prop :=
  ∃ node,
    m.nodes.lookup id.nodeID = some node ∧
      ⟨id.onNodeID, type⟩ ∈ node.elements

/--
The worker tables name exactly the live elements, so that the test for the
first evaler is right.
-/
structure Exact (m : Master) : Prop where
  evalers : ∀ id, id ∈ m.evalers ↔ m.Live .evaler id
  fuzzers : ∀ id, id ∈ m.fuzzers ↔ m.Live .fuzzer id
  noEvaler : m.evalers.keys.card = 0 ↔ ∀ id, ¬ m.Live .evaler id

/-- When a call keeps the tables exact. -/
def Keeps (m : Master) : Call → Prop
  | .setupNewNode _ _ _ _ => True
  | .startEvaler id => m.Live .evaler id
  | .startFuzzer id => m.Live .evaler id
  | .elementDeleted element nodeType =>
      nodeType = .evaler ∨ nodeType = .fuzzer ∨ ¬ m.Live .fuzzer element

theorem exact_of_tables
    {m : Master}
    (evalers : ∀ id, id ∈ m.evalers ↔ m.Live .evaler id)
    (fuzzers : ∀ id, id ∈ m.fuzzers ↔ m.Live .fuzzer id) :
    m.Exact := by
  refine ⟨evalers, fuzzers, ?_⟩
  rw [Finset.card_eq_zero, Finset.eq_empty_iff_forall_notMem]
  simp only [Finmap.mem_keys, evalers]

variable {nodeID : NodeID}
variable {state : Master × Node}

theorem live_writeBack
    {type : ElementType}
    {id : ElementID} :
    (writeBack nodeID state).Live type id ↔
      if id.nodeID = nodeID then ⟨id.onNodeID, type⟩ ∈ state.2.elements
      else state.1.Live type id := by
  by_cases same : id.nodeID = nodeID
  · subst same
    simp [Live, writeBack]
  · simp [Live, writeBack, same, Finmap.lookup_insert_of_ne]

theorem live_append
    {state next : Master × Node}
    {added : Element}
    (elements : next.2.elements = state.2.elements ++ [added])
    (nodes : next.1.nodes = state.1.nodes)
    (type : ElementType)
    (id : ElementID) :
    (writeBack nodeID next).Live type id ↔
      (writeBack nodeID state).Live type id ∨
        id = ⟨nodeID, added.onNodeID⟩ ∧ type = added.type := by
  obtain ⟨node, onNode⟩ := id
  obtain ⟨addedID, addedType⟩ := added
  rw [live_writeBack, live_writeBack]
  by_cases same : node = nodeID
  · simp [elements, same]
  · simp [Live, nodes, same]

theorem exact_append
    {state next : Master × Node}
    (added : Element)
    (tables : (writeBack nodeID state).Exact)
    (elements : next.2.elements = state.2.elements ++ [added])
    (nodes : next.1.nodes = state.1.nodes)
    (evalers : ∀ id,
      id ∈ next.1.evalers ↔
        id ∈ state.1.evalers ∨
          id = ⟨nodeID, added.onNodeID⟩ ∧ .evaler = added.type)
    (fuzzers : ∀ id,
      id ∈ next.1.fuzzers ↔
        id ∈ state.1.fuzzers ∨
          id = ⟨nodeID, added.onNodeID⟩ ∧ .fuzzer = added.type) :
    (writeBack nodeID next).Exact := by
  apply exact_of_tables
  · intro id
    rw [live_append elements nodes, ← tables.evalers]
    exact evalers id
  · intro id
    rw [live_append elements nodes, ← tables.fuzzers]
    exact fuzzers id

theorem exact_newEvaler
    (tables : (writeBack nodeID state).Exact)
    (uuid : OnNodeID) :
    (writeBack nodeID (newEvaler nodeID uuid state)).Exact := by
  refine exact_append ⟨uuid, .evaler⟩ tables rfl rfl ?_ ?_
  · intro id
    simp [newEvaler, Finmap.mem_insert, or_comm]
  · intro id
    simp [newEvaler]

theorem exact_newFuzzer
    (tables : (writeBack nodeID state).Exact)
    (conf : FuzzerConf)
    (now : Time) :
    (writeBack nodeID (newFuzzer nodeID conf now state)).Exact := by
  have entered : ∀ id,
      id ∈ state.1.fuzzers.insert
          ⟨nodeID, state.2.fuzzerByAllTime + 1⟩ .noopWorker ↔
        id ∈ state.1.fuzzers ∨
          id = ⟨nodeID, state.2.fuzzerByAllTime + 1⟩ ∧
            ElementType.fuzzer = .fuzzer := by
    intro id
    simp [Finmap.mem_insert, or_comm]
  have untouched : ∀ id,
      id ∈ state.1.evalers ↔
        id ∈ state.1.evalers ∨
          id = ⟨nodeID, state.2.fuzzerByAllTime + 1⟩ ∧
            ElementType.evaler = .fuzzer := by
    intro id
    simp
  simp only [newFuzzer]
  split <;>
    exact exact_append ⟨state.2.fuzzerByAllTime + 1, .fuzzer⟩ tables
      rfl rfl untouched entered

theorem exact_newFuzzers
    {now : Time}
    (remaining : Nat)
    (tables : (writeBack nodeID state).Exact) :
    (writeBack nodeID (newFuzzers nodeID now remaining state)).Exact := by
  induction remaining generalizing state with
  | zero =>
      exact tables
  | succ remaining ih =>
      have one := exact_newFuzzer tables defaultConf now
      rw [newFuzzers]
      split
      · exact one
      · exact ih one

theorem exact_assignRoles
    (tables : (writeBack nodeID state).Exact)
    (cores : Int)
    (manualRole : String)
    (env : SetupEnv) :
    (writeBack nodeID
      (assignRoles nodeID cores manualRole env state)).Exact := by
  have fuzzers : ∀ {other : Master × Node} {count size : Nat},
      (writeBack nodeID other).Exact →
        (writeBack nodeID
          (if !other.1.isTest then
              newFuzzers nodeID env.now count other
            else if size ≠ 0 then
              newFuzzer nodeID defaultConf env.now other
            else other)).Exact := by
    intro other count size otherTables
    split
    · exact exact_newFuzzers _ otherTables
    · split
      · exact exact_newFuzzer otherTables _ _
      · exact otherTables
  unfold assignRoles
  split
  · exact exact_newFuzzer tables _ _
  · split
    · exact exact_newEvaler tables _
    · unfold chooseRoles
      dsimp only
      apply fuzzers
      split
      · exact exact_newEvaler tables _
      · split
        · exact exact_newEvaler tables _
        · exact tables

theorem exact_nodeFor
    {m : Master}
    (tables : m.Exact)
    {cores : Int}
    {node : Node}
    (found : m.nodeFor nodeID cores = some node) :
    (writeBack nodeID (m, node)).Exact := by
  have sameLive : ∀ type id,
      (writeBack nodeID (m, node)).Live type id ↔ m.Live type id := by
    intro type id
    rw [live_writeBack]
    by_cases same : id.nodeID = nodeID
    · subst same
      unfold nodeFor at found
      split at found
      · rename_i known lookup
        cases found
        simp [Live, lookup]
      · rename_i lookup
        split at found
        · cases found
        · cases found
          simp [Live, lookup]
    · simp [same]
  apply exact_of_tables
  · intro id
    rw [sameLive]
    exact tables.evalers id
  · intro id
    rw [sameLive]
    exact tables.fuzzers id

variable {m next : Master}

theorem exact_setupNewNode
    {reply : SetupReply}
    (tables : m.Exact)
    {cores : Int}
    {manualRole : String}
    {env : SetupEnv}
    (taken :
      m.setupNewNode nodeID cores manualRole env = some (next, reply)) :
    next.Exact := by
  unfold setupNewNode at taken
  split at taken
  · cases taken
  · dsimp only at taken
    split at taken
    · cases taken
    · rename_i node found
      have start := exact_nodeFor tables found
      split at taken
      · cases taken
        exact start
      · cases taken
        exact exact_assignRoles start _ _ _

theorem exact_started_iff
    {m : Master}
    (tables : m.Exact)
    (id : ElementID)
    (entry : WorkerEntry) :
    ({ m with evalers := m.evalers.insert id entry } : Master).Exact ↔
      m.Live .evaler id := by
  constructor
  · intro after
    exact (after.evalers id).mp (by simp [Finmap.mem_insert])
  · intro live
    apply exact_of_tables
    · intro other
      rw [Finmap.mem_insert, tables.evalers]
      constructor
      · rintro (rfl | old)
        · exact live
        · exact old
      · exact .inr
    · exact tables.fuzzers

variable {element : ElementID}
variable {nodeType : ElementType}

theorem elementDeleted_cases
    (taken : m.elementDeleted element nodeType = some next) :
    ∃ node,
      m.nodes.lookup element.nodeID = some node ∧
        next.nodes =
          m.nodes.insert element.nodeID
            { node with
              elements := node.elements.filter fun el =>
                !(el.onNodeID == element.onNodeID &&
                  el.type == nodeType) } ∧
        next.evalers =
          (if nodeType = .evaler then m.evalers.erase element
            else m.evalers) ∧
        next.fuzzers =
          (if nodeType = .evaler then m.fuzzers
            else m.fuzzers.erase element) := by
  unfold elementDeleted at taken
  split at taken
  · cases taken
  · split at taken
    · cases taken
    · rename_i node found
      refine ⟨node, found, ?_⟩
      dsimp only at taken
      split at taken
      · rename_i isEvaler
        cases taken
        simp [writeBack, isEvaler]
      · rename_i notEvaler
        split at taken
        · cases taken
          simp [writeBack, notEvaler]
        · cases taken
          simp [writeBack, notEvaler]
        · cases taken

theorem live_elementDeleted
    (taken : m.elementDeleted element nodeType = some next)
    (type : ElementType)
    (id : ElementID) :
    next.Live type id ↔
      m.Live type id ∧ ¬ (id = element ∧ type = nodeType) := by
  obtain ⟨node, found, nodes, _, _⟩ := elementDeleted_cases taken
  obtain ⟨nodeID, onNodeID⟩ := id
  obtain ⟨elementNode, elementOnNode⟩ := element
  by_cases same : nodeID = elementNode
  · subst same
    simp only [Live, nodes, found, Finmap.lookup_insert,
      Option.some.injEq, exists_eq_left', List.mem_filter,
      ElementID.mk.injEq, true_and]
    simp only [Bool.not_eq_true', Bool.and_eq_false_iff, beq_eq_false_iff_ne]
    tauto
  · simp [Live, nodes, same]

theorem exact_elementDeleted_iff
    (tables : m.Exact)
    (taken : m.elementDeleted element nodeType = some next) :
    next.Exact ↔
      nodeType = .evaler ∨ nodeType = .fuzzer ∨
        ¬ m.Live .fuzzer element := by
  have live := live_elementDeleted taken
  obtain ⟨_, _, _, evalers, fuzzers⟩ := elementDeleted_cases taken
  by_cases isEvaler : nodeType = .evaler
  · subst isEvaler
    simp only [if_true] at evalers fuzzers
    simp only [true_or, iff_true]
    apply exact_of_tables
    · intro id
      rw [evalers, live, Finmap.mem_erase, tables.evalers]
      tauto
    · intro id
      rw [fuzzers, live, tables.fuzzers]
      simp
  · rw [if_neg isEvaler] at evalers fuzzers
    simp only [isEvaler, false_or]
    constructor
    · intro after
      by_contra misnamed
      simp only [not_or, not_not] at misnamed
      have erased := after.fuzzers element
      rw [fuzzers, live, Finmap.mem_erase] at erased
      have survives :
          m.Live .fuzzer element ∧
            ¬ (element = element ∧ ElementType.fuzzer = nodeType) :=
        ⟨misnamed.2, fun both => misnamed.1 both.2.symm⟩
      exact (erased.mpr survives).1 rfl
    · intro named
      apply exact_of_tables
      · intro id
        rw [evalers, live, tables.evalers]
        constructor
        · intro old
          exact ⟨old, fun both => isEvaler both.2.symm⟩
        · exact And.left
      · intro id
        rw [fuzzers, live, Finmap.mem_erase, tables.fuzzers]
        rcases named with isFuzzer | notLive
        · subst isFuzzer
          tauto
        · constructor
          · rintro ⟨different, old⟩
            exact ⟨old, fun both => different both.1⟩
          · rintro ⟨old, _⟩
            refine ⟨?_, old⟩
            rintro rfl
            exact notLive old

theorem exact_step_iff
    {call : Call}
    (tables : m.Exact)
    (taken : Step m call next) :
    next.Exact ↔ m.Keeps call := by
  cases call with
  | setupNewNode nodeID cores manualRole env =>
      obtain ⟨result, reached, rfl⟩ := Option.map_eq_some_iff.mp taken
      exact iff_of_true (exact_setupNewNode tables reached) trivial
  | startEvaler id =>
      have started : m.startEvaler id = some next := taken
      unfold startEvaler at started
      split at started
      · cases started
      · cases started
        exact exact_started_iff tables id _
  | startFuzzer id =>
      have started : m.startFuzzer id = some next := taken
      unfold startFuzzer at started
      split at started
      · cases started
      · cases started
        exact exact_started_iff tables id _
  | elementDeleted element nodeType =>
      exact exact_elementDeleted_iff tables taken

theorem exact_newMaster (db : InfoDb.FuzzInfoDB) :
    (newMaster db).Exact := by
  apply exact_of_tables <;>
    simp [newMaster, Live, Finmap.notMem_empty]

/--
Along any sequence of calls, the tables stay exact if and only if no call
starts a worker under an identity other than a live evaler's, or deletes a live
fuzzer as something else.
-/
theorem exact_iff_calls_keep
    (db : InfoDb.FuzzInfoDB)
    (calls : List Call) :
    Run.Always Step Exact (newMaster db) calls ↔
      Run.Everywhere Step Keeps (newMaster db) calls := by
  refine Run.always_iff_everywhere ?_ (exact_newMaster db) calls
  intro m call next tables taken
  exact exact_step_iff tables taken

/--
Setting up a node with one fuzzer and starting that fuzzer leaves an evaler in
the table although no evaler is alive.
-/
theorem started_fuzzer_counts_as_evaler :
    ∃ m,
      Run Step (newMaster (InfoDb.new "corpus"))
          [.setupNewNode 1 1 "fuzz" ⟨0, 0, ⟨0, 0⟩⟩,
            .startFuzzer ⟨1, 1⟩] m ∧
        (∀ id, ¬ m.Live .evaler id) ∧
        m.evalers.keys.card ≠ 0 ∧
        ¬ m.Exact := by
  let start := newMaster (InfoDb.new "corpus")
  let state := newFuzzer 1 defaultConf ⟨0, 0⟩ (start, ⟨[], 1, 0⟩)
  let setUp := writeBack 1 state
  let final : Master :=
    { setUp with evalers := setUp.evalers.insert ⟨1, 1⟩ .fuzzer }
  have setUpTaken :
      step? start (.setupNewNode 1 1 "fuzz" ⟨0, 0, ⟨0, 0⟩⟩) =
        some setUp := by
    simp [step?, setupNewNode, start, newMaster, nodeFor, assignRoles,
      setUp, state]
  have startTaken :
      step? setUp (.startFuzzer ⟨1, 1⟩) = some final := by
    have free : setUp.muHeld = false :=
      newFuzzer_muHeld rfl 1 defaultConf ⟨0, 0⟩
    simp [step?, startFuzzer, free, final]
  have noEvaler : ∀ id, ¬ final.Live .evaler id := by
    intro id live
    have setUpLive : setUp.Live .evaler id := live
    rw [live_writeBack] at setUpLive
    split at setUpLive
    · simp [state] at setUpLive
    · simp [Live, state, start, newMaster] at setUpLive
  have entered : final.evalers.keys.card ≠ 0 := by
    rw [Finset.card_ne_zero]
    exact ⟨⟨1, 1⟩, by simp [final, Finmap.mem_keys, Finmap.mem_insert]⟩
  refine ⟨final, .cons setUpTaken (.cons startTaken (.nil final)),
    noEvaler, entered, ?_⟩
  intro tables
  exact entered (tables.noEvaler.mpr noEvaler)

end MeFuzz.Master
