import MeFuzz.MasterRoles
import MeFuzz.MasterBookkeeping

namespace MeFuzz.Master

/-!
# The capacity of a node

`SetupNewNode` refuses a node that has more than two elements for each core.
It compares before it adds anything, so that a node which is full is not
refused yet, and takes whatever the call adds.
-/

/-- No node has more than two elements for each core. -/
def WithinCapacity (m : Master) : Prop :=
  ∀ nodeID node,
    m.nodes.lookup nodeID = some node →
      (node.elements.length : Int) ≤ 2 * node.cores

/-- A connecting node has room for the elements that the call asks for. -/
def Fits (m : Master) : Call → Prop
  | .setupNewNode nodeID cores manualRole env =>
      ∀ node,
        m.nodeFor nodeID (givenCores cores) = some node →
          (node.elements.length : Int) +
              (m.wanted node (givenCores cores) manualRole env).length ≤
            2 * node.cores
  | .startEvaler _ => True
  | .startFuzzer _ => True
  | .elementDeleted _ _ => True

variable {nodeID : NodeID}
variable {node : Node}

theorem insert_lookup
    {nodes : Finmap fun _ : NodeID => Node}
    (found : nodes.lookup nodeID = some node) :
    nodes.insert nodeID node = nodes := by
  refine Finmap.ext_lookup fun other => ?_
  by_cases same : other = nodeID
  · subst same
    rw [Finmap.lookup_insert, found]
  · rw [Finmap.lookup_insert_of_ne _ same]

variable {m next : Master}

theorem refused_unchanged
    {cores : Int}
    {manualRole : String}
    {env : SetupEnv}
    (refused :
      m.setupNewNode nodeID cores manualRole env =
        some (next, .errMaxElements)) :
    next = m := by
  obtain ⟨node, found, ⟨full, -, rfl⟩ | ⟨_, _, _, _, _, _, _, other | other⟩⟩ :=
    setupNewNode_cases refused
  · unfold nodeFor at found
    split at found
    · rename_i old isOld
      obtain rfl := Option.some.inj found
      rw [writeBack, insert_lookup isOld]
    · split at found
      · cases found
      · rename_i notNegative
        obtain rfl := Option.some.inj found
        simp at full
        omega
  · cases other
  · cases other

theorem nodeFor_within
    {m : Master}
    {cores : Int}
    (within : m.WithinCapacity)
    (found : m.nodeFor nodeID cores = some node) :
    (node.elements.length : Int) ≤ 2 * node.cores := by
  unfold nodeFor at found
  split at found
  · rename_i old isOld
    obtain rfl := Option.some.inj found
    exact within nodeID old isOld
  · split at found
    · cases found
    · rename_i inRange
      obtain rfl := Option.some.inj found
      simp only [List.length_nil]
      omega

theorem WithinCapacity.insert
    (within : m.WithinCapacity)
    (few : (node.elements.length : Int) ≤ 2 * node.cores)
    (nodes : next.nodes = m.nodes.insert nodeID node) :
    next.WithinCapacity := by
  intro other otherNode found
  rw [nodes] at found
  by_cases same : other = nodeID
  · subst same
    rw [Finmap.lookup_insert] at found
    obtain rfl := Option.some.inj found
    exact few
  · rw [Finmap.lookup_insert_of_ne _ same] at found
    exact within other otherNode found

theorem within_step
    {call : Call}
    (within : m.WithinCapacity)
    (taken : Step.guarded Fits m call next) :
    next.WithinCapacity := by
  obtain ⟨fits, step⟩ := taken
  cases call with
  | setupNewNode nodeID cores manualRole env =>
      obtain ⟨⟨_, reply⟩, replied, rfl⟩ := Option.map_eq_some_iff.mp step
      obtain ⟨node, found, ⟨full, -, -⟩ |
        ⟨after, added, -, isPrefix, -, extends_, nodes, -⟩⟩ :=
        setupNewNode_cases replied
      · exact absurd full (Int.not_lt.mpr (nodeFor_within within found))
      · refine within.insert ?_ nodes
        have room := fits node found
        have fewer := isPrefix.length_le
        rw [extends_.elements, extends_.cores, List.length_append]
        push_cast
        omega
  | startEvaler id =>
      have started : m.startEvaler id = some next := step
      unfold startEvaler at started
      split at started
      · cases started
      · cases started
        exact within
  | startFuzzer id =>
      have started : m.startFuzzer id = some next := step
      unfold startFuzzer at started
      split at started
      · cases started
      · cases started
        exact within
  | elementDeleted element nodeType =>
      obtain ⟨node, found, nodes, -, -⟩ := elementDeleted_cases step
      refine within.insert ?_ nodes
      have before := within _ _ found
      have fewer :=
        List.length_filter_le
          (fun el =>
            !(el.onNodeID == element.onNodeID && el.type == nodeType))
          node.elements
      dsimp only
      omega

/--
In every run in which a connecting node has room for what the call asks for, no
node has more than two elements for each core; and a call that is refused, in
whatever state, changes nothing.
-/
theorem within_capacity
    {db : InfoDb.FuzzInfoDB}
    {calls : List Call}
    {final : Master}
    (run : Run (Step.guarded Fits) (newMaster db) calls final) :
    final.WithinCapacity ∧
      ∀ m nodeID cores manualRole env next,
        setupNewNode m nodeID cores manualRole env =
            some (next, .errMaxElements) →
          next = m := by
  constructor
  · refine @Run.invariant _ _ _ WithinCapacity within_step _ _ _ run ?_
    intro nodeID node found
    simp [newMaster] at found
  · intro m nodeID cores manualRole env next refused
    exact refused_unchanged refused

/-- A node with one core that connects for a fuzzer. -/
def fuzzerCall : Call :=
  .setupNewNode 1 1 "fuzz" ⟨0, 0, ⟨0, 0⟩⟩

theorem within_capacity_one_fuzzer :
    ∃ final,
      Run (Step.guarded Fits) (newMaster (InfoDb.new "corpus")) [fuzzerCall]
          final ∧
        final.WithinCapacity := by
  have computed :
      (step? (newMaster (InfoDb.new "corpus")) fuzzerCall).isSome = true := by
    decide +kernel
  obtain ⟨final, taken⟩ := Option.isSome_iff_exists.mp computed
  have fits : Fits (newMaster (InfoDb.new "corpus")) fuzzerCall := by
    intro node found
    obtain rfl : (⟨[], 1, 0⟩ : Node) = node := by
      simpa [nodeFor, newMaster, givenCores] using found
    simp [wanted, wantedEvalers, wantsEvaler, wantedFuzzers]
  have run :
      Run (Step.guarded Fits) (newMaster (InfoDb.new "corpus"))
        [fuzzerCall] final :=
    .single ⟨fits, taken⟩
  exact ⟨final, run, (within_capacity run).1⟩

/-- The node connects three times. -/
def threeFuzzers : List Call :=
  [fuzzerCall, fuzzerCall, fuzzerCall]

/-- The third call is not refused although the node is full. -/
theorem full_node_gets_third_fuzzer :
    ∃ final node,
      Run Step (newMaster (InfoDb.new "corpus")) threeFuzzers final ∧
        final.nodes.lookup 1 = some node ∧
        node.cores = 1 ∧ node.elements.length = 3 ∧
        ¬final.WithinCapacity := by
  have computed :
      ((threeFuzzers.foldlM step? (newMaster (InfoDb.new "corpus"))).bind
        fun final => final.nodes.lookup 1).map
          (fun node => (node.cores, node.elements.length)) =
        some (1, 3) := by
    decide +kernel
  obtain ⟨node, foundIn, sizes⟩ := Option.map_eq_some_iff.mp computed
  obtain ⟨final, reached, found⟩ := Option.bind_eq_some_iff.mp foundIn
  obtain ⟨cores, length⟩ := Prod.mk.inj sizes
  refine ⟨final, node, Run.of_foldlM reached, found, cores, length, ?_⟩
  intro within
  have few := within 1 node found
  rw [cores, length] at few
  exact absurd few (by decide)

end MeFuzz.Master
