import MeFuzz.MasterCapacity

namespace MeFuzz.Master

/-!
# Routing to the elements of a node

The server makes one channel for each element that `SetupNewNode` returns and
enters it under the element's identity on its node.  Evalers get a random
identity and fuzzers the next number of the node; nothing compares the two.
-/

/-- The identities of a node's elements. -/
def idsOf (node : Node) : List OnNodeID :=
  node.elements.map Element.onNodeID

/-- No two live elements of a node share an identity. -/
def DistinctIds (m : Master) : Prop :=
  ∀ nodeID node, m.nodes.lookup nodeID = some node → (idsOf node).Nodup

/--
The loop of the server's `setup`: enter a new channel for each element.  The
channels are numbered in the order in which they are made.
-/
def openChannels :
    Nat → List Element → (Finmap fun _ : OnNodeID => Nat) →
      Finmap fun _ : OnNodeID => Nat
  | _, [], recvByElement => recvByElement
  | made, set :: rest, recvByElement =>
      openChannels (made + 1) rest
        (recvByElement.insert set.onNodeID made)

/-- The routing map of a connection. -/
def recvByElement
    (elements : List Element) : Finmap fun _ : OnNodeID => Nat :=
  openChannels 0 elements ∅

/-- Each element has its own channel, and there are no others. -/
def OneChannelEach (elements : List Element) : Prop :=
  (∀ i el,
      elements[i]? = some el →
        (recvByElement elements).lookup el.onNodeID = some i) ∧
    (recvByElement elements).keys.card = elements.length

/-- The identity of the fuzzer with this place among the new ones. -/
def nextNumber (node : Node) (place : Nat) : OnNodeID :=
  node.fuzzerByAllTime + 1 + .ofNat place

/--
What a call would hand out is in no other use: the identity drawn for an
evaler, and the numbers of the new fuzzers, which do not go round the counter.
-/
def FreshIds
    (m : Master)
    (node : Node)
    (cores : Int)
    (manualRole : String)
    (env : SetupEnv) : Prop :=
  m.wantedFuzzers node cores manualRole env ≤ 2 ^ 32 ∧
    (m.wantsEvaler manualRole env = true → env.uuid ∉ idsOf node) ∧
    ∀ place, place < m.wantedFuzzers node cores manualRole env →
      nextNumber node place ∉ idsOf node ∧
        (m.wantsEvaler manualRole env = true →
          nextNumber node place ≠ env.uuid)

/-- A call that is not refused asks for something, under fresh identities. -/
def Routable (m : Master) : Call → Prop
  | .setupNewNode nodeID cores manualRole env =>
      ∀ node,
        m.nodeFor nodeID (givenCores cores) = some node →
          ¬2 * node.cores < node.elements.length →
            (m.wantsEvaler manualRole env = true ∨
                0 < m.wantedFuzzers node (givenCores cores) manualRole
                  env) ∧
              m.FreshIds node (givenCores cores) manualRole env
  | .startEvaler _ => True
  | .startFuzzer _ => True
  | .elementDeleted _ _ => True

variable {elements : List Element}

theorem lookup_openChannels_of_notMem
    {id : OnNodeID}
    (absent : id ∉ elements.map Element.onNodeID)
    (made : Nat)
    (recvByElement : Finmap fun _ : OnNodeID => Nat) :
    (openChannels made elements recvByElement).lookup id =
      recvByElement.lookup id := by
  induction elements generalizing made recvByElement with
  | nil =>
      rfl
  | cons set rest ih =>
      rw [List.map_cons, List.mem_cons, not_or] at absent
      rw [openChannels, ih absent.2,
        Finmap.lookup_insert_of_ne _ absent.1]

theorem lookup_openChannels
    (distinct : (elements.map Element.onNodeID).Nodup)
    {i : Nat}
    {el : Element}
    (isElement : elements[i]? = some el)
    (made : Nat)
    (recvByElement : Finmap fun _ : OnNodeID => Nat) :
    (openChannels made elements recvByElement).lookup el.onNodeID =
      some (made + i) := by
  induction elements generalizing i made recvByElement with
  | nil =>
      simp at isElement
  | cons set rest ih =>
      rw [List.map_cons, List.nodup_cons] at distinct
      cases i with
      | zero =>
          obtain rfl : set = el := by simpa using isElement
          rw [openChannels, lookup_openChannels_of_notMem distinct.1,
            Finmap.lookup_insert, Nat.add_zero]
      | succ i =>
          rw [openChannels,
            ih distinct.2 (by simpa using isElement)]
          congr 1
          omega

theorem card_openChannels
    (distinct : (elements.map Element.onNodeID).Nodup)
    (made : Nat)
    {recvByElement : Finmap fun _ : OnNodeID => Nat}
    (fresh :
      ∀ id ∈ elements.map Element.onNodeID, id ∉ recvByElement) :
    (openChannels made elements recvByElement).keys.card =
      recvByElement.keys.card + elements.length := by
  induction elements generalizing made recvByElement with
  | nil =>
      rfl
  | cons set rest ih =>
      rw [List.map_cons, List.nodup_cons] at distinct
      have absent : set.onNodeID ∉ recvByElement :=
        fresh _ List.mem_cons_self
      have keys :
          (recvByElement.insert set.onNodeID made).keys =
            insert set.onNodeID recvByElement.keys := by
        ext id
        simp [Finmap.mem_keys, Finmap.mem_insert]
      have freshRest :
          ∀ id ∈ rest.map Element.onNodeID,
            id ∉ recvByElement.insert set.onNodeID made := by
        intro id inRest
        rw [Finmap.mem_insert, not_or]
        refine ⟨?_, fresh id (List.mem_cons_of_mem _ inRest)⟩
        rintro rfl
        exact distinct.1 inRest
      rw [openChannels, ih distinct.2 _ freshRest, keys,
        Finset.card_insert_of_notMem (by rwa [Finmap.mem_keys]),
        List.length_cons]
      omega

theorem oneChannelEach_of_distinct
    (distinct : (elements.map Element.onNodeID).Nodup) :
    OneChannelEach elements := by
  constructor
  · intro i el isElement
    rw [recvByElement, lookup_openChannels distinct isElement, Nat.zero_add]
  · rw [recvByElement,
      card_openChannels distinct 0 fun id _ => Finmap.notMem_empty]
    exact Nat.zero_add _

theorem numberedFuzzers_ids
    (node : Node)
    (count : Nat) :
    (numberedFuzzers node.fuzzerByAllTime count).map Element.onNodeID =
      (List.range count).map (nextNumber node) := by
  have numbered :
      ∀ byAllTime : UInt32,
        (numberedFuzzers byAllTime count).map Element.onNodeID =
          (List.range count).map fun place =>
            byAllTime + 1 + .ofNat place := by
    induction count with
    | zero =>
        intro _
        rfl
    | succ count ih =>
        intro byAllTime
        rw [numberedFuzzers, List.map_cons, ih,
          List.range_succ_eq_map, List.map_cons, List.map_map]
        congr 1
        · simp
        · refine List.map_congr_left fun place _ => ?_
          simp only [Function.comp_apply]
          rw [Nat.succ_eq_add_one, UInt32.ofNat_add]
          grind
  exact numbered node.fuzzerByAllTime

/-- Numbers of fewer than `2 ^ 32` fuzzers do not repeat. -/
theorem nextNumbers_nodup
    (node : Node)
    {count : Nat}
    (few : count ≤ 2 ^ 32) :
    ((List.range count).map (nextNumber node)).Nodup := by
  refine (List.nodup_map_iff_inj_on List.nodup_range).mpr ?_
  intro first firstIn second secondIn same
  rw [List.mem_range] at firstIn secondIn
  have sameOffset : UInt32.ofNat first = UInt32.ofNat second :=
    (UInt32.add_right_inj _).mp same
  have sameNat := congrArg UInt32.toNat sameOffset
  rwa [UInt32.toNat_ofNat_of_lt' (firstIn.trans_le few),
    UInt32.toNat_ofNat_of_lt' (secondIn.trans_le few)] at sameNat

theorem wanted_ids
    (m : Master)
    (node : Node)
    (cores : Int)
    (manualRole : String)
    (env : SetupEnv) :
    (m.wanted node cores manualRole env).map Element.onNodeID =
      (if m.wantsEvaler manualRole env then [env.uuid] else []) ++
        (List.range (m.wantedFuzzers node cores manualRole env)).map
          (nextNumber node) := by
  rw [wanted, List.map_append, numberedFuzzers_ids, wantedEvalers]
  split <;> rfl

variable {cores : Int}
variable {m : Master}
variable {node : Node}
variable {manualRole : String}
variable {env : SetupEnv}

theorem nodup_ids_append_wanted
    (fresh : m.FreshIds node cores manualRole env)
    (distinct : (idsOf node).Nodup) :
    (idsOf node ++
      (m.wanted node cores manualRole env).map Element.onNodeID).Nodup := by
  obtain ⟨few, evalerFresh, numbersFresh⟩ := fresh
  have fuzzer :
      ∀ id ∈ (List.range (m.wantedFuzzers node cores manualRole env)).map
          (nextNumber node),
        id ∉ idsOf node ∧
          (m.wantsEvaler manualRole env = true → id ≠ env.uuid) := by
    intro id isNumber
    obtain ⟨place, inRange, rfl⟩ := List.mem_map.mp isNumber
    exact numbersFresh place (List.mem_range.mp inRange)
  have numbers := nextNumbers_nodup node few
  rw [wanted_ids, ← List.append_assoc]
  refine List.nodup_append.mpr ⟨?_, numbers, ?_⟩
  · split
    · rename_i wantsEvaler
      refine List.nodup_append.mpr
        ⟨distinct, List.nodup_singleton _, ?_⟩
      rintro id isOld other isNew rfl
      rw [List.mem_singleton] at isNew
      exact evalerFresh wantsEvaler (isNew ▸ isOld)
    · rwa [List.append_nil]
  · rintro id isEarlier other isNumber rfl
    obtain ⟨notOld, notEvaler⟩ := fuzzer id isNumber
    rcases List.mem_append.mp isEarlier with isOld | isEvaler
    · exact notOld isOld
    · split at isEvaler
      · rename_i wantsEvaler
        exact notEvaler wantsEvaler (List.mem_singleton.mp isEvaler)
      · cases isEvaler

variable {nodeID : NodeID}

theorem nodeFor_distinct
    (distinct : m.DistinctIds)
    (found : m.nodeFor nodeID cores = some node) :
    (idsOf node).Nodup := by
  unfold nodeFor at found
  split at found
  · rename_i old isOld
    obtain rfl := Option.some.inj found
    exact distinct nodeID old isOld
  · split at found
    · cases found
    · obtain rfl := Option.some.inj found
      exact List.nodup_nil

theorem DistinctIds.insert
    {m next : Master}
    (distinct : m.DistinctIds)
    (nodeDistinct : (idsOf node).Nodup)
    (nodes : next.nodes = m.nodes.insert nodeID node) :
    next.DistinctIds := by
  intro other otherNode found
  rw [nodes] at found
  by_cases same : other = nodeID
  · subst same
    rw [Finmap.lookup_insert] at found
    obtain rfl := Option.some.inj found
    exact nodeDistinct
  · rw [Finmap.lookup_insert_of_ne _ same] at found
    exact distinct other otherNode found

theorem distinct_after
    {node after : Node}
    {added : List Element}
    (fresh : m.FreshIds node cores manualRole env)
    (distinct : (idsOf node).Nodup)
    (isPrefix : added <+: m.wanted node cores manualRole env)
    (extends_ : Extends node after added) :
    (idsOf after).Nodup ∧ (added.map Element.onNodeID).Nodup := by
  have all := nodup_ids_append_wanted fresh distinct
  have fewer :
      (idsOf node ++ added.map Element.onNodeID).Sublist
        (idsOf node ++
          (m.wanted node cores manualRole env).map Element.onNodeID) :=
    (isPrefix.sublist.map Element.onNodeID).append_left (idsOf node)
  have distinctAfter := all.sublist fewer
  constructor
  · rwa [idsOf, extends_.elements, List.map_append]
  · exact (List.nodup_append.mp distinctAfter).2.1

theorem distinct_step
    {m next : Master}
    {call : Call}
    (distinct : m.DistinctIds)
    (taken : Step.guarded Routable m call next) :
    next.DistinctIds := by
  obtain ⟨routable, step⟩ := taken
  cases call with
  | setupNewNode nodeID cores manualRole env =>
      obtain ⟨⟨_, reply⟩, replied, rfl⟩ := Option.map_eq_some_iff.mp step
      obtain ⟨node, found, ⟨-, -, rfl⟩ |
        ⟨after, added, notFull, isPrefix, -, extends_, nodes, -⟩⟩ :=
        setupNewNode_cases replied
      · exact distinct.insert (nodeFor_distinct distinct found) rfl
      · obtain ⟨-, fresh⟩ := routable node found notFull
        have before := nodeFor_distinct distinct found
        exact distinct.insert
          (distinct_after fresh before isPrefix extends_).1 nodes
  | startEvaler id =>
      have started : m.startEvaler id = some next := step
      unfold startEvaler at started
      split at started
      · cases started
      · cases started
        exact distinct
  | startFuzzer id =>
      have started : m.startFuzzer id = some next := step
      unfold startFuzzer at started
      split at started
      · cases started
      · cases started
        exact distinct
  | elementDeleted element nodeType =>
      obtain ⟨node, found, nodes, -, -⟩ := elementDeleted_cases step
      refine distinct.insert ?_ nodes
      exact (distinct _ _ found).sublist
        (List.filter_sublist.map Element.onNodeID)

theorem routes_of_routable
    {m next : Master}
    (distinct : m.DistinctIds)
    (routable : m.Routable (.setupNewNode nodeID cores manualRole env))
    (replied :
      m.setupNewNode nodeID cores manualRole env =
        some (next, .setUp elements)) :
    elements ≠ [] ∧ OneChannelEach elements := by
  obtain ⟨node, found, ⟨-, other, -⟩ |
    ⟨after, added, notFull, isPrefix, nonempty, extends_, -, reply⟩⟩ :=
    setupNewNode_cases replied
  · cases other
  · obtain rfl : elements = added := by
      rcases reply with other | reply
      · cases other
      · exact SetupReply.setUp.inj reply
    obtain ⟨asks, fresh⟩ := routable node found notFull
    have before := nodeFor_distinct distinct found
    constructor
    · apply nonempty
      rw [wanted]
      rcases asks with evaler | fuzzers
      · simp [wantedEvalers, evaler]
      · intro none_
        have length_zero :=
          congrArg List.length (List.append_eq_nil_iff.mp none_).2
        rw [numberedFuzzers_length] at length_zero
        exact fuzzers.ne' length_zero
    · exact oneChannelEach_of_distinct
        (distinct_after fresh before isPrefix extends_).2

/--
In every run of calls that ask for something under fresh identities, the live
elements of each node have distinct identities, and each further such call that
succeeds hands out elements for which the server makes one channel each.
-/
theorem routes_uniquely
    {db : InfoDb.FuzzInfoDB}
    {calls : List Call}
    {final : Master}
    (run : Run (Step.guarded Routable) (newMaster db) calls final) :
    final.DistinctIds ∧
      ∀ nodeID cores manualRole env next elements,
        final.Routable (.setupNewNode nodeID cores manualRole env) →
          final.setupNewNode nodeID cores manualRole env =
              some (next, .setUp elements) →
            elements ≠ [] ∧ OneChannelEach elements := by
  have distinct : final.DistinctIds := by
    refine @Run.invariant _ _ _ DistinctIds distinct_step _ _ _ run ?_
    intro nodeID node found
    simp [newMaster] at found
  refine ⟨distinct, ?_⟩
  intro nodeID cores manualRole env next elements routable replied
  exact routes_of_routable distinct routable replied

/-- A node that connects for an evaler, with the identity drawn for it. -/
def evalerCall (uuid : OnNodeID) : Call :=
  .setupNewNode 1 1 "eval" ⟨uuid, 0, ⟨0, 0⟩⟩

theorem routes_uniquely_evaler_and_fuzzer :
    ∃ final next elements,
      Run (Step.guarded Routable) (newMaster (InfoDb.new "corpus"))
          [evalerCall 7] final ∧
        final.DistinctIds ∧
        final.setupNewNode 1 1 "fuzz" ⟨0, 0, ⟨0, 0⟩⟩ =
          some (next, .setUp elements) ∧
        elements ≠ [] ∧ OneChannelEach elements := by
  let node : Node := ⟨[⟨7, .evaler⟩], 1, 0⟩
  have computed :
      ((step? (newMaster (InfoDb.new "corpus")) (evalerCall 7)).bind
          fun final =>
            (final.setupNewNode 1 1 "fuzz" ⟨0, 0, ⟨0, 0⟩⟩).map
              fun result => (final.nodes.lookup 1, result.2)) =
        some (some node, .setUp [⟨1, .fuzzer⟩]) := by
    decide +kernel
  obtain ⟨final, taken, replied⟩ := Option.bind_eq_some_iff.mp computed
  obtain ⟨⟨next, reply⟩, replied, facts⟩ :=
    Option.map_eq_some_iff.mp replied
  obtain ⟨isNode, rfl⟩ := Prod.mk.inj facts
  have firstRoutable :
      (newMaster (InfoDb.new "corpus")).Routable (evalerCall 7) := by
    intro other found _
    obtain rfl : (⟨[], 1, 0⟩ : Node) = other := by
      simpa [nodeFor, newMaster, givenCores] using found
    simp [FreshIds, wantsEvaler, wantedFuzzers, idsOf]
  have run :
      Run (Step.guarded Routable) (newMaster (InfoDb.new "corpus"))
        [evalerCall 7] final :=
    .single ⟨firstRoutable, taken⟩
  have secondRoutable :
      final.Routable (.setupNewNode 1 1 "fuzz" ⟨0, 0, ⟨0, 0⟩⟩) := by
    intro other found _
    obtain rfl : node = other := by
      simpa [nodeFor, isNode] using found
    simp [FreshIds, wantsEvaler, wantedFuzzers, idsOf, nextNumber, node]
  obtain ⟨distinct, routes⟩ := routes_uniquely run
  exact ⟨final, next, _, run, distinct, replied,
    routes _ _ _ _ _ _ secondRoutable replied⟩

/--
The identity drawn for an evaler is the next number of the node, and the evaler
and the fuzzer of one connection share a channel.  A second node that connects
while there is an evaler gets no element at all.
-/
theorem drawn_identity_shares_channel :
    (∃ m final elements,
        Run Step (newMaster (InfoDb.new "corpus")) [fuzzerCall] m ∧
          m.setupNewNode 1 1 "" ⟨2, 0, ⟨0, 0⟩⟩ =
            some (final, .setUp elements) ∧
          elements = [⟨2, .evaler⟩, ⟨2, .fuzzer⟩] ∧
          ¬final.DistinctIds ∧ ¬OneChannelEach elements) ∧
      ∃ m final,
        Run Step (newMaster (InfoDb.new "corpus")) [evalerCall 7] m ∧
          m.setupNewNode 2 1 "" ⟨0, 0, ⟨0, 0⟩⟩ =
            some (final, .setUp []) := by
  constructor
  · let shared : List Element := [⟨2, .evaler⟩, ⟨2, .fuzzer⟩]
    let node : Node := ⟨⟨1, .fuzzer⟩ :: shared, 1, 2⟩
    have computed :
        ((step? (newMaster (InfoDb.new "corpus")) fuzzerCall).bind fun m =>
            (m.setupNewNode 1 1 "" ⟨2, 0, ⟨0, 0⟩⟩).map
              fun result => (result.1.nodes.lookup 1, result.2)) =
          some (some node, .setUp shared) := by
      decide +kernel
    obtain ⟨m, taken, replied⟩ := Option.bind_eq_some_iff.mp computed
    obtain ⟨⟨final, reply⟩, replied, facts⟩ :=
      Option.map_eq_some_iff.mp replied
    obtain ⟨isNode, rfl⟩ := Prod.mk.inj facts
    refine ⟨m, final, shared, .single taken, replied, rfl, ?_, ?_⟩
    · intro distinct
      exact absurd (distinct 1 node isNode) (by decide)
    · intro each
      exact absurd each.2 (by decide +kernel)
  · have computed :
        ((step? (newMaster (InfoDb.new "corpus")) (evalerCall 7)).bind
            fun m =>
              (m.setupNewNode 2 1 "" ⟨0, 0, ⟨0, 0⟩⟩).map Prod.snd) =
          some (.setUp []) := by
      decide +kernel
    obtain ⟨m, taken, replied⟩ := Option.bind_eq_some_iff.mp computed
    obtain ⟨⟨final, reply⟩, replied, rfl⟩ :=
      Option.map_eq_some_iff.mp replied
    exact ⟨m, final, .single taken, replied⟩

end MeFuzz.Master
