import MeFuzz.MasterState

namespace MeFuzz.Master

/-!
# What one connection adds to a node

`SetupNewNode` adds at most one evaler, under the identity that was drawn for
it, and then fuzzers, numbered by the node's counter.  This module says which
elements a call asks for before it starts, and that it adds just these, or the
first of them when the database gets stuck.
-/

/-- The call asks for an evaler. -/
def wantsEvaler
    (m : Master)
    (manualRole : String)
    (env : SetupEnv) : Bool :=
  if manualRole = "fuzz" then false
  else if manualRole = "eval" then true
  else m.evalers.keys.card = 0 || env.testcases > evalerThreshold

/-- The evaler that the call asks for, if any. -/
def wantedEvalers
    (m : Master)
    (manualRole : String)
    (env : SetupEnv) : List Element :=
  if m.wantsEvaler manualRole env then [⟨env.uuid, .evaler⟩] else []

/-- The number of fuzzers that the call asks for. -/
def wantedFuzzers
    (m : Master)
    (node : Node)
    (cores : Int)
    (manualRole : String)
    (env : SetupEnv) : Nat :=
  if manualRole = "fuzz" then 1
  else if manualRole = "eval" then 0
  else if m.isTest then
    if node.elements.length = 0 then 0 else 1
  else
    (cores -
      (node.elements ++ m.wantedEvalers manualRole env).length).toNat

/-- Fuzzers numbered behind a counter. -/
def numberedFuzzers (byAllTime : UInt32) : Nat → List Element
  | 0 => []
  | count + 1 =>
      ⟨byAllTime + 1, .fuzzer⟩ :: numberedFuzzers (byAllTime + 1) count

@[simp] theorem numberedFuzzers_length
    (byAllTime : UInt32)
    (count : Nat) :
    (numberedFuzzers byAllTime count).length = count := by
  induction count generalizing byAllTime with
  | zero =>
      rfl
  | succ count ih =>
      exact congrArg (· + 1) (ih _)

theorem numberedFuzzers_initial
    (byAllTime : UInt32)
    {fewer more : Nat}
    (le : fewer ≤ more) :
    numberedFuzzers byAllTime fewer <+: numberedFuzzers byAllTime more := by
  induction fewer generalizing byAllTime more with
  | zero =>
      exact List.nil_prefix
  | succ fewer ih =>
      cases more with
      | zero =>
          cases le
      | succ more =>
          exact (List.prefix_cons_inj _).mpr
            (ih _ (Nat.le_of_succ_le_succ le))

@[simp] theorem newFuzzer_cores
    (nodeID : NodeID)
    (conf : FuzzerConf)
    (now : Time)
    (state : Master × Node) :
    (newFuzzer nodeID conf now state).2.cores = state.2.cores := by
  simp only [newFuzzer]
  split <;> rfl

@[simp] theorem newFuzzer_fuzzerByAllTime
    (nodeID : NodeID)
    (conf : FuzzerConf)
    (now : Time)
    (state : Master × Node) :
    (newFuzzer nodeID conf now state).2.fuzzerByAllTime =
      state.2.fuzzerByAllTime + 1 := by
  simp only [newFuzzer]
  split <;> rfl

/-- A node to which elements were added. -/
structure Extends
    (node after : Node)
    (added : List Element) : Prop where
  elements : after.elements = node.elements ++ added
  cores : after.cores = node.cores

theorem newFuzzers_added
    (nodeID : NodeID)
    (now : Time)
    (remaining : Nat)
    (state : Master × Node) :
    ∃ count,
      count ≤ remaining ∧
        (0 < remaining → 0 < count) ∧
        Extends state.2 (newFuzzers nodeID now remaining state).2
          (numberedFuzzers state.2.fuzzerByAllTime count) := by
  induction remaining generalizing state with
  | zero =>
      exact ⟨0, Nat.le_refl 0, id, by simp [newFuzzers, numberedFuzzers], rfl⟩
  | succ remaining ih =>
      simp only [newFuzzers]
      split
      · exact ⟨1, Nat.le_add_left 1 remaining, fun _ => Nat.one_pos,
          newFuzzer_elements .., newFuzzer_cores ..⟩
      · obtain ⟨count, le, -, elements, cores⟩ :=
          ih (newFuzzer nodeID defaultConf now state)
        refine ⟨count + 1, Nat.succ_le_succ le, fun _ => Nat.succ_pos _,
          ?_, ?_⟩
        · rw [elements, newFuzzer_elements, newFuzzer_fuzzerByAllTime,
            List.append_assoc]
          rfl
        · rw [cores, newFuzzer_cores]

theorem chooseRoles_eq
    (nodeID : NodeID)
    (cores : Int)
    {manualRole : String}
    (env : SetupEnv)
    (m : Master)
    (node : Node)
    (notFuzz : manualRole ≠ "fuzz")
    (notEval : manualRole ≠ "eval") :
    ∃ start : Master × Node,
      start.1.isTest = m.isTest ∧
        Extends node start.2 (m.wantedEvalers manualRole env) ∧
        start.2.fuzzerByAllTime = node.fuzzerByAllTime ∧
        chooseRoles nodeID cores env (m, node) =
          if !start.1.isTest then
            newFuzzers nodeID env.now
              (cores - start.2.elements.length).toNat start
          else if node.elements.length ≠ 0 then
            newFuzzer nodeID defaultConf env.now start
          else start := by
  have wanted :
      m.wantedEvalers manualRole env =
        if (m.evalers.keys.card = 0 || env.testcases > evalerThreshold) = true
        then [⟨env.uuid, .evaler⟩] else [] := by
    unfold wantedEvalers wantsEvaler
    rw [if_neg notFuzz, if_neg notEval]
  simp only [chooseRoles]
  by_cases noEvaler : m.evalers.keys.card = 0
  · rw [if_pos noEvaler]
    refine ⟨newEvaler nodeID env.uuid (m, node), rfl, ⟨?_, rfl⟩, rfl, rfl⟩
    simp [newEvaler, wanted, noEvaler]
  · rw [if_neg noEvaler]
    by_cases behind : env.testcases > evalerThreshold
    · rw [if_pos behind]
      refine ⟨newEvaler nodeID env.uuid (m, node), rfl, ⟨?_, rfl⟩, rfl, rfl⟩
      rw [wanted, if_pos (by simp [behind])]
      rfl
    · rw [if_neg behind]
      refine ⟨(m, node), rfl, ⟨?_, rfl⟩, rfl, rfl⟩
      rw [wanted, if_neg (by simpa [noEvaler] using behind)]
      simp

theorem assignRoles_added
    (nodeID : NodeID)
    (cores : Int)
    (manualRole : String)
    (env : SetupEnv)
    (m : Master)
    (node : Node) :
    ∃ count,
      count ≤ m.wantedFuzzers node cores manualRole env ∧
        (0 < m.wantedFuzzers node cores manualRole env → 0 < count) ∧
        Extends node (assignRoles nodeID cores manualRole env (m, node)).2
          (m.wantedEvalers manualRole env ++
            numberedFuzzers node.fuzzerByAllTime count) := by
  unfold assignRoles
  split
  · rename_i isFuzz
    refine ⟨1, ?_, fun _ => Nat.one_pos, ?_, newFuzzer_cores ..⟩
    · simp [wantedFuzzers, isFuzz]
    · rw [newFuzzer_elements]
      simp [wantedEvalers, wantsEvaler, isFuzz, numberedFuzzers]
  · rename_i notFuzz
    split
    · rename_i isEval
      refine ⟨0, Nat.zero_le _, ?_, ?_, rfl⟩
      · simp [wantedFuzzers, isEval]
      · simp [newEvaler, wantedEvalers, wantsEvaler, isEval, numberedFuzzers]
    · rename_i notEval
      obtain ⟨start, isTest, ⟨elements, sameCores⟩, byAllTime, result⟩ :=
        chooseRoles_eq nodeID cores env m node notFuzz notEval
      rw [result, isTest]
      cases test : m.isTest with
      | true =>
          simp only [Bool.not_true, Bool.false_eq_true, if_false]
          split
          · rename_i someElement
            refine ⟨1, ?_, fun _ => Nat.one_pos, ?_, ?_⟩
            · simp [wantedFuzzers, notFuzz, notEval, test, someElement]
            · rw [newFuzzer_elements, elements, byAllTime,
                List.append_assoc]
              rfl
            · rw [newFuzzer_cores, sameCores]
          · rename_i noElement
            rw [not_not] at noElement
            refine ⟨0, Nat.zero_le _, ?_, ?_, sameCores⟩
            · simp [wantedFuzzers, notFuzz, notEval, test, noElement]
            · rw [elements, numberedFuzzers, List.append_nil]
      | false =>
          obtain ⟨count, le, pos, added, addedCores⟩ :=
            newFuzzers_added nodeID env.now
              (cores - start.2.elements.length).toNat start
          have wanted :
              m.wantedFuzzers node cores manualRole env =
                (cores - start.2.elements.length).toNat := by
            rw [elements]
            simp [wantedFuzzers, notFuzz, notEval, test]
          rw [wanted]
          simp only [Bool.not_false, if_true]
          refine ⟨count, le, pos, ?_, addedCores.trans sameCores⟩
          rw [added, elements, byAllTime, List.append_assoc]

@[simp] theorem newFuzzers_nodes
    (nodeID : NodeID)
    (now : Time)
    (remaining : Nat)
    (state : Master × Node) :
    (newFuzzers nodeID now remaining state).1.nodes = state.1.nodes := by
  induction remaining generalizing state with
  | zero =>
      rfl
  | succ remaining ih =>
      simp only [newFuzzers]
      split
      · exact newFuzzer_nodes ..
      · rw [ih, newFuzzer_nodes]

@[simp] theorem newEvaler_nodes
    (nodeID : NodeID)
    (uuid : OnNodeID)
    (state : Master × Node) :
    (newEvaler nodeID uuid state).1.nodes = state.1.nodes :=
  rfl

@[simp] theorem assignRoles_nodes
    (nodeID : NodeID)
    (cores : Int)
    (manualRole : String)
    (env : SetupEnv)
    (state : Master × Node) :
    (assignRoles nodeID cores manualRole env state).1.nodes =
      state.1.nodes := by
  unfold assignRoles chooseRoles
  simp only [apply_ite Prod.fst, apply_ite nodes, newFuzzer_nodes,
    newEvaler_nodes, newFuzzers_nodes, ite_self]

/-- The elements that a call asks for. -/
def wanted
    (m : Master)
    (node : Node)
    (cores : Int)
    (manualRole : String)
    (env : SetupEnv) : List Element :=
  m.wantedEvalers manualRole env ++
    numberedFuzzers node.fuzzerByAllTime
      (m.wantedFuzzers node cores manualRole env)

/-- The number of cores that a call is taken to give. -/
def givenCores (cores : Int) : Int :=
  if cores = 0 then 1 else cores

/--
A call is refused and changes nothing, or it extends its node by elements that
it asked for: by all of them or the first ones, and by one at least if any was
asked for.
-/
theorem setupNewNode_cases
    {m next : Master}
    {nodeID : NodeID}
    {cores : Int}
    {manualRole : String}
    {env : SetupEnv}
    {reply : SetupReply}
    (replied :
      m.setupNewNode nodeID cores manualRole env = some (next, reply)) :
    ∃ node,
      m.nodeFor nodeID (givenCores cores) = some node ∧
        ((2 * node.cores < node.elements.length ∧
            reply = .errMaxElements ∧ next = writeBack nodeID (m, node)) ∨
          ∃ after added,
            ¬2 * node.cores < node.elements.length ∧
              added <+: m.wanted node (givenCores cores) manualRole env ∧
              (m.wanted node (givenCores cores) manualRole env ≠ [] →
                added ≠ []) ∧
              Extends node after added ∧
              next.nodes = m.nodes.insert nodeID after ∧
              (reply = .stuck ∨ reply = .setUp added)) := by
  unfold setupNewNode at replied
  split at replied
  · cases replied
  · dsimp only at replied
    split at replied
    · cases replied
    · rename_i node found
      refine ⟨node, found, ?_⟩
      split at replied
      · rename_i full
        cases replied
        exact .inl ⟨full, rfl, rfl⟩
      · rename_i notFull
        obtain ⟨count, le, pos, extends_⟩ :=
          assignRoles_added nodeID (givenCores cores) manualRole env m node
        obtain ⟨rfl, rfl⟩ := Prod.mk.inj (Option.some.inj replied)
        refine .inr ⟨_, _, notFull, ?_, ?_, extends_, ?_, ?_⟩
        · exact (List.prefix_append_right_inj _).mpr
            (numberedFuzzers_initial _ le)
        · intro some_ none_
          obtain ⟨noEvaler, noFuzzer⟩ := List.append_eq_nil_iff.mp none_
          have count_zero : count = 0 := by
            simpa using congrArg List.length noFuzzer
          have wanted_zero :
              m.wantedFuzzers node (givenCores cores) manualRole env = 0 := by
            by_contra positive
            exact (pos (Nat.pos_of_ne_zero positive)).ne' count_zero
          exact some_ (by rw [wanted, noEvaler, wanted_zero]; rfl)
        · rw [writeBack, assignRoles_nodes]
          rfl
        · by_cases held :
              (assignRoles nodeID (givenCores cores) manualRole env
                (m, node)).1.muHeld
          · exact .inl (if_pos held)
          · refine .inr ((if_neg held).trans (congrArg SetupReply.setUp ?_))
            exact (congrArg (List.drop node.elements.length)
              extends_.elements).trans List.drop_left

end MeFuzz.Master
