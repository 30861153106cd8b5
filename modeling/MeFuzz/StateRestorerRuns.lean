import MeFuzz.StateRestorer

namespace MeFuzz.StateRestorer

/-!
# What the restorer gives back

A restorer is used any number of times.  Its saves stay in the map unless only the
name of a file has to fit, and the exit mark stays where it is when the restorer is
reset, so that it may be found there by later calls.
-/

/-- The operations. -/
inductive Call (State : Type) where
  | save (state : State) (fileWrite : FileWrite)
  | restore
  | reset
  | sendExiting

/-- A use of a restorer: the machine, what it is to give back, and the last call. -/
structure Session (State : Type) where
  machine : Machine
  expected : Option (Option State)
  last : Option (Call State)

section

variable {State : Type}
variable (hash : Bytes → UInt64)
variable (rmp : RmpSerde State)

/-- What a call does to the map and the directory. -/
def operation : Call State → Part Unit
  | .save state fileWrite => save hash rmp state fileWrite
  | .restore => pure ()
  | .reset => reset
  | .sendExiting => sendExiting

/-- What is to be given back after a call. -/
def expectedAfter
    (expected : Option (Option State)) :
    Call State → Except Fault Unit → Option (Option State)
  | .save state _, .ok _ => some (some state)
  | .save _ _, .error _ => expected
  | .restore, _ => expected
  | .reset, _ => some none
  | .sendExiting, _ => none

/-- A call that does not panic. -/
def Step : StepRelation (Session State) (Call State) :=
  fun session call next =>
    ∃ result machine,
      (operation hash rmp call).outcome session.machine.cleared =
          (result, machine) ∧
        result ≠ .error .panicked ∧
        next =
          { machine
            expected := expectedAfter session.expected call result
            last := some call }

/-- A map that no one has written to. -/
def freshMap (mapsize : Nat) : ShMem where
  len := mapsize
  content :=
    { isDisk := false
      bufLen := 0
      buf := fun _ => 0 }
  written := []

/-- `StateRestorer::new`, which resets the map. -/
def Session.new (mapsize : Nat) (tempDir : TempDir) : Session State where
  machine := (reset.outcome { shmem := freshMap mapsize, tempDir }).2
  expected := some none
  last := none

/-- A range of the map. -/
def ShMem.Inside (shmem : ShMem) (range : Nat × Nat) : Prop :=
  range.1 + range.2 ≤ shmem.len

instance (shmem : ShMem) (range : Nat × Nat) : Decidable (shmem.Inside range) :=
  inferInstanceAs (Decidable (_ ≤ _))

/-- What is expected is given back, saves stay in the map, and exits are told. -/
structure Conforms (session : Session State) : Prop where
  restores :
    ∀ state,
      session.expected = some state →
        restore rmp session.machine = .ok state
  inside :
    ∀ state fileWrite,
      session.last = some (.save state fileWrite) →
        ∀ range ∈ session.machine.shmem.written,
          session.machine.shmem.Inside range
  wants :
    wantsToExit session.machine.shmem = .ok true ↔
      session.last = some .sendExiting

/-- The exit mark is at the start of a buffer that has room for it. -/
def MarkedIn (mapsize : Nat) (buf : Nat → UInt8) : Prop :=
  32 ≤ mapsize ∧ (List.range 16).map buf = exitingMagic

/-- The exit mark is in the map. -/
def Marked (shmem : ShMem) : Prop :=
  MarkedIn shmem.len shmem.content.buf

/--
A save that comes after an exit is refused, so that none may come; the state puts no
exit mark into the map; and the map has room for the name of a file and the header,
or for neither.
-/
structure SafeSave
    (shmem : ShMem)
    (state : State)
    (fileWrite : FileWrite) : Prop where
  refused :
    shmem.content.hasContent = true → ¬Marked shmem
  spilled :
    ∀ serialized,
      shmem.content.hasContent = false →
        rmp.toVec state = some serialized →
          TooLarge shmem.len serialized →
            fileWrite = .written → ¬(30 ≤ shmem.len ∧ shmem.len < 46)
  kept :
    ∀ serialized,
      shmem.content.hasContent = false →
        rmp.toVec state = some serialized →
          ¬TooLarge shmem.len serialized →
            ¬MarkedIn shmem.len (copyTo shmem.content.buf serialized)

/-- A call that may be made: after an exit, only another one. -/
def Safe (session : Session State) : Call State → Prop
  | .save state fileWrite =>
      SafeSave rmp session.machine.shmem state fileWrite
  | .restore => ¬Marked session.machine.shmem
  | .reset => ¬Marked session.machine.shmem
  | .sendExiting => True

/-- What the map holds, and the file that it names. -/
inductive Holds (machine : Machine) : Option (Option State) → Prop where
  | empty
      (empty : machine.shmem.content.bufLen = 0) :
      Holds machine (some none)
  | kept
      {state : State}
      {serialized : Bytes}
      (packed : rmp.toVec state = some serialized)
      (isDisk : machine.shmem.content.isDisk = false)
      (bufLen : machine.shmem.content.bufLen = serialized.length)
      (slice : machine.shmem.content.slice serialized.length = serialized)
      (fits : ¬TooLarge machine.shmem.len serialized) :
      Holds machine (some (some state))
  | spilled
      {state : State}
      {serialized filename filenameBuf : Bytes}
      (packed : rmp.toVec state = some serialized)
      (isDisk : machine.shmem.content.isDisk = true)
      (named : RmpSerde.string.toVec filename = some filenameBuf)
      (length : filenameBuf.length = 30)
      (bufLen : machine.shmem.content.bufLen = 30)
      (slice : machine.shmem.content.slice 30 = filenameBuf)
      (fits : 46 ≤ machine.shmem.len)
      (file : machine.tempDir filename = some serialized) :
      Holds machine (some (some state))
  | exiting
      (bufLen : machine.shmem.content.bufLen = 16) :
      Holds machine none

/-- What holds between calls whose steps are all safe. -/
structure Sound (session : Session State) : Prop where
  holds : Holds rmp session.machine session.expected
  inside :
    ∀ state fileWrite,
      session.last = some (.save state fileWrite) →
        ∀ range ∈ session.machine.shmem.written,
          session.machine.shmem.Inside range
  marked : Marked session.machine.shmem ↔ session.last = some .sendExiting
  exiting : session.expected = none ↔ session.last = some .sendExiting

variable {hash rmp}
variable {machine : Machine}

theorem wantsToExit_iff
    (shmem : ShMem) :
    wantsToExit shmem = .ok true ↔ Marked shmem := by
  unfold wantsToExit Marked MarkedIn
  by_cases small :
    shmem.len < sizeOfStateShMemContent + exitingMagic.length
  · rw [if_pos small]
    have tooSmall : ¬32 ≤ shmem.len := Nat.not_le.mpr small
    simp [tooSmall]
  · rw [if_neg small]
    have roomy : 32 ≤ shmem.len := Nat.le_of_not_lt small
    simp only [Except.ok.injEq, beq_iff_eq, roomy, true_and]
    rfl

theorem Holds.restores
    {state : Option State}
    (holds : Holds rmp machine (some state))
    (notMarked : ¬Marked machine.shmem) :
    restore rmp machine = .ok state := by
  unfold restore StateShMemContent.hasContent
  cases holds with
  | empty empty =>
      dsimp only
      rw [empty]
      rfl
  | @kept saved serialized packed isDisk bufLen slice fits =>
      have positive := rmp.length_toVec_pos packed
      have notMagic : serialized ≠ exitingMagic := by
        rintro rfl
        exact notMarked ⟨Nat.le_of_not_lt fits, slice⟩
      have inRange :
          machine.shmem.content.bufLenChecked machine.shmem.len =
            .ok serialized.length := by
        unfold StateShMemContent.bufLenChecked
        rw [bufLen]
        exact if_neg fits
      dsimp only
      rw [bufLen, if_pos (decide_eq_true positive), inRange]
      dsimp only
      rw [slice, if_neg notMagic]
      unfold storedState
      rw [isDisk, if_neg Bool.false_ne_true]
      dsimp only
      rw [rmp.fromSlice_toVec packed]
  | @spilled saved serialized filename filenameBuf packed isDisk named length
      bufLen slice fits file =>
      have positive := rmp.length_toVec_pos packed
      have notMagic : filenameBuf ≠ exitingMagic := by
        rintro rfl
        cases length
      have inRange :
          machine.shmem.content.bufLenChecked machine.shmem.len = .ok 30 := by
        unfold StateShMemContent.bufLenChecked
        rw [bufLen]
        exact if_neg (Nat.not_lt.mpr fits)
      have notEmpty : serialized ≠ [] := List.ne_nil_of_length_pos positive
      dsimp only
      rw [bufLen, if_pos (by decide), inRange]
      dsimp only
      rw [slice, if_neg notMagic]
      unfold storedState
      rw [isDisk, if_pos rfl, RmpSerde.string.fromSlice_toVec named]
      dsimp only
      rw [file]
      dsimp only
      rw [if_neg notEmpty]
      dsimp only
      rw [rmp.fromSlice_toVec packed]

variable {session next : Session State}

theorem Sound.conforms
    (sound : Sound rmp session) :
    Conforms rmp session := by
  refine ⟨?_, sound.inside, (wantsToExit_iff _).trans sound.marked⟩
  intro state isExpected
  have holds := sound.holds
  rw [isExpected] at holds
  apply holds.restores
  rw [sound.marked, ← sound.exiting, isExpected]
  exact Option.some_ne_none state

theorem Holds.cleared
    {expected : Option (Option State)}
    (holds : Holds rmp machine expected) :
    Holds rmp machine.cleared expected := by
  cases holds with
  | empty empty => exact .empty empty
  | kept packed isDisk bufLen slice fits =>
      exact .kept packed isDisk bufLen slice fits
  | spilled packed isDisk named length bufLen slice fits file =>
      exact .spilled packed isDisk named length bufLen slice fits file
  | exiting bufLen => exact .exiting bufLen

theorem bufLen_of_not_hasContent
    {content : StateShMemContent}
    (isEmpty : content.hasContent = false) :
    content.bufLen = 0 :=
  Nat.eq_zero_of_not_pos (of_decide_eq_false isEmpty)

theorem Sound.expected_of_empty
    (sound : Sound rmp session)
    (isEmpty : session.machine.shmem.content.hasContent = false) :
    session.expected = some none := by
  have holds := sound.holds
  have zero := bufLen_of_not_hasContent isEmpty
  generalize session.expected = expected at holds
  cases holds with
  | empty _ => rfl
  | kept packed _ bufLen _ _ =>
      have positive := rmp.length_toVec_pos packed
      rw [← bufLen, zero] at positive
      exact absurd positive (Nat.lt_irrefl 0)
  | spilled _ _ _ _ bufLen _ _ _ =>
      exact absurd (zero.symm.trans bufLen) (by decide)
  | exiting bufLen =>
      exact absurd (zero.symm.trans bufLen) (by decide)

theorem Sound.not_marked
    {state : Option State}
    (sound : Sound rmp session)
    (isExpected : session.expected = some state) :
    ¬Marked session.machine.shmem := by
  rw [sound.marked, ← sound.exiting, isExpected]
  exact Option.some_ne_none state

theorem sound_of_not_marked
    {machine : Machine}
    {expected : Option State}
    {call : Call State}
    (holds : Holds rmp machine (some expected))
    (inside :
      ∀ state fileWrite,
        call = .save state fileWrite →
          ∀ range ∈ machine.shmem.written, machine.shmem.Inside range)
    (notMarked : ¬Marked machine.shmem)
    (notExiting : call ≠ .sendExiting) :
    Sound rmp
      { machine
        expected := some expected
        last := some call } where
  holds := holds
  inside := fun state fileWrite isLast =>
    inside state fileWrite (Option.some.inj isLast)
  marked :=
    iff_of_false notMarked fun isLast => notExiting (Option.some.inj isLast)
  exiting :=
    iff_of_false (Option.some_ne_none expected) fun isLast =>
      notExiting (Option.some.inj isLast)

theorem Sound.expected_of_not_marked
    (sound : Sound rmp session)
    (notMarked : ¬Marked session.machine.shmem) :
    ∃ state, session.expected = some state := by
  cases isExpected : session.expected with
  | none =>
      exact absurd (sound.marked.mpr (sound.exiting.mp isExpected)) notMarked
  | some state =>
      exact ⟨state, rfl⟩

theorem holding_inside
    {bytes : Bytes}
    {isDisk : Bool}
    (unwritten : machine.shmem.written = [])
    (fits : 16 + bytes.length ≤ machine.shmem.len) :
    ∀ range ∈ (machine.holding bytes isDisk).shmem.written,
      (machine.holding bytes isDisk).shmem.Inside range := by
  intro range isWritten
  unfold Machine.holding at isWritten
  rw [unwritten] at isWritten
  simp only [List.nil_append, List.cons_append, List.mem_cons,
    List.not_mem_nil, or_false] at isWritten
  unfold ShMem.Inside Machine.holding
  dsimp only
  rcases isWritten with rfl | rfl | rfl
  · exact fits
  · dsimp only
    omega
  · dsimp only
    omega

theorem not_marked_filenameBufOf
    (hash : Bytes → UInt64)
    (serialized : Bytes) :
    ¬Marked (machine.holding (filenameBufOf hash serialized) true).shmem := by
  rintro ⟨-, isMagic⟩
  have first := congrArg (fun bytes : Bytes => bytes[0]?) isMagic
  simp [Machine.holding, copyTo, filenameBufOf, exitingMagic] at first

theorem Sound.afterSave
    {state : State}
    {fileWrite : FileWrite}
    {result : Except Fault Unit}
    {machine : Machine}
    (sound : Sound rmp session)
    (safe : Safe rmp session (.save state fileWrite))
    (outcome :
      SaveOutcome hash rmp state fileWrite session.machine.cleared result
        machine) :
    Sound rmp
      { machine
        expected :=
          expectedAfter session.expected (.save state fileWrite) result
        last := some (.save state fileWrite) } := by
  have notExiting : Call.save state fileWrite ≠ .sendExiting := nofun
  cases outcome with
  | nonEmpty content =>
      have notMarked := safe.refused content
      obtain ⟨expected, isExpected⟩ := sound.expected_of_not_marked notMarked
      have holds := sound.holds.cleared
      unfold expectedAfter
      rw [isExpected] at holds ⊢
      exact sound_of_not_marked holds nofun notMarked notExiting
  | notSerialized empty fails =>
      have isExpected := sound.expected_of_empty empty
      unfold expectedAfter
      rw [isExpected]
      exact
        sound_of_not_marked (.empty (bufLen_of_not_hasContent empty)) nofun
          (sound.not_marked isExpected) notExiting
  | notFiled empty packed large fails =>
      have isExpected := sound.expected_of_empty empty
      unfold expectedAfter
      rw [isExpected]
      exact
        sound_of_not_marked (.empty (bufLen_of_not_hasContent empty)) nofun
          (sound.not_marked isExpected) notExiting
  | tooSmall empty packed large isWritten small =>
      have isExpected := sound.expected_of_empty empty
      unfold expectedAfter
      rw [isExpected]
      exact
        sound_of_not_marked (.empty (bufLen_of_not_hasContent empty)) nofun
          (sound.not_marked isExpected) notExiting
  | @spilled serialized empty packed large isWritten fits =>
      have notBetween := safe.spilled serialized empty packed large isWritten
      have enough : 46 ≤ session.machine.shmem.len := by
        by_contra below
        exact notBetween ⟨fits, Nat.lt_of_not_le below⟩
      refine
        sound_of_not_marked ?_ ?_ (not_marked_filenameBufOf _ _) notExiting
      · exact
          .spilled packed rfl (toVec_filenameOf hash serialized)
            (length_filenameBufOf _ _) (length_filenameBufOf _ _)
            (map_copyTo _ (filenameBufOf hash serialized)) enough
            (Function.update_self ..)
      · intro _ _ _
        apply holding_inside rfl
        rw [length_filenameBufOf]
        exact enough
  | @kept serialized empty packed fits =>
      have notMarked := safe.kept serialized empty packed fits
      refine sound_of_not_marked ?_ ?_ notMarked notExiting
      · exact .kept packed rfl rfl (map_copyTo _ _) fits
      · intro _ _ _
        exact holding_inside rfl (Nat.le_of_not_lt fits)

theorem Sound.step
    {call : Call State}
    (sound : Sound rmp session)
    (safe : Safe rmp session call)
    (taken : Step hash rmp session call next) :
    Sound rmp next := by
  obtain ⟨result, machine, outcome, notPanicked, rfl⟩ := taken
  cases call with
  | save state fileWrite =>
      exact sound.afterSave safe (save_outcome hash rmp outcome)
  | restore =>
      cases outcome
      obtain ⟨expected, isExpected⟩ := sound.expected_of_not_marked safe
      have holds := sound.holds.cleared
      unfold expectedAfter
      rw [isExpected] at holds ⊢
      exact sound_of_not_marked holds nofun safe nofun
  | reset =>
      unfold operation at outcome
      rw [outcome_reset] at outcome
      cases outcome
      exact sound_of_not_marked (.empty rfl) nofun safe nofun
  | sendExiting =>
      unfold operation at outcome
      rw [outcome_sendExiting] at outcome
      split_ifs at outcome with small
      · cases outcome
        exact absurd rfl notPanicked
      · cases outcome
        exact
          { holds := .exiting rfl
            inside := nofun
            marked :=
              iff_of_true
                ⟨Nat.le_of_not_lt small, map_copyTo _ exitingMagic⟩ rfl
            exiting := iff_of_true rfl rfl }

theorem safe_of_conforms
    {call : Call State}
    (taken : Step hash rmp session call next)
    (conforms : Conforms rmp next) :
    Safe rmp session call := by
  obtain ⟨result, machine, outcome, notPanicked, rfl⟩ := taken
  have notMarked :
      call ≠ .sendExiting → ¬Marked machine.shmem := by
    intro notExiting
    rw [← wantsToExit_iff, conforms.wants]
    exact fun isLast => notExiting (Option.some.inj isLast)
  cases call with
  | save state fileWrite =>
      have ends := save_outcome hash rmp outcome
      refine ⟨?_, ?_, ?_⟩
      · intro content
        obtain rfl := ends.of_content content
        exact notMarked nofun
      · intro serialized isEmpty packed large isFiled between
        obtain rfl := ends.of_spilled isEmpty packed large isFiled between.1
        have inside :=
          conforms.inside state fileWrite rfl
            (16, (filenameBufOf hash serialized).length)
            (by simp [Machine.holding])
        unfold ShMem.Inside at inside
        rw [length_filenameBufOf] at inside
        exact absurd between.2 (Nat.not_lt.mpr inside)
      · intro serialized isEmpty packed fits
        obtain rfl := ends.of_fits isEmpty packed fits
        exact notMarked nofun
  | restore =>
      cases outcome
      exact notMarked nofun
  | reset =>
      unfold operation at outcome
      rw [outcome_reset] at outcome
      cases outcome
      exact notMarked nofun
  | sendExiting =>
      exact trivial

theorem sound_new
    (mapsize : Nat)
    (tempDir : TempDir) :
    Sound rmp (Session.new mapsize tempDir) := by
  unfold Session.new
  rw [outcome_reset]
  refine ⟨.empty rfl, nofun, ?_, iff_of_false nofun nofun⟩
  refine iff_of_false ?_ nofun
  rintro ⟨-, isMagic⟩
  have first := congrArg (fun bytes : Bytes => bytes[0]?) isMagic
  cases first

/--
A restorer gives back what was saved, saves inside its map, and tells whether it is
to exit, exactly as long as each call may be made.
-/
theorem conforms_iff_safe
    (hash : Bytes → UInt64)
    (rmp : RmpSerde State)
    (mapsize : Nat)
    (tempDir : TempDir)
    (calls : List (Call State)) :
    Run.Always (Step hash rmp) (Conforms rmp) (Session.new mapsize tempDir)
        calls ↔
      Run.Everywhere (Step hash rmp) (Safe rmp) (Session.new mapsize tempDir)
        calls := by
  apply @Run.always_iff_everywhere_of_invariant _ _ _ _ (Sound rmp)
  · exact fun sound => sound.conforms
  · exact fun sound safe taken => sound.step safe taken
  · exact fun _ taken conforms => safe_of_conforms taken conforms
  · exact sound_new mapsize tempDir

end

/--
A map of 40 bytes has room for the name of a file but not for its header, and a
restorer that is reset after it was told to exit still wants to.
-/
theorem save_outside_and_exit_after_reset :
    (∃ final,
      Run (Step (fun _ => 0) RmpSerde.string)
          (Session.new 40 fun _ => none)
          [.save (List.replicate 31 97) .written] final ∧
        ¬final.machine.shmem.Inside (16, 30) ∧
        restore RmpSerde.string final.machine =
          .error (.bufLenTooLarge 40 46 30) ∧
        ¬Conforms RmpSerde.string final) ∧
      ∃ final,
        Run (Step (fun _ => 0) RmpSerde.string)
            (Session.new 32 fun _ => none) [.sendExiting, .reset] final ∧
          wantsToExit final.machine.shmem = .ok true ∧
          ¬Conforms RmpSerde.string final := by
  constructor
  · refine ⟨_, .single ⟨_, _, rfl, nofun, rfl⟩, by decide, rfl, ?_⟩
    intro conforms
    have restored := conforms.restores _ rfl
    cases restored
  · refine
      ⟨_, .cons ⟨_, _, rfl, nofun, rfl⟩ (.single ⟨_, _, rfl, nofun, rfl⟩), rfl,
        ?_⟩
    intro conforms
    have isLast := conforms.wants.mp rfl
    cases isLast

end MeFuzz.StateRestorer
