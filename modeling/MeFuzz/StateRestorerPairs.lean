import MeFuzz.StateRestorerRuns

namespace MeFuzz.StateRestorer

/-!
# Two restorers of one host

Restorers have a map of their own but share the temporary directory.  The name of a
file comes from the end of the state that is in it, so two restorers may use one
file.  Then each replaces or removes the file of the other.
-/

/-- One of two restorers. -/
inductive Owner where
  | first
  | second
  deriving Repr, DecidableEq

/-- The other restorer. -/
def Owner.other : Owner → Owner
  | .first => .second
  | .second => .first

theorem Owner.other_ne (owner : Owner) :
    owner.other ≠ owner := by
  cases owner <;> exact nofun

theorem Owner.eq_or_eq_other (owner side : Owner) :
    side = owner ∨ side = owner.other := by
  cases owner <;> cases side <;> simp [Owner.other]

/-- Two maps and the directory. -/
structure Host where
  shmem : Owner → ShMem
  tempDir : TempDir

/-- What a restorer works on. -/
def Host.machine (host : Host) (owner : Owner) : Machine where
  shmem := host.shmem owner
  tempDir := host.tempDir

/-- The host after a restorer has worked. -/
def Host.update (host : Host) (owner : Owner) (machine : Machine) : Host where
  shmem := Function.update host.shmem owner machine.shmem
  tempDir := machine.tempDir

/-- Two new restorers. -/
def Host.new (mapsize : Owner → Nat) (tempDir : TempDir) : Host where
  shmem := fun owner =>
    (reset.outcome { shmem := freshMap (mapsize owner), tempDir }).2.shmem
  tempDir := tempDir

/-- The file that a map names. -/
def ShMem.Names (shmem : ShMem) (filename : Bytes) : Prop :=
  shmem.content.tmpfile shmem.len = .ok (some filename)

section

variable {State : Type}
variable (hash : Bytes → UInt64)
variable (rmp : RmpSerde State)

/-- An operation of one of the restorers. -/
def HostStep : StepRelation Host (Owner × Call State) :=
  fun host label next =>
    next =
      host.update label.1
        ((operation hash rmp label.2).outcome
          (host.machine label.1).cleared).2

/-- The operation does not change what the other restorer gives back. -/
def Undisturbed (host : Host) (label : Owner × Call State) : Prop :=
  ∀ next,
    HostStep hash rmp host label next →
      restore rmp (next.machine label.1.other) =
        restore rmp (host.machine label.1.other)

/-- A file is still there and reads as before. -/
def Rereads (before after : TempDir) (filename : Bytes) : Prop :=
  ∃ stored,
    after filename = some stored ∧ stored ≠ [] ∧
      rmp.fromSlice stored = (before filename).bind rmp.fromSlice

/--
A save writes no file that the other's map names, unless it reads as before; and a
restorer is not reset while both maps name one file.
-/
def Apart (host : Host) : Owner × Call State → Prop
  | (owner, .save state fileWrite) =>
      ∀ serialized,
        (host.shmem owner).content.hasContent = false →
          rmp.toVec state = some serialized →
            TooLarge (host.shmem owner).len serialized →
              (host.shmem owner.other).Names (filenameOf hash serialized) →
                Rereads rmp host.tempDir
                  (host.tempDir.write (filenameOf hash serialized) serialized
                    fileWrite)
                  (filenameOf hash serialized)
  | (_, .restore) => True
  | (owner, .reset) =>
      ∀ filename,
        (host.shmem owner).Names filename →
          ¬(host.shmem owner.other).Names filename
  | (owner, .sendExiting) =>
      ∀ filename,
        (host.shmem owner).Names filename →
          ¬(host.shmem owner.other).Names filename

/-- The file that the map names is there and can be read. -/
def Intact (shmem : ShMem) (tempDir : TempDir) : Prop :=
  ∀ filename,
    shmem.Names filename →
      ∃ stored state,
        tempDir filename = some stored ∧ stored ≠ [] ∧
          rmp.fromSlice stored = some state

variable {hash rmp}
variable {shmem : ShMem}
variable {tempDir other : TempDir}
variable {filename : Bytes}

variable (rmp) in
/-- What a restorer gives back that has a file. -/
def readBack (filename : Bytes) : Option Bytes → Except Error (Option State)
  | none => .error .file
  | some stored =>
      if stored = [] then .error (.emptyFile filename)
      else
        match rmp.fromSlice stored with
        | none => .error .serialize
        | some state => .ok (some state)

/-- The bytes of the buffer that name a file. -/
structure NamedBy (shmem : ShMem) (filename : Bytes) (len : Nat) : Prop where
  isDisk : shmem.content.isDisk = true
  inRange : shmem.content.bufLenChecked shmem.len = .ok len
  packed :
    RmpSerde.string.fromSlice (shmem.content.slice len) = some filename

theorem names_iff :
    shmem.Names filename ↔ ∃ len, NamedBy shmem filename len := by
  unfold ShMem.Names StateShMemContent.tmpfile
  constructor
  · intro names
    cases isDisk : shmem.content.isDisk with
    | false =>
        rw [isDisk, if_neg Bool.false_ne_true] at names
        cases names
    | true =>
        rw [isDisk, if_pos rfl] at names
        cases inRange : shmem.content.bufLenChecked shmem.len with
        | error error =>
            rw [inRange] at names
            cases names
        | ok len =>
            rw [inRange] at names
            dsimp only at names
            cases packed :
              RmpSerde.string.fromSlice (shmem.content.slice len) with
            | none =>
                rw [packed] at names
                cases names
            | some name =>
                rw [packed] at names
                cases names
                exact ⟨len, isDisk, inRange, packed⟩
  · rintro ⟨len, isDisk, inRange, packed⟩
    rw [isDisk, if_pos rfl, inRange]
    dsimp only
    rw [packed]

theorem bufLen_of_inRange
    {content : StateShMemContent}
    {mapsize len : Nat}
    (inRange : content.bufLenChecked mapsize = .ok len) :
    len = content.bufLen := by
  unfold StateShMemContent.bufLenChecked at inRange
  split_ifs at inRange
  exact (Except.ok.inj inRange).symm

theorem NamedBy.hasContent
    {len : Nat}
    (named : NamedBy shmem filename len) :
    shmem.content.hasContent = true ∧
      shmem.content.slice len ≠ exitingMagic := by
  have packed := named.packed
  constructor
  · unfold StateShMemContent.hasContent
    rw [← bufLen_of_inRange named.inRange]
    apply decide_eq_true
    apply Nat.pos_of_ne_zero
    rintro rfl
    cases packed
  · intro isMagic
    rw [isMagic] at packed
    cases packed

theorem restore_of_names
    (names : shmem.Names filename) :
    restore rmp { shmem, tempDir } =
      readBack rmp filename (tempDir filename) := by
  obtain ⟨len, named⟩ := names_iff.mp names
  obtain ⟨hasContent, notMagic⟩ := named.hasContent
  unfold restore storedState
  dsimp only
  rw [hasContent, if_pos rfl, named.inRange]
  dsimp only
  rw [if_neg notMagic, named.isDisk, if_pos rfl, named.packed]
  dsimp only
  cases tempDir filename with
  | none =>
      rfl
  | some stored =>
      unfold readBack
      dsimp only
      by_cases isEmpty : stored = []
      · rw [if_pos isEmpty, if_pos isEmpty]
      · rw [if_neg isEmpty]
        exact (if_neg isEmpty).symm

theorem restore_of_not_names
    (unnamed : ∀ filename, ¬shmem.Names filename) :
    restore rmp { shmem, tempDir } = restore rmp { shmem, tempDir := other } := by
  unfold restore storedState
  dsimp only
  cases inRange : shmem.content.bufLenChecked shmem.len with
  | error error =>
      rfl
  | ok len =>
      dsimp only
      cases isDisk : shmem.content.isDisk with
      | false =>
          rfl
      | true =>
          rw [if_pos rfl, if_pos rfl]
          cases packed :
            RmpSerde.string.fromSlice (shmem.content.slice len) with
          | none =>
              rfl
          | some filename =>
              exact
                absurd (names_iff.mpr ⟨len, isDisk, inRange, packed⟩)
                  (unnamed filename)

theorem readBack_eq_iff
    {stored : Bytes}
    {state : State}
    {fresh : Option Bytes}
    (notEmpty : stored ≠ [])
    (reads : rmp.fromSlice stored = some state) :
    readBack rmp filename fresh = readBack rmp filename (some stored) ↔
      ∃ bytes,
        fresh = some bytes ∧ bytes ≠ [] ∧ rmp.fromSlice bytes = some state := by
  have before : readBack rmp filename (some stored) = .ok (some state) := by
    unfold readBack
    dsimp only
    rw [if_neg notEmpty, reads]
  rw [before]
  constructor
  · intro same
    cases fresh with
    | none =>
        cases same
    | some bytes =>
        unfold readBack at same
        dsimp only at same
        split_ifs at same with isEmpty
        cases readsFresh : rmp.fromSlice bytes with
        | none =>
            rw [readsFresh] at same
            cases same
        | some fresh =>
            rw [readsFresh] at same
            cases same
            exact ⟨bytes, rfl, isEmpty, readsFresh⟩
  · rintro ⟨bytes, rfl, notEmptyFresh, readsFresh⟩
    unfold readBack
    dsimp only
    rw [if_neg notEmptyFresh, readsFresh]

theorem restore_eq_iff
    (intact : Intact rmp shmem tempDir) :
    restore rmp { shmem, tempDir := other } = restore rmp { shmem, tempDir } ↔
      ∀ filename, shmem.Names filename → Rereads rmp tempDir other filename := by
  by_cases named : ∃ filename, shmem.Names filename
  · obtain ⟨filename, names⟩ := named
    obtain ⟨stored, state, isStored, notEmpty, reads⟩ := intact filename names
    rw [restore_of_names names, restore_of_names names, isStored,
      readBack_eq_iff notEmpty reads]
    have readsBefore : (tempDir filename).bind rmp.fromSlice = some state := by
      rw [isStored]
      exact reads
    constructor
    · intro same name namesToo
      obtain rfl : filename = name := by
        have both := names.symm.trans namesToo
        cases both
        rfl
      obtain ⟨bytes, isFresh, notEmptyFresh, readsFresh⟩ := same
      exact ⟨bytes, isFresh, notEmptyFresh, readsFresh.trans readsBefore.symm⟩
    · intro rereads
      obtain ⟨bytes, isFresh, notEmptyFresh, readsFresh⟩ :=
        rereads filename names
      exact ⟨bytes, isFresh, notEmptyFresh, readsFresh.trans readsBefore⟩
  · have unnamed := not_exists.mp named
    exact
      iff_of_true (restore_of_not_names unnamed) fun filename names =>
        absurd names (unnamed filename)

theorem Intact.of_rereads
    (intact : Intact rmp shmem tempDir)
    (rereads :
      ∀ filename, shmem.Names filename → Rereads rmp tempDir other filename) :
    Intact rmp shmem other := by
  intro filename names
  obtain ⟨stored, state, isStored, notEmpty, reads⟩ := intact filename names
  obtain ⟨bytes, isFresh, notEmptyFresh, readsFresh⟩ := rereads filename names
  rw [isStored] at readsFresh
  exact ⟨bytes, state, isFresh, notEmptyFresh, readsFresh.trans reads⟩

theorem Intact.rereads
    (intact : Intact rmp shmem tempDir)
    (names : shmem.Names filename)
    (same : other filename = tempDir filename) :
    Rereads rmp tempDir other filename := by
  obtain ⟨stored, state, isStored, notEmpty, reads⟩ := intact filename names
  refine ⟨stored, same.trans isStored, notEmpty, ?_⟩
  rw [isStored]
  rfl

theorem not_names_of_not_isDisk
    (isDisk : shmem.content.isDisk = false) :
    ¬shmem.Names filename := by
  intro names
  obtain ⟨len, named⟩ := names_iff.mp names
  exact absurd (isDisk.symm.trans named.isDisk) nofun

theorem not_names_of_empty
    (isEmpty : shmem.content.hasContent = false) :
    ¬shmem.Names filename := by
  intro names
  obtain ⟨len, named⟩ := names_iff.mp names
  exact absurd (isEmpty.symm.trans named.hasContent.1) nofun

theorem write_of_ne
    {serialized name : Bytes}
    {fileWrite : FileWrite}
    (differs : name ≠ filename) :
    tempDir.write filename serialized fileWrite name = tempDir name := by
  cases fileWrite with
  | written => exact Function.update_of_ne differs _ _
  | notCreated => rfl
  | interrupted count => exact Function.update_of_ne differs _ _

theorem afterReset_of_names
    (names : shmem.Names filename) :
    tempDir.afterReset shmem = tempDir.remove filename := by
  unfold ShMem.Names at names
  unfold TempDir.afterReset
  rw [names]

theorem afterReset_of_not_names
    (unnamed : ¬shmem.Names filename) :
    tempDir.afterReset shmem filename = tempDir filename := by
  by_cases named : ∃ name, shmem.Names name
  · obtain ⟨name, names⟩ := named
    have differs : filename ≠ name := by
      rintro rfl
      exact unnamed names
    rw [afterReset_of_names names]
    exact Function.update_of_ne differs _ _
  · unfold TempDir.afterReset
    cases isFile : shmem.content.tmpfile shmem.len with
    | error error =>
        rfl
    | ok file =>
        cases file with
        | none => rfl
        | some name => exact absurd ⟨name, isFile⟩ named

variable {host : Host}
variable {owner : Owner}
variable {state : State}
variable {fileWrite : FileWrite}
variable {result : Except Fault Unit}
variable {machine : Machine}

theorem rereads_save_iff
    (intact : Intact rmp (host.shmem owner.other) host.tempDir)
    (outcome :
      SaveOutcome hash rmp state fileWrite (host.machine owner).cleared result
        machine) :
    (∀ filename,
        (host.shmem owner.other).Names filename →
          Rereads rmp host.tempDir machine.tempDir filename) ↔
      Apart hash rmp host (owner, .save state fileWrite) := by
  constructor
  · intro rereads serialized isEmpty packed large names
    have reread := rereads _ names
    rcases outcome.of_tooLarge isEmpty packed large with rfl | rfl
    · exact reread
    · exact reread
  · intro apart filename names
    have elsewhere :
        ∀ serialized,
          (host.shmem owner).content.hasContent = false →
            rmp.toVec state = some serialized →
              TooLarge (host.shmem owner).len serialized →
                Rereads rmp host.tempDir
                  (host.tempDir.write (filenameOf hash serialized) serialized
                    fileWrite)
                  filename := by
      intro serialized isEmpty packed large
      by_cases isFile : filename = filenameOf hash serialized
      · subst isFile
        exact apart serialized isEmpty packed large names
      · exact intact.rereads names (write_of_ne isFile)
    cases outcome with
    | nonEmpty _ => exact intact.rereads names rfl
    | notSerialized _ _ => exact intact.rereads names rfl
    | notFiled isEmpty packed large _ => exact elsewhere _ isEmpty packed large
    | tooSmall isEmpty packed large isWritten _ =>
        subst isWritten
        exact elsewhere _ isEmpty packed large
    | spilled isEmpty packed large isWritten _ =>
        subst isWritten
        exact elsewhere _ isEmpty packed large
    | kept _ _ _ => exact intact.rereads names rfl

theorem rereads_reset_iff
    {own : ShMem}
    (intact : Intact rmp shmem tempDir) :
    (∀ filename,
        shmem.Names filename →
          Rereads rmp tempDir (tempDir.afterReset own) filename) ↔
      ∀ filename, own.Names filename → ¬shmem.Names filename := by
  constructor
  · intro rereads filename ownNames names
    obtain ⟨stored, isStored, -, -⟩ := rereads filename names
    rw [afterReset_of_names ownNames] at isStored
    unfold TempDir.remove at isStored
    rw [Function.update_self] at isStored
    cases isStored
  · intro apart filename names
    apply intact.rereads names
    exact afterReset_of_not_names fun ownNames => apart filename ownNames names

theorem intact_save
    (intact : Intact rmp (host.shmem owner) host.tempDir)
    (outcome :
      SaveOutcome hash rmp state fileWrite (host.machine owner).cleared result
        machine) :
    Intact rmp machine.shmem machine.tempDir := by
  cases outcome with
  | nonEmpty _ => exact intact
  | notSerialized _ _ => exact intact
  | notFiled isEmpty _ _ _ =>
      exact fun filename names => absurd names (not_names_of_empty isEmpty)
  | tooSmall isEmpty _ _ _ _ =>
      exact fun filename names => absurd names (not_names_of_empty isEmpty)
  | @spilled serialized _ packed _ _ _ =>
      intro filename names
      obtain ⟨len, isDisk, inRange, isName⟩ := names_iff.mp names
      have isLength := bufLen_of_inRange inRange
      have slice := map_copyTo (host.shmem owner).content.buf
        (filenameBufOf hash serialized)
      have isFile :=
        RmpSerde.string.fromSlice_toVec (toVec_filenameOf hash serialized)
      rw [isLength] at isName
      have same := (congrArg RmpSerde.string.fromSlice slice).symm.trans isName
      obtain rfl := Option.some.inj (isFile.symm.trans same)
      exact
        ⟨serialized, state, Function.update_self ..,
          List.ne_nil_of_length_pos (rmp.length_toVec_pos packed),
          rmp.fromSlice_toVec packed⟩
  | kept _ _ _ =>
      exact fun filename names => absurd names (not_names_of_not_isDisk rfl)

theorem host_update_other
    (host : Host)
    (owner : Owner)
    (machine : Machine) :
    (host.update owner machine).shmem owner.other = host.shmem owner.other :=
  Function.update_of_ne owner.other_ne _ _

theorem host_update_self
    (host : Host)
    (owner : Owner)
    (machine : Machine) :
    (host.update owner machine).shmem owner = machine.shmem :=
  Function.update_self ..

/-- What an operation leaves for both restorers. -/
structure Effect
    (hash : Bytes → UInt64)
    (rmp : RmpSerde State)
    (host : Host)
    (owner : Owner)
    (call : Call State)
    (machine : Machine) : Prop where
  own : Intact rmp machine.shmem machine.tempDir
  others :
    (∀ filename,
        (host.shmem owner.other).Names filename →
          Rereads rmp host.tempDir machine.tempDir filename) ↔
      Apart hash rmp host (owner, call)

theorem operation_effect
    {call : Call State}
    (intact : ∀ owner, Intact rmp (host.shmem owner) host.tempDir) :
    Effect hash rmp host owner call
      ((operation hash rmp call).outcome (host.machine owner).cleared).2 := by
  generalize ends :
    (operation hash rmp call).outcome (host.machine owner).cleared = outcome
  obtain ⟨result, machine⟩ := outcome
  cases call with
  | save state fileWrite =>
      have outcome := save_outcome hash rmp ends
      exact
        ⟨intact_save (intact owner) outcome,
          rereads_save_iff (intact owner.other) outcome⟩
  | restore =>
      cases ends
      refine ⟨intact owner, iff_of_true ?_ trivial⟩
      exact fun filename names => (intact owner.other).rereads names rfl
  | reset =>
      unfold operation at ends
      rw [outcome_reset] at ends
      cases ends
      exact
        ⟨fun _ names => absurd names (not_names_of_not_isDisk rfl),
          rereads_reset_iff (intact owner.other)⟩
  | sendExiting =>
      unfold operation at ends
      rw [outcome_sendExiting] at ends
      split_ifs at ends
      · cases ends
        exact
          ⟨fun _ names => absurd names (not_names_of_not_isDisk rfl),
            rereads_reset_iff (intact owner.other)⟩
      · cases ends
        exact
          ⟨fun _ names => absurd names (not_names_of_not_isDisk rfl),
            rereads_reset_iff (intact owner.other)⟩

/-- The files of both restorers are there and can be read. -/
def BothIntact (rmp : RmpSerde State) (host : Host) : Prop :=
  ∀ owner, Intact rmp (host.shmem owner) host.tempDir

variable {label : Owner × Call State}
variable {next : Host}

theorem undisturbed_iff
    (intact : BothIntact rmp host) :
    Undisturbed hash rmp host label ↔ Apart hash rmp host label := by
  obtain ⟨owner, call⟩ := label
  have effect : Effect hash rmp host owner call _ := operation_effect intact
  rw [← effect.others, ← restore_eq_iff (intact owner.other)]
  unfold Undisturbed HostStep
  constructor
  · intro undisturbed
    have same := undisturbed _ rfl
    unfold Host.machine at same
    rwa [host_update_other] at same
  · rintro same _ rfl
    unfold Host.machine
    rwa [host_update_other]

theorem BothIntact.step
    (intact : BothIntact rmp host)
    (apart : Apart hash rmp host label)
    (taken : HostStep hash rmp host label next) :
    BothIntact rmp next := by
  obtain ⟨owner, call⟩ := label
  have effect : Effect hash rmp host owner call _ := operation_effect intact
  cases taken
  intro side
  rcases owner.eq_or_eq_other side with rfl | rfl
  · rw [host_update_self]
    exact effect.own
  · rw [host_update_other]
    exact (intact owner.other).of_rereads (effect.others.mpr apart)

theorem bothIntact_new
    (mapsize : Owner → Nat)
    (tempDir : TempDir) :
    BothIntact rmp (Host.new mapsize tempDir) :=
  fun _ _ names => absurd names (not_names_of_not_isDisk rfl)

/--
Neither of two restorers changes what the other gives back exactly as long as they
use no file together, but for one that reads as before.
-/
theorem undisturbed_iff_apart
    (hash : Bytes → UInt64)
    (rmp : RmpSerde State)
    (mapsize : Owner → Nat)
    (tempDir : TempDir)
    (labels : List (Owner × Call State)) :
    Run.Everywhere (HostStep hash rmp) (Undisturbed hash rmp)
        (Host.new mapsize tempDir) labels ↔
      Run.Everywhere (HostStep hash rmp) (Apart hash rmp)
        (Host.new mapsize tempDir) labels := by
  apply @Run.everywhere_iff_everywhere _ _ _ (BothIntact rmp)
  · exact fun intact _ => undisturbed_iff intact
  · exact fun intact apart taken => intact.step apart taken
  · exact bothIntact_new mapsize tempDir

end

/-- A restorer that is reset removes the file of another with the same state. -/
theorem reset_removes_file_of_other :
    ∃ host next,
      Run (HostStep (fun _ => 0) RmpSerde.string)
          (Host.new (fun _ => 64) fun _ => none)
          [(.first, .save (List.replicate 60 97) .written),
            (.second, .save (List.replicate 60 97) .written)] host ∧
        HostStep (fun _ => 0) RmpSerde.string host (.first, .reset) next ∧
        restore RmpSerde.string (host.machine .second) =
          .ok (some (List.replicate 60 97)) ∧
        restore RmpSerde.string (next.machine .second) = .error .file :=
  ⟨_, _, .cons rfl (.single rfl), rfl, by rfl, by rfl⟩

end MeFuzz.StateRestorer
