import MeFuzz.Entities
import MeFuzz.TcpWireAgreement

namespace MeFuzz.Tcp

open MessagePack

/-!
# A testcase on its way to the master

A fuzzer's event manager serializes a new testcase and the master's `Fuzzer`
reads it.  The record is declared on both sides and matched by position only.
Sizes that the node counts in 64 bits have 32 bits in the master's record.
-/

namespace Node

/-- `ExitKind`, without the differential executors' kind. -/
inductive ExitKind where
  | ok
  | crash
  | oom
  | timeout
  deriving Repr, DecidableEq

/-- The name of the variant. -/
def ExitKind.name : ExitKind → String
  | .ok => "Ok"
  | .crash => "Crash"
  | .oom => "Oom"
  | .timeout => "Timeout"

/-- `Duration`: its nanoseconds are always less than a second. -/
structure Duration where
  secs : UInt64
  nanos : UInt32
  nanos_lt : nanos.toNat < 1000000000
  deriving Repr, DecidableEq

/-- `Event::NewTestcase` over `BytesInput`. -/
structure NewTestcase where
  input : Bytes
  observersBuf : Option Bytes
  exitKind : ExitKind
  corpusSize : UInt64
  time : Duration
  executions : UInt64
  deriving Repr, DecidableEq

/-- A string as msgpack writes it. -/
def strValue (text : String) : Value :=
  .str text.toUTF8.data.toList

/-- `NewTestcase`, the name of the variant. -/
def newTestcaseName : Bytes :=
  "NewTestcase".toUTF8.data.toList

/--
The variant's name with the fields in declaration order.  The client
configuration is the default of `EventFirer`, which `MasterEventManager` keeps.
-/
def NewTestcase.toValue (event : NewTestcase) : Value :=
  .map
    [.str newTestcaseName,
      .array
        [.array [.ofBytes event.input],
          match event.observersBuf with
          | none => .nil
          | some buf => .ofBytes buf,
          strValue event.exitKind.name,
          .int event.corpusSize.toNat,
          strValue "AlwaysUnique",
          .array [.int event.time.secs.toNat, .int event.time.nanos.toNat],
          .int event.executions.toNat]]

/-- What `MasterEventManager::fire` hands to the sending task. -/
def fire
    (pack : Value → Bytes)
    (clientId : UInt32)
    (event : NewTestcase) : TcpMasterMessage where
  clientId := clientId
  flags := llmpFlagB2M ||| llmpFlagNewTestCase
  payload := pack event.toValue

/-- The sending task passes the message on to `send_msg`. -/
def forward
    (deflate : Bytes → Bytes)
    (msg : TcpMasterMessage) : TcpMasterMessage :=
  sendMsg deflate msg.payload msg.clientId msg.flags

end Node

/-- `timestamp`. -/
structure Timestamp where
  secs : UInt64
  nsec : UInt64
  deriving Repr, DecidableEq

/-- `newTestcase`; strings are byte strings. -/
structure NewTestcase where
  input : List Int
  observersBug : Option (List Int)
  exitKind : Bytes
  corpusSize : UInt32
  clientConfig : Bytes
  timestamp : Timestamp
  executions : UInt32
  deriving Repr, DecidableEq

/-- A pointer to a slice: nil or the slice. -/
def pointerOfValue : Value → Option (Option (List Int))
  | .nil => some none
  | value => value.ints?.map some

/-- Fill the fields in declaration order, keeping the low bits of integers. -/
def NewTestcase.ofValue : Value → Option NewTestcase
  | .array
      [.array [input], observersBug, .str exitKind, .int corpusSize,
        .str clientConfig, .array [.int secs, .int nsec], .int executions] =>
      input.ints?.bind fun input =>
        (pointerOfValue observersBug).map fun observersBug =>
          { input := input
            observersBug := observersBug
            exitKind := exitKind
            corpusSize := UInt32.ofInt corpusSize
            clientConfig := clientConfig
            timestamp :=
              { secs := UInt64.ofInt secs, nsec := UInt64.ofInt nsec }
            executions := UInt32.ofInt executions }
  | _ => none

/-- The entries of a map from names to testcases. -/
def NewTestcase.entriesOf : List Value → Option (List (Bytes × NewTestcase))
  | [] => some []
  | .str name :: value :: rest =>
      (NewTestcase.ofValue value).bind fun out =>
        (entriesOf rest).map ((name, out) :: ·)
  | _ => none

/-- `UnmarshalEnum`: the last entry under the name of the record. -/
def NewTestcase.ofEnumValue : Value → Option NewTestcase
  | .map items =>
      (NewTestcase.entriesOf items).bind fun entries =>
        entries.reverse.lookup Node.newTestcaseName
  | _ => none

/-- How `GetTestcase` fails. -/
inductive GetTestcaseError where
  | errStopElement
  | unmarshal
  deriving Repr, DecidableEq

/-- The fuzzer's element, as `setup` creates it for a connection. -/
structure Fuzzer where
  nodeID : NodeID
  onNodeID : OnNodeID
  deriving Repr, DecidableEq

/-- `Fuzzer.GetTestcase`, given what the element's channel yields. -/
def Fuzzer.getTestcase
    (unpack : Bytes → Option Value)
    (makeHash : Bytes → UInt64)
    (fuzzer : Fuzzer)
    (received : Option Bytes) : Except GetTestcaseError Testcase :=
  match received with
  | none => .error .errStopElement
  | some outBytes =>
      match (unpack outBytes).bind NewTestcase.ofEnumValue with
      | none => .error .unmarshal
      | some out =>
          let inputData := intsToBytes out.input
          .ok
            { id := makeHash inputData
              fuzzerID :=
                { nodeID := fuzzer.nodeID, onNodeID := fuzzer.onNodeID }
              inputData := inputData
              execs := out.executions.toUInt64
              corpusSize := out.corpusSize.toUInt64
              createdAt :=
                Time.unix out.timestamp.secs.toInt64.toInt
                  out.timestamp.nsec.toInt64.toInt }

/--
The event reaches the master unchanged: the loop hands a payload to the channel
of the client, and the fuzzer behind it reads the same testcase from it.
-/
def ArrivesUnchanged
    (rustPack : Value → Bytes)
    (goUnpack : Bytes → Option Value)
    (rustDeflate : Bytes → Bytes)
    (goInflate : Bytes → Option Bytes)
    (makeHash : Bytes → UInt64)
    (fuzzer : Fuzzer)
    (event : Node.NewTestcase) : Prop :=
  ∃ payload testcase,
    Delivers goUnpack goInflate
      (rustPack
        (Node.forward rustDeflate
          (Node.fire rustPack fuzzer.onNodeID event)).toValue)
      fuzzer.onNodeID
      (Node.llmpFlagB2M ||| Node.llmpFlagNewTestCase)
      payload ∧
    fuzzer.getTestcase goUnpack makeHash (some payload) = .ok testcase ∧
    testcase.inputData = event.input ∧
    testcase.execs = event.executions ∧
    testcase.corpusSize = event.corpusSize ∧
    testcase.createdAt.unixSec = event.time.secs.toNat ∧
    testcase.createdAt.nsec = event.time.nanos.toNat ∧
    testcase.fuzzerID =
      { nodeID := fuzzer.nodeID, onNodeID := fuzzer.onNodeID }

/-- The master's record of an event of the node. -/
def recordOf (event : Node.NewTestcase) : NewTestcase where
  input := bytesToInts event.input
  observersBug := event.observersBuf.map bytesToInts
  exitKind := event.exitKind.name.toUTF8.data.toList
  corpusSize := event.corpusSize.toUInt32
  clientConfig := "AlwaysUnique".toUTF8.data.toList
  timestamp :=
    { secs := event.time.secs, nsec := event.time.nanos.toUInt64 }
  executions := event.executions.toUInt32

theorem uint64_ofInt_toNat (field : UInt64) :
    UInt64.ofInt (field.toNat : Int) = field := by
  have bound := field.toNat_lt
  rw [UInt64.ofInt, Int.emod_eq_of_lt (by omega) (by omega), Int.toNat_natCast,
    UInt64.ofNat_toNat]

theorem uint32_ofInt_uint64 (field : UInt64) :
    UInt32.ofInt (field.toNat : Int) = field.toUInt32 := by
  rw [← UInt32.toNat_inj, UInt32.ofInt, UInt64.toNat_toUInt32]
  have cut : ((field.toNat : Int) % 2 ^ 32).toNat = field.toNat % 2 ^ 32 := by
    omega
  rw [cut, UInt32.toNat_ofNat', Nat.mod_mod]

theorem widened_eq_iff (field : UInt64) :
    field.toUInt32.toUInt64 = field ↔ field.toNat < 2 ^ 32 := by
  rw [← UInt64.toNat_inj, UInt32.toNat_toUInt64, UInt64.toNat_toUInt32]
  constructor
  · intro equal
    omega
  · intro small
    omega

theorem pointerOfValue_ofBytes (buf : Bytes) :
    pointerOfValue (.ofBytes buf) = some (some (bytesToInts buf)) := by
  have readBack : (Value.ofBytes buf).ints? = some (bytesToInts buf) :=
    Value.ints?_ofInts _
  simpa [pointerOfValue, Value.ofBytes, Value.ofInts] using readBack

theorem ofValue_fields
    (event : Node.NewTestcase)
    {observersBug : Value}
    {buf : Option (List Int)}
    (pointer : pointerOfValue observersBug = some buf) :
    NewTestcase.ofValue
        (.array
          [.array [.ofBytes event.input], observersBug,
            Node.strValue event.exitKind.name,
            .int event.corpusSize.toNat,
            Node.strValue "AlwaysUnique",
            .array [.int event.time.secs.toNat, .int event.time.nanos.toNat],
            .int event.executions.toNat]) =
      some { recordOf event with observersBug := buf } := by
  have input : (Value.ofBytes event.input).ints? = some (bytesToInts event.input) :=
    Value.ints?_ofInts _
  have nanos :
      UInt64.ofInt (event.time.nanos.toNat : Int) =
        event.time.nanos.toUInt64 :=
    uint64_ofInt_toNat event.time.nanos.toUInt64
  simp only [NewTestcase.ofValue, Node.strValue, input, pointer,
    Option.bind_some, Option.map_some, uint32_ofInt_uint64,
    uint64_ofInt_toNat, nanos, recordOf]

theorem ofEnumValue_toValue (event : Node.NewTestcase) :
    NewTestcase.ofEnumValue event.toValue = some (recordOf event) := by
  have pointer :
      pointerOfValue
          (match event.observersBuf with
            | none => .nil
            | some buf => .ofBytes buf) =
        some (recordOf event).observersBug := by
    cases buffered : event.observersBuf with
    | none => simp [pointerOfValue, recordOf, buffered]
    | some buf => simp [pointerOfValue_ofBytes, recordOf, buffered]
  rw [Node.NewTestcase.toValue, NewTestcase.ofEnumValue,
    NewTestcase.entriesOf, ofValue_fields event pointer]
  simp [NewTestcase.entriesOf]

/-- The testcase that `GetTestcase` returns for an event. -/
theorem Fuzzer.getTestcase_event
    {pack : Value → Bytes}
    {unpack : Bytes → Option Value}
    {event : Node.NewTestcase}
    (unpacks : unpack (pack event.toValue) = some event.toValue)
    (makeHash : Bytes → UInt64)
    (fuzzer : Fuzzer) :
    fuzzer.getTestcase unpack makeHash (some (pack event.toValue)) =
      .ok
        { id := makeHash event.input
          fuzzerID :=
            { nodeID := fuzzer.nodeID, onNodeID := fuzzer.onNodeID }
          inputData := event.input
          execs := event.executions.toUInt32.toUInt64
          corpusSize := event.corpusSize.toUInt32.toUInt64
          createdAt :=
            Time.unix event.time.secs.toInt64.toInt
              event.time.nanos.toUInt64.toInt64.toInt } := by
  simp only [getTestcase, unpacks, Option.bind_some, ofEnumValue_toValue,
    recordOf, intsToBytes_bytesToInts]

theorem toInt_toInt64
    {field : UInt64}
    (small : field.toNat < 2 ^ 63) :
    field.toInt64.toInt = field.toNat := by
  rw [Int64.toInt, UInt64.toBitVec_toInt64,
    BitVec.toInt_eq_toNat_of_lt (by rw [UInt64.toNat_toBitVec]; omega),
    UInt64.toNat_toBitVec]

theorem createdAt_event
    (time : Node.Duration)
    (in_time : time.secs.toNat < 2 ^ 63) :
    (Time.unix time.secs.toInt64.toInt
        time.nanos.toUInt64.toInt64.toInt).unixSec = time.secs.toNat ∧
      (Time.unix time.secs.toInt64.toInt
        time.nanos.toUInt64.toInt64.toInt).nsec = time.nanos.toNat := by
  have nanos_lt := time.nanos_lt
  have secs : time.secs.toInt64.toInt = time.secs.toNat :=
    toInt_toInt64 in_time
  have nanos : time.nanos.toUInt64.toInt64.toInt = time.nanos.toNat := by
    rw [toInt_toInt64 (by rw [UInt32.toNat_toUInt64]; omega),
      UInt32.toNat_toUInt64]
  rw [secs, nanos]
  obtain ⟨same_secs, same_nanos⟩ :=
    @Time.unix_reads_back time.secs.toNat time.nanos.toNat
      ⟨by omega, by omega⟩ ⟨by omega, by omega⟩
  exact ⟨same_secs, by exact_mod_cast same_nanos⟩

/-- The flags of `fire` do not claim that its payload is compressed. -/
theorem Node.fire_uncompressed
    (pack : Value → Bytes)
    (clientId : UInt32)
    (event : NewTestcase) :
    (fire pack clientId event).flags &&& llmpFlagCompressed ≠
      llmpFlagCompressed := by
  simp only [fire]
  decide

theorem delivers_payload_unique
    {unpack : Bytes → Option Value}
    {inflate : Bytes → Option Bytes}
    {msgBytes : Bytes}
    {onNodeID : OnNodeID}
    {flags : UInt32}
    {first second : Bytes}
    (delivers_first : Delivers unpack inflate msgBytes onNodeID flags first)
    (delivers_second : Delivers unpack inflate msgBytes onNodeID flags second) :
    first = second := by
  obtain ⟨⟨received, decoded, _, rfl, _⟩, _⟩ := delivers_first
  obtain ⟨⟨other, decoded_other, _, rfl, _⟩, _⟩ := delivers_second
  rw [decoded, Option.some.injEq] at decoded_other
  rw [decoded_other]

/-- What the master delivers of an event is what `fire` serialized. -/
theorem delivers_event
    {rustPack : Value → Bytes}
    {goUnpack : Bytes → Option Value}
    {rustDeflate : Bytes → Bytes}
    {goInflate : Bytes → Option Bytes}
    {onNodeID : OnNodeID}
    {event : Node.NewTestcase}
    (wire :
      LibrariesInvert rustPack goUnpack rustDeflate goInflate
        (Node.forward rustDeflate
          (Node.fire rustPack onNodeID event)).toValue) :
    Delivers goUnpack goInflate
      (rustPack
        (Node.forward rustDeflate
          (Node.fire rustPack onNodeID event)).toValue)
      onNodeID
      (Node.llmpFlagB2M ||| Node.llmpFlagNewTestCase)
      (rustPack event.toValue) := by
  have delivered := delivers_sendMsg wire
    (Node.fire_uncompressed rustPack onNodeID event)
  have same_flags :
      Node.llmpFlagB2M ||| Node.llmpFlagNewTestCase ||| Node.llmpFlagB2M =
        Node.llmpFlagB2M ||| Node.llmpFlagNewTestCase := by
    decide
  rw [← same_flags]
  exact delivered

theorem Node.NewTestcase.encodable_toValue
    {event : Node.NewTestcase}
    (short_input : event.input.length < 2 ^ 32)
    (short_buf : ∀ buf ∈ event.observersBuf, buf.length < 2 ^ 32) :
    MessagePack.Encodable event.toValue := by
  have corpus_bound := event.corpusSize.toNat_lt
  have executions_bound := event.executions.toNat_lt
  have secs_bound := event.time.secs.toNat_lt
  have nanos_bound := event.time.nanos.toNat_lt
  have exit_kind : event.exitKind.name.toUTF8.data.toList.length < 2 ^ 32 := by
    cases event.exitKind with
    | ok => decide
    | crash => decide
    | oom => decide
    | timeout => decide
  have observers_buf :
      MessagePack.Encodable
        (match event.observersBuf with
          | none => .nil
          | some buf => .ofBytes buf) := by
    cases buffered : event.observersBuf with
    | none => trivial
    | some buf => exact Value.encodable_ofBytes (short_buf buf buffered)
  have client_config : "AlwaysUnique".toUTF8.data.toList.length < 2 ^ 32 := by
    decide
  have name : newTestcaseName.length < 2 ^ 32 := by
    decide
  exact
    ⟨by simp, by simp, name,
      ⟨by simp,
        ⟨by simp, Value.encodable_ofBytes short_input, trivial⟩,
        observers_buf, exit_kind, ⟨by omega, by omega⟩, client_config,
        ⟨by simp, ⟨by omega, by omega⟩, ⟨by omega, by omega⟩, trivial⟩,
        ⟨by omega, by omega⟩, trivial⟩,
      trivial⟩

/--
An event arrives unchanged exactly when its corpus size and its execution count
fit the 32 bits that the master's record has for them.
-/
theorem testcase_arrives_unchanged_iff
    {rustPack : Value → Bytes}
    {goUnpack : Bytes → Option Value}
    {rustDeflate : Bytes → Bytes}
    {goInflate : Bytes → Option Bytes}
    {makeHash : Bytes → UInt64}
    {fuzzer : Fuzzer}
    {event : Node.NewTestcase}
    (wire :
      LibrariesInvert rustPack goUnpack rustDeflate goInflate
        (Node.forward rustDeflate
          (Node.fire rustPack fuzzer.onNodeID event)).toValue)
    (unpacks : goUnpack (rustPack event.toValue) = some event.toValue)
    (in_time : event.time.secs.toNat < 2 ^ 63) :
    ArrivesUnchanged rustPack goUnpack rustDeflate goInflate makeHash
        fuzzer event ↔
      event.corpusSize.toNat < 2 ^ 32 ∧ event.executions.toNat < 2 ^ 32 := by
  have read := fuzzer.getTestcase_event unpacks makeHash
  obtain ⟨same_secs, same_nanos⟩ := createdAt_event event.time in_time
  constructor
  · rintro ⟨payload, testcase, delivers, got, _, execs, corpus_size, _⟩
    obtain rfl := delivers_payload_unique delivers (delivers_event wire)
    rw [read, Except.ok.injEq] at got
    subst got
    exact ⟨(widened_eq_iff _).mp corpus_size, (widened_eq_iff _).mp execs⟩
  · rintro ⟨corpus_small, execs_small⟩
    exact ⟨_, _, delivers_event wire, read, rfl,
      (widened_eq_iff _).mpr execs_small, (widened_eq_iff _).mpr corpus_small,
      same_secs, same_nanos, rfl⟩

/-- The event whose bytes the repository's own test decodes. -/
def sampleEvent (executions : UInt64) : Node.NewTestcase where
  input := [115, 16]
  observersBuf := none
  exitKind := .ok
  corpusSize := 3
  time := { secs := 1705863654, nanos := 568014838, nanos_lt := by decide }
  executions := executions

theorem sampleEvent_unpacks (executions : UInt64) :
    unpack (pack (sampleEvent executions).toValue) =
      some (sampleEvent executions).toValue :=
  unpack_pack (Node.NewTestcase.encodable_toValue
    (by simp [sampleEvent]) (by simp [sampleEvent]))

/-- The sample event, found after 65 executions, arrives unchanged. -/
theorem testcase_arrives_unchanged_sample :
    ArrivesUnchanged pack unpack id some (fun input => input.length.toUInt64)
        { nodeID := 1, onNodeID := 2 } (sampleEvent 65) ↔
      (sampleEvent 65).corpusSize.toNat < 2 ^ 32 ∧
        (sampleEvent 65).executions.toNat < 2 ^ 32 :=
  testcase_arrives_unchanged_iff
    ⟨unpack_pack (Node.encodable_toValue (by decide)), fun _ => rfl⟩
    (sampleEvent_unpacks 65)
    (by decide)

/-- After 2^32 executions the sample event arrives with an execution count of zero. -/
theorem execution_count_wraps :
    let fuzzer : Fuzzer := { nodeID := 1, onNodeID := 2 }
    let makeHash : Bytes → UInt64 := fun input => input.length.toUInt64
    ¬ ArrivesUnchanged pack unpack id some makeHash fuzzer
        (sampleEvent 4294967296) ∧
      ∃ testcase,
        fuzzer.getTestcase unpack makeHash
            (some (pack (sampleEvent 4294967296).toValue)) = .ok testcase ∧
          testcase.execs = 0 := by
  intro fuzzer makeHash
  have read :=
    fuzzer.getTestcase_event (sampleEvent_unpacks 4294967296) makeHash
  have wire :
      LibrariesInvert pack unpack id some
        (Node.forward id
          (Node.fire pack fuzzer.onNodeID (sampleEvent 4294967296))).toValue :=
    ⟨unpack_pack (Node.encodable_toValue (by decide)), fun _ => rfl⟩
  refine ⟨?_, _, read, by decide⟩
  rintro ⟨payload, testcase, delivers, got, _, execs, _⟩
  obtain rfl := delivers_payload_unique delivers (delivers_event wire)
  rw [read, Except.ok.injEq] at got
  subst got
  exact absurd execs (by decide)

end MeFuzz.Tcp
