import MeFuzz.ConcolicFile

namespace MeFuzz.Concolic

open Procedure

/-!
# What a concolic trace holds

The header of a trace always ends at a message, whatever operation of the writer
was the last.  So what the reader gets from it are the first of the messages that
were written, with their ids, and among them every path constraint whose call has
returned.
-/

/-- The number by which a message makes the ids grow. -/
def grows (message : SymExpr) : Nat :=
  if message.producesValue then 1 else 0

/-- The ids of messages, from the next id on. -/
def idsFrom : Nat → List SymExpr → List Nat
  | _, [] => []
  | id, message :: rest => id :: idsFrom (id + grows message) rest

theorem length_idsFrom
    (id : Nat)
    (messages : List SymExpr) :
    (idsFrom id messages).length = messages.length := by
  induction messages generalizing id with
  | nil =>
      rfl
  | cons message rest ih =>
      exact congrArg (· + 1) (ih _)

/-- The next id after messages. -/
def nextIdFrom : Nat → List SymExpr → Nat
  | id, [] => id
  | id, message :: rest => nextIdFrom (id + grows message) rest

/-- The messages with relative references, up to one that has none. -/
def storedFrom : Nat → List SymExpr → List SymExpr
  | _, [] => []
  | id, message :: rest =>
      match MessageFileWriter.convert (distance id) message with
      | some (stored, grows) => stored :: storedFrom (id + grows) rest
      | none => []

/-- Every reference of the messages has a distance. -/
def Convertible : Nat → List SymExpr → Prop
  | _, [] => True
  | id, message :: rest =>
      (MessageFileWriter.convert (distance id) message).isSome = true ∧
        Convertible (id + grows message) rest

section

variable {id : Nat}
variable {message stored : SymExpr}
variable {messages more : List SymExpr}

theorem grows_of_convert
    {growth : Nat}
    (converts :
      MessageFileWriter.convert (distance id) message = some (stored, growth)) :
    growth = grows message :=
  (converts_of_convert converts).grows

theorem nextIdFrom_append :
    nextIdFrom id (messages ++ more) =
      nextIdFrom (nextIdFrom id messages) more := by
  induction messages generalizing id with
  | nil =>
      rfl
  | cons message rest ih =>
      exact ih

theorem storedFrom_cons
    {growth : Nat}
    (converts :
      MessageFileWriter.convert (distance id) message = some (stored, growth)) :
    storedFrom id (message :: more) =
      stored :: storedFrom (id + grows message) more := by
  obtain rfl := grows_of_convert converts
  rw [storedFrom, converts]

theorem storedFrom_append
    (convertible : Convertible id messages) :
    storedFrom id (messages ++ more) =
      storedFrom id messages ++ storedFrom (nextIdFrom id messages) more := by
  induction messages generalizing id with
  | nil =>
      rfl
  | cons message rest ih =>
      obtain ⟨isSome, later⟩ := convertible
      obtain ⟨⟨stored, growth⟩, converts⟩ := Option.isSome_iff_exists.mp isSome
      rw [List.cons_append, storedFrom_cons converts, storedFrom_cons converts,
        ih later]
      rfl

theorem convertible_append :
    Convertible id (messages ++ more) ↔
      Convertible id messages ∧ Convertible (nextIdFrom id messages) more := by
  induction messages generalizing id with
  | nil =>
      exact ⟨fun holds => ⟨trivial, holds⟩, And.right⟩
  | cons message rest ih =>
      rw [List.cons_append, Convertible, Convertible, ih,
        and_assoc]
      rfl

theorem storedFrom_isPrefix
    (convertible : Convertible id messages)
    (isPrefix : messages <+: more) :
    storedFrom id messages <+: storedFrom id more := by
  obtain ⟨later, rfl⟩ := isPrefix
  exact ⟨_, (storedFrom_append convertible).symm⟩

end

section

variable (bincode : Bincode)

/-- The bytes of a message. -/
def encoded (stored : SymExpr) : Bytes :=
  (bincode.serializeInto stored).flatten

/-- The bytes of messages behind the header. -/
def traceOf (messages : List SymExpr) : Bytes :=
  (storedFrom 1 messages).flatMap (encoded bincode)

/-- A single message is deserialized from its bytes, whatever follows them. -/
def RoundTrips (stored : SymExpr) : Prop :=
  ∀ rest,
    bincode.deserializeFrom (encoded bincode stored ++ rest) =
      some (.ok (stored, rest))

end

section

variable {bincode : Bincode}
variable {messages covered : List SymExpr}

theorem traceOf_isPrefix
    (convertible : Convertible 1 covered)
    (isPrefix : covered <+: messages) :
    traceOf bincode covered <+: traceOf bincode messages := by
  obtain ⟨later, isLater⟩ := storedFrom_isPrefix convertible isPrefix
  rw [traceOf, traceOf, ← isLater, List.flatMap_append]
  exact List.prefix_append _ _

theorem reads_stored
    (endOfFile : bincode.deserializeFrom [] = none)
    {id : Nat}
    (convertible : Convertible id messages)
    (roundTrips : ∀ stored ∈ storedFrom id messages, RoundTrips bincode stored) :
    MessageFileReader.Reads bincode
      ⟨(storedFrom id messages).flatMap (encoded bincode), id⟩
      ((idsFrom id messages).zip messages) := by
  induction messages generalizing id with
  | nil =>
      refine .depleted ?_
      simp only [storedFrom, List.flatMap_nil, MessageFileReader.nextMessage,
        endOfFile]
  | cons message rest ih =>
      obtain ⟨isSome, later⟩ := convertible
      obtain ⟨⟨stored, growth⟩, converts⟩ := Option.isSome_iff_exists.mp isSome
      have back := convert_back (takesBack_distance id) converts
      obtain rfl := grows_of_convert converts
      rw [storedFrom_cons converts] at roundTrips ⊢
      refine
        .message ?_
          (ih later fun other isOther =>
            roundTrips other (List.mem_cons_of_mem _ isOther))
      have deserializes :=
        roundTrips stored List.mem_cons_self
          ((storedFrom (id + grows message) rest).flatMap (encoded bincode))
      rw [List.flatMap_cons]
      simp only [MessageFileReader.nextMessage, deserializes, back]

end

/-- The header at the start covers messages, which follow it. -/
def HoldsTrace
    (bincode : Bincode)
    (start : Nat)
    (covered : List SymExpr)
    (medium : Medium) : Prop :=
  (traceOf bincode covered).length < 2 ^ 64 ∧
    ∃ front,
      front.length = start ∧
        front ++ toLeBytes (traceOf bincode covered).length ++
            traceOf bincode covered <+: medium.bytes

section

variable {bincode : Bincode}
variable {start : Nat}
variable {covered : List SymExpr}
variable {medium : Medium}

theorem HoldsTrace.header
    (holds : HoldsTrace bincode start covered medium) :
    fromLeBytes ((medium.bytes.drop start).take 8) =
      (traceOf bincode covered).length := by
  obtain ⟨fits, front, rfl, rest, isBytes⟩ := holds
  rw [← isBytes, List.append_assoc, List.append_assoc, List.drop_left,
    List.take_left' (length_toLeBytes _), fromLeBytes_toLeBytes fits]

theorem HoldsTrace.reads
    (holds : HoldsTrace bincode start covered medium)
    (endOfFile : bincode.deserializeFrom [] = none)
    (convertible : Convertible 1 covered)
    (roundTrips :
      ∀ stored ∈ storedFrom 1 covered, RoundTrips bincode stored) :
    ∃ reader,
      MessageFileReader.fromLengthPrefixedBuffer (medium.bytes.drop start) =
          some reader ∧
        MessageFileReader.Reads bincode reader
          ((idsFrom 1 covered).zip covered) := by
  refine ⟨.fromBuffer (traceOf bincode covered), ?_,
    reads_stored endOfFile convertible roundTrips⟩
  have header := holds.header
  obtain ⟨_, front, rfl, rest, isBytes⟩ := holds
  rw [← isBytes, List.append_assoc, List.append_assoc, List.drop_left] at header ⊢
  have behind :
      (toLeBytes (traceOf bincode covered).length ++
            (traceOf bincode covered ++ rest)).drop 8 =
        traceOf bincode covered ++ rest :=
    List.drop_left' (length_toLeBytes _)
  unfold MessageFileReader.fromLengthPrefixedBuffer
  rw [if_neg (by simp)]
  simp only [header, behind]
  rw [if_neg (by simp), List.take_left]

end

namespace MessageFileWriter

variable {medium : Medium}

theorem overlay_eq
    {front : Bytes}
    (isFront : front <+: medium.bytes)
    (position : medium.position = front.length)
    (buffer : Bytes) :
    front ++ buffer <+: medium.overlay buffer ∧
      ∀ rest, medium.bytes = front ++ rest →
        medium.overlay buffer = front ++ buffer ++ rest.drop buffer.length := by
  obtain ⟨rest, isBytes⟩ := isFront
  have isOverlay :
      medium.overlay buffer = front ++ buffer ++ rest.drop buffer.length := by
    unfold Medium.overlay
    rw [position, ← isBytes, List.length_append]
    have noPadding : front.length - (front.length + rest.length) = 0 := by
      omega
    simp [noPadding, List.drop_append]
  refine ⟨⟨_, isOverlay.symm⟩, ?_⟩
  intro other isOther
  obtain rfl := List.append_cancel_left (isBytes.trans isOther)
  exact isOverlay

/-- The position stands at the end of bytes that the medium starts with. -/
structure At
    (front : Bytes)
    (now : MessageFileWriter) : Prop where
  bytes : front <+: now.writer.bytes
  position : now.writer.position = front.length
  room : front.length ≤ now.writer.capacity.toNat

/-- What the operations leave of the writer beside its medium. -/
structure SameWriter (before now : MessageFileWriter) : Prop where
  idCounter : now.idCounter = before.idCounter
  writerStartPosition :
    now.writerStartPosition = before.writerStartPosition
  capacity : now.writer.capacity = before.writer.capacity

/-- Every medium that was noted has a property. -/
def Noted
    (Property : Medium → Prop)
    (self : MessageFileWriter) : Prop :=
  ∀ medium ∈ self.history, Property medium

theorem Noted.moved
    {Property : Medium → Prop}
    {self : MessageFileWriter}
    (noted : Noted Property self)
    (hasProperty : Property medium) :
    Noted Property (self.moved medium) := by
  intro other isOther
  rw [MessageFileWriter.moved, List.mem_append, List.mem_singleton] at isOther
  rcases isOther with isOld | rfl
  · exact noted other isOld
  · exact hasProperty

theorem outcome_writeAll
    {self : MessageFileWriter}
    {buffer : Bytes}
    (hasRoom : self.writer.HasRoom buffer) :
    (writeAll buffer).outcome self =
      (.ok (), self.moved (self.writer.written buffer)) := by
  unfold writeAll
  rw [outcome_bind_ok outcome_get, if_pos hasRoom]
  rfl

theorem outcome_writeAll_partly
    {self : MessageFileWriter}
    {buffer : Bytes}
    (noRoom : ¬self.writer.HasRoom buffer) :
    (writeAll buffer).outcome self =
      (.error .io, self.moved (self.writer.writtenPartly buffer)) := by
  unfold writeAll
  rw [outcome_bind_ok outcome_get, if_neg noRoom]
  rfl

theorem satisfies_writeAll
    {before : MessageFileWriter}
    {kept front : Bytes}
    (isKept : kept <+: front)
    {Property : Medium → Prop}
    (hasProperty : ∀ medium : Medium, kept <+: medium.bytes → Property medium)
    (buffer : Bytes) :
    Satisfies
      (fun self => At front self ∧ SameWriter before self ∧ Noted Property self)
      (writeAll buffer)
      (fun _ self =>
        At (front ++ buffer) self ∧ SameWriter before self ∧
          Noted Property self)
      (fun failure self =>
        failure = .io ∧
          before.writer.capacity.toNat < front.length + buffer.length ∧
          Noted Property self) := by
  refine .of_outcome ?_
  rintro self ⟨isAt, same, noted⟩
  by_cases hasRoom : self.writer.HasRoom buffer
  · left
    have writes := (overlay_eq isAt.bytes isAt.position buffer).1
    refine ⟨(), _, outcome_writeAll hasRoom, ⟨writes, ?_, ?_⟩,
      ⟨same.idCounter, same.writerStartPosition, same.capacity⟩, ?_⟩
    · rw [List.length_append, ← isAt.position]
      rfl
    · rw [List.length_append, ← isAt.position]
      exact hasRoom
    · refine noted.moved (hasProperty _ ?_)
      exact (isKept.trans (List.prefix_append _ _)).trans writes
  · right
    have tooLong := not_le.mp hasRoom
    rw [isAt.position, same.capacity] at tooLong
    refine ⟨.io, _, outcome_writeAll_partly hasRoom, rfl, tooLong, ?_⟩
    refine noted.moved (hasProperty _ ?_)
    exact (isKept.trans (List.prefix_append _ _)).trans
      (overlay_eq isAt.bytes isAt.position _).1

theorem satisfies_serializeInto
    {before : MessageFileWriter}
    {kept front : Bytes}
    (isKept : kept <+: front)
    {Property : Medium → Prop}
    (hasProperty : ∀ medium : Medium, kept <+: medium.bytes → Property medium)
    (buffers : List Bytes) :
    Satisfies
      (fun self => At front self ∧ SameWriter before self ∧ Noted Property self)
      (serializeInto buffers)
      (fun _ self =>
        At (front ++ buffers.flatten) self ∧ SameWriter before self ∧
          Noted Property self)
      (fun failure self =>
        failure = .io ∧
          before.writer.capacity.toNat <
            front.length + buffers.flatten.length ∧
          Noted Property self) := by
  induction buffers generalizing front with
  | nil =>
      rw [List.flatten_nil, List.append_nil]
      exact .pure fun _ holds => holds
  | cons buffer rest ih =>
      have later :=
        @ih (front ++ buffer)
          (isKept.trans (List.prefix_append _ _))
      rw [List.append_assoc, List.length_append] at later
      rw [List.flatten_cons, List.length_append, ← Nat.add_assoc]
      refine .bind ?_ fun _ => later
      exact (satisfies_writeAll isKept hasProperty buffer).weaken
        (fun _ holds => holds) (fun _ _ reached => reached)
        fun failure self reached =>
          ⟨reached.1, by have := reached.2.1; omega, reached.2.2⟩

variable {bincode : Bincode}
variable {start : Nat}
variable {capacity : UInt64}
variable {messages covered : List SymExpr}
variable {message : SymExpr}
variable {Property : Medium → Prop}

/--
Between its calls the writer stands behind the messages, and the header covers
some of them.
-/
structure Idle
    (bincode : Bincode)
    (start : Nat)
    (capacity : UInt64)
    (messages covered : List SymExpr)
    (now : MessageFileWriter) : Prop where
  convertible : Convertible 1 messages
  isPrefix : covered <+: messages
  idCounter : now.idCounter = nextIdFrom 1 messages
  writerStartPosition : now.writerStartPosition = start
  capacity : now.writer.capacity = capacity
  layout :
    ∃ front,
      front.length = start ∧
        At
          (front ++ toLeBytes (traceOf bincode covered).length ++
            traceOf bincode messages)
          now

variable {now : MessageFileWriter}

theorem Idle.coveredConvertible
    (idle : Idle bincode start capacity messages covered now) :
    Convertible 1 covered := by
  obtain ⟨later, rfl⟩ := idle.isPrefix
  exact (convertible_append.mp idle.convertible).1

theorem Idle.fits
    (idle : Idle bincode start capacity messages covered now) :
    (traceOf bincode messages).length < 2 ^ 64 := by
  obtain ⟨front, _, isAt⟩ := idle.layout
  have room := isAt.room
  have bound := now.writer.capacity.toNat_lt
  rw [List.length_append] at room
  omega

theorem Idle.kept
    {now : MessageFileWriter}
    (idle : Idle bincode start capacity messages covered now)
    {front : Bytes}
    (isFront : front.length = start)
    {medium : Medium}
    (starts :
      front ++ toLeBytes (traceOf bincode covered).length ++
          traceOf bincode messages <+: medium.bytes) :
    HoldsTrace bincode start covered medium := by
  have isTrace :=
    @traceOf_isPrefix bincode _ _ idle.coveredConvertible idle.isPrefix
  refine ⟨isTrace.length_le.trans_lt idle.fits, front, isFront, ?_⟩
  exact ((List.prefix_append_right_inj _).mpr isTrace).trans starts

theorem Idle.holdsTrace
    (idle : Idle bincode start capacity messages covered now) :
    HoldsTrace bincode start covered now.writer := by
  obtain ⟨front, isFront, isAt⟩ := idle.layout
  exact idle.kept isFront isAt.bytes

/-- The header that was written again covers all messages. -/
theorem satisfies_writeTraceSize
    (before : ∀ medium, HoldsTrace bincode start covered medium → Property medium)
    (after :
      ∀ medium, HoldsTrace bincode start messages medium → Property medium) :
    Satisfies
      (fun self =>
        Idle bincode start capacity messages covered self ∧ Noted Property self)
      writeTraceSize
      (fun _ self =>
        Idle bincode start capacity messages messages self ∧ Noted Property self)
      (fun _ _ => False) := by
  refine .of_outcome ?_
  rintro self ⟨idle, noted⟩
  left
  obtain ⟨front, isFront, isAt⟩ := idle.layout
  obtain ⟨rest, isBytes⟩ := isAt.bytes
  let header := toLeBytes (traceOf bincode messages).length
  have endPos :
      self.writer.position =
        start + 8 + (traceOf bincode messages).length := by
    rw [isAt.position, List.length_append, List.length_append,
      length_toLeBytes, isFront]
  have traceLength :
      self.writer.position - self.writerStartPosition - 8 =
        (traceOf bincode messages).length := by
    rw [endPos, idle.writerStartPosition]
    omega
  let sought : Medium := { self.writer with position := start }
  have soughtBytes :
      sought.bytes =
        front ++
          (toLeBytes (traceOf bincode covered).length ++
            (traceOf bincode messages ++ rest)) := by
    rw [← List.append_assoc, ← List.append_assoc]
    exact isBytes.symm
  have hasRoom : sought.HasRoom header := by
    have room := isAt.room
    rw [List.length_append, List.length_append, length_toLeBytes,
      isFront] at room
    change start + header.length ≤ self.writer.capacity.toNat
    rw [length_toLeBytes]
    omega
  have overlaid :
      sought.overlay header =
        front ++ header ++ (traceOf bincode messages ++ rest) := by
    rw [(overlay_eq ⟨_, soughtBytes.symm⟩ isFront.symm header).2 _ soughtBytes,
      length_toLeBytes, List.drop_left' (length_toLeBytes _)]
  let done : Medium :=
    { sought.written header with position := self.writer.position }
  have isDone :
      front ++ header ++ traceOf bincode messages <+: done.bytes := by
    refine ⟨rest, ?_⟩
    rw [List.append_assoc]
    exact overlaid.symm
  have notBelow :
      ¬self.writer.position <
        (self.moved self.writer).writerStartPosition + 8 := by
    change ¬self.writer.position < self.writerStartPosition + 8
    rw [endPos, idle.writerStartPosition]
    omega
  have holdsSought : Property sought :=
    before sought (idle.kept isFront isAt.bytes)
  have holdsWritten : Property (sought.written header) :=
    after (sought.written header) ⟨idle.fits, front, isFront, isDone⟩
  have holdsDone : Property done := after done ⟨idle.fits, front, isFront, isDone⟩
  refine
    ⟨(),
      (((self.moved self.writer).moved sought).moved
        (sought.written header)).moved done,
      ?_, ⟨idle.convertible, List.prefix_refl _, idle.idCounter,
        idle.writerStartPosition, idle.capacity, front, isFront, isDone, ?_,
        ?_⟩, ?_⟩
  · unfold writeTraceSize streamPosition
    rw [bind_assoc, outcome_bind_ok outcome_get, bind_assoc,
      outcome_bind_ok (outcome_set _), pure_bind, outcome_bind_ok outcome_get,
      if_neg notBelow]
    change
      outcome
          (do
            seek self.writerStartPosition
            writeAll
              (toLeBytes
                (self.writer.position - self.writerStartPosition - 8))
            seek self.writer.position)
          (self.moved self.writer) =
        _
    rw [traceLength, idle.writerStartPosition]
    exact
      (outcome_bind_ok (outcome_modify _)).trans
        (outcome_bind_ok
          (@outcome_writeAll ((self.moved self.writer).moved sought) header
            hasRoom))
  · change self.writer.position = _
    rw [endPos, List.length_append, List.length_append, length_toLeBytes,
      isFront]
  · have room := isAt.room
    rw [List.length_append, List.length_append, length_toLeBytes] at room ⊢
    exact room
  · have holdsFirst := before self.writer idle.holdsTrace
    exact
      (((noted.moved holdsFirst).moved holdsSought).moved holdsWritten).moved
        holdsDone

/-- What the header covers once a message was written. -/
def coveredAfter
    (messages covered : List SymExpr)
    (message : SymExpr) : List SymExpr :=
  if message.isPathConstraint then messages ++ [message] else covered

/-- A message is put behind the others, and a path constraint is covered. -/
theorem satisfies_writeMessage
    (before : ∀ medium, HoldsTrace bincode start covered medium → Property medium)
    (after :
      Convertible 1 (messages ++ [message]) → ∀ medium,
        HoldsTrace bincode start (messages ++ [message]) medium →
          Property medium) :
    Satisfies
      (fun self =>
        Idle bincode start capacity messages covered self ∧ Noted Property self)
      (writeMessage bincode message)
      (fun id self =>
        id = nextIdFrom 1 messages ∧
          Idle bincode start capacity (messages ++ [message])
            (coveredAfter messages covered message) self ∧
          Noted Property self)
      (fun failure self =>
        (Convertible 1 (messages ++ [message]) →
            failure = .io ∧
              capacity.toNat <
                start + 8 + (traceOf bincode (messages ++ [message])).length) ∧
          Noted Property self) := by
  rintro self ⟨idle, noted⟩
  refine
    (?_ :
      Satisfies (· = self) (writeMessage bincode message) _ _) self rfl
  refine .bind_ok outcome_get ?_
  cases converts :
      MessageFileWriter.convert (distance self.idCounter) message with
  | none =>
      rintro _ rfl
      refine ⟨fun convertible => ?_, noted⟩
      have isSome := (convertible_append.mp convertible).2.1
      rw [← idle.idCounter, converts] at isSome
      cases isSome
  | some converted =>
      obtain ⟨stored, growth⟩ := converted
      have kind := (converts_of_convert converts).isPathConstraint
      obtain rfl := grows_of_convert converts
      rw [idle.idCounter] at converts
      have convertible : Convertible 1 (messages ++ [message]) :=
        convertible_append.mpr
          ⟨idle.convertible, Option.isSome_iff_exists.mpr ⟨_, converts⟩, trivial⟩
      have isTrace :
          traceOf bincode (messages ++ [message]) =
            traceOf bincode messages ++
              (bincode.serializeInto stored).flatten := by
        rw [traceOf, storedFrom_append idle.convertible,
          storedFrom_cons converts, List.flatMap_append]
        exact congrArg _ (List.append_nil _)
      let counted : MessageFileWriter :=
        { self with idCounter := self.idCounter + grows message }
      obtain ⟨front, isFront, isAt⟩ := idle.layout
      have kept :
          ∀ medium : Medium,
            front ++ toLeBytes (traceOf bincode covered).length ++
                traceOf bincode messages <+: medium.bytes →
              Property medium :=
        fun medium starts => before medium (idle.kept isFront starts)
      have serializes :=
        @satisfies_serializeInto counted _ _ (List.prefix_refl _) Property kept
          (bincode.serializeInto stored)
      refine .bind_ok (outcome_modify _) ?_
      refine
        @Satisfies.bind _ _ _ _ _ _ _
          (fun _ now =>
            Idle bincode start capacity (messages ++ [message]) covered now ∧
              Noted Property now)
          _ _ (serializes.weaken ?_ ?_ ?_) fun _ => ?_
      · rintro _ rfl
        exact
          ⟨⟨isAt.bytes, isAt.position, isAt.room⟩, ⟨rfl, rfl, rfl⟩, noted⟩
      · rintro _ now ⟨isAfter, same, notedNow⟩
        refine ⟨⟨convertible, ?_, ?_, ?_, ?_, front, isFront, ?_⟩, notedNow⟩
        · exact idle.isPrefix.trans (List.prefix_append _ _)
        · rw [same.idCounter, nextIdFrom_append, ← idle.idCounter]
          rfl
        · exact same.writerStartPosition.trans idle.writerStartPosition
        · exact same.capacity.trans idle.capacity
        · rwa [isTrace, ← List.append_assoc]
      · rintro failure now ⟨isIo, tooLong, notedNow⟩
        refine ⟨fun _ => ⟨isIo, ?_⟩, notedNow⟩
        change self.writer.capacity.toNat < _ at tooLong
        rw [idle.capacity, List.length_append, List.length_append,
          length_toLeBytes, isFront] at tooLong
        rw [isTrace, List.length_append]
        omega
      · rw [coveredAfter, ← kind]
        split
        · refine
            .bind
              (Satisfies.weaken
                (satisfies_writeTraceSize before (after convertible))
                (fun _ holds => holds) (fun _ _ reached => reached)
                fun _ _ never => never.elim)
              fun _ => .pure fun now reached => ?_
          exact ⟨idle.idCounter, reached⟩
        · exact .pure fun now reached => ⟨idle.idCounter, reached⟩

theorem idle_fromWriter
    {writer : MessageFileWriter}
    (created : fromWriter medium = some writer) :
    Idle bincode medium.position medium.capacity [] [] writer := by
  unfold fromWriter at created
  split at created
  · rename_i hasRoom
    cases created
    let padded :=
      medium.bytes ++
        List.replicate (medium.position - medium.bytes.length) 0
    have isFront : (padded.take medium.position).length = medium.position := by
      refine List.length_take_of_le ?_
      simp only [padded, List.length_append, List.length_replicate]
      omega
    refine ⟨trivial, List.prefix_refl _, rfl, rfl, rfl,
      padded.take medium.position, isFront, ?_, ?_, ?_⟩
    · rw [traceOf, storedFrom, List.flatMap_nil, List.append_nil]
      exact ⟨padded.drop (medium.position + (toLeBytes 0).length), rfl⟩
    · simp [Medium.written, traceOf, storedFrom, isFront]
    · simpa [Medium.HasRoom, Medium.written, traceOf, storedFrom, isFront]
        using hasRoom
  · cases created

/-- A call of the writer. -/
inductive Call where
  | message (message : SymExpr)
  | header

/-- The call, with a new history. -/
def perform (bincode : Bincode) (call : Call) : Writing Unit := do
  modify fun self => { self with history := [] }
  match call with
  | .message message => do
      let _ ← writeMessage bincode message
  | .header => updateTraceHeader

/-- Each call that returns is a step. -/
def Step (bincode : Bincode) : StepRelation MessageFileWriter Call :=
  fun self call next => (perform bincode call).outcome self = (.ok (), next)

/-- The messages of calls. -/
def messagesOf (calls : List Call) : List SymExpr :=
  calls.filterMap fun call =>
    match call with
    | .message message => some message
    | .header => none

/-- Every path constraint among messages is covered, with those before it. -/
def CoversConstraints (messages covered : List SymExpr) : Prop :=
  ∀ before message, message.isPathConstraint = true →
    before ++ [message] <+: messages → before ++ [message] <+: covered

/-- The messages that were written, those that are covered, and how far. -/
def Writes
    (bincode : Bincode)
    (start : Nat)
    (capacity : UInt64)
    (messages : List SymExpr)
    (self : MessageFileWriter) : Prop :=
  ∃ covered,
    Idle bincode start capacity messages covered self ∧
      CoversConstraints messages covered

/-- A medium that a reader can start with after a crash. -/
def Readable
    (bincode : Bincode)
    (start : Nat)
    (messages extended : List SymExpr)
    (medium : Medium) : Prop :=
  ∃ covered,
    covered <+: extended ∧ Convertible 1 covered ∧
      CoversConstraints messages covered ∧
      HoldsTrace bincode start covered medium

theorem coversConstraints_after
    (covers : CoversConstraints messages covered) :
    CoversConstraints (messages ++ [message])
      (coveredAfter messages covered message) := by
  intro before other isConstraint isPrefix
  unfold coveredAfter
  split
  · exact isPrefix
  · rename_i notConstraint
    rcases List.prefix_concat_iff.mp isPrefix with same | earlier
    · have isLast := (List.append_inj' same rfl).2
      cases isLast
      exact absurd isConstraint notConstraint
    · exact covers before other isConstraint earlier

theorem messagesOf_append
    (calls : List Call)
    (call : Call) :
    messagesOf (calls ++ [call]) = messagesOf calls ++ messagesOf [call] :=
  List.filterMap_append

theorem satisfies_perform
    (call : Call) :
    Satisfies (Writes bincode start capacity messages)
      (perform bincode call)
      (fun _ self =>
        Writes bincode start capacity (messages ++ messagesOf [call]) self ∧
          Noted (Readable bincode start messages (messages ++ messagesOf [call]))
            self)
      (fun _ self =>
        Noted (Readable bincode start messages (messages ++ messagesOf [call]))
          self) := by
  rintro self ⟨covered, idle, covers⟩
  refine
    (?_ : Satisfies (· = self) (perform bincode call) _ _) self rfl
  refine .bind_ok (outcome_modify _) ?_
  let fresh : MessageFileWriter := { self with history := [] }
  have isFresh : Idle bincode start capacity messages covered fresh :=
    ⟨idle.convertible, idle.isPrefix, idle.idCounter, idle.writerStartPosition,
      idle.capacity,
      idle.layout.imp fun _ ⟨isFront, isAt⟩ =>
        ⟨isFront, isAt.bytes, isAt.position, isAt.room⟩⟩
  have readable :
      ∀ medium, HoldsTrace bincode start covered medium →
        Readable bincode start messages (messages ++ messagesOf [call])
          medium :=
    fun medium holds =>
      ⟨covered, idle.isPrefix.trans (List.prefix_append _ _),
        isFresh.coveredConvertible, covers, holds⟩
  have nothingNoted :
      Noted (Readable bincode start messages (messages ++ messagesOf [call]))
        fresh := by
    intro medium isNoted
    cases isNoted
  cases call with
  | message message =>
      have writes :=
        @satisfies_writeMessage bincode start capacity messages covered message
          _ readable fun convertible medium holds =>
            ⟨messages ++ [message], List.prefix_refl _, convertible,
              fun before other _ isPrefix =>
                isPrefix.trans (List.prefix_append _ _),
              holds⟩
      refine
        .bind
          (writes.weaken (fun _ isNow => isNow ▸ ⟨isFresh, nothingNoted⟩)
            (fun _ _ reached => reached) fun _ _ failed => failed.2)
          fun id => .pure fun now reached => ?_
      exact ⟨⟨_, reached.2.1, coversConstraints_after covers⟩, reached.2.2⟩
  | header =>
      have same : messages ++ messagesOf [.header] = messages :=
        List.append_nil _
      rw [same] at readable nothingNoted ⊢
      have writes :=
        @satisfies_writeTraceSize bincode start capacity messages covered _
          readable fun medium holds =>
            ⟨messages, List.prefix_refl _, idle.convertible,
              fun before other _ isPrefix => isPrefix, holds⟩
      exact
        writes.weaken (fun _ isNow => isNow ▸ ⟨isFresh, nothingNoted⟩)
          (fun _ _ reached =>
            ⟨⟨messages, reached.1, fun before other _ isPrefix => isPrefix⟩,
              reached.2⟩)
          fun _ _ never => never.elim

theorem writes_run
    {writer reached : MessageFileWriter}
    {calls : List Call}
    (created : fromWriter medium = some writer)
    (run : Run (Step bincode) writer calls reached) :
    Writes bincode medium.position medium.capacity (messagesOf calls)
      reached := by
  refine
    @Run.history _ _ _
      (fun seen self =>
        Writes bincode medium.position medium.capacity (messagesOf seen) self)
      _ _ _ run ?_ ?_
  · refine ⟨[], idle_fromWriter created, ?_⟩
    exact fun before other _ isPrefix => isPrefix
  · intro seen self call next _ _ writes taken
    rw [messagesOf_append]
    exact ((satisfies_perform call).of_ok writes taken).1

end MessageFileWriter

namespace MessageFileWriter

/-- The ids of the messages that produce values. -/
def valueIdsFrom : Nat → List SymExpr → List Nat
  | _, [] => []
  | id, message :: rest =>
      if message.producesValue then
        id :: valueIdsFrom (id + grows message) rest
      else valueIdsFrom (id + grows message) rest

/-- Messages refer to earlier ones that produce values. -/
def ReferToEarlier (messages : List SymExpr) : Prop :=
  ∀ before message after, messages = before ++ message :: after →
    ∀ op ∈ message.operands, op.val ∈ valueIdsFrom 1 before

theorem le_nextIdFrom
    (id : Nat)
    (messages : List SymExpr) :
    id ≤ nextIdFrom id messages := by
  induction messages generalizing id with
  | nil =>
      exact Nat.le_refl _
  | cons message rest ih =>
      exact (Nat.le_add_right _ _).trans (ih _)

theorem lt_of_mem_valueIdsFrom
    {id value : Nat}
    {messages : List SymExpr}
    (isValue : value ∈ valueIdsFrom id messages) :
    value < nextIdFrom id messages := by
  induction messages generalizing id with
  | nil =>
      cases isValue
  | cons message rest ih =>
      rw [valueIdsFrom] at isValue
      split at isValue
      · rename_i produces
        cases isValue with
        | head =>
            have growing : grows message = 1 := if_pos produces
            have later := le_nextIdFrom (value + grows message) rest
            rw [growing] at later
            rw [nextIdFrom, growing]
            exact later
        | tail _ isLater =>
            exact ih isLater
      · exact ih isValue

theorem convertible_of_referToEarlier
    {messages : List SymExpr}
    (references : ReferToEarlier messages) :
    Convertible 1 messages := by
  induction messages using List.reverseRecOn with
  | nil =>
      trivial
  | append_singleton front message ih =>
      refine convertible_append.mpr ⟨ih ?_, ?_, trivial⟩
      · rintro before other after rfl
        exact references before other (after ++ [message]) (by simp)
      · have refers :
            ∀ op ∈ message.operands,
              ∃ relative, distance (nextIdFrom 1 front) op = some relative := by
          intro op isOp
          have earlier :=
            lt_of_mem_valueIdsFrom (references front message [] rfl op isOp)
          exact ⟨_, dif_pos earlier⟩
        obtain ⟨stored, growth, converts⟩ := exists_convert refers
        rw [converts, Option.isSome_some]

theorem satisfies_writeMessages
    (more : List SymExpr) :
    Satisfies
      (fun self =>
        ∃ covered, Idle bincode start capacity messages covered self)
      (writeMessages bincode more)
      (fun ids self =>
        ids = idsFrom (nextIdFrom 1 messages) more ∧
          ∃ covered, Idle bincode start capacity (messages ++ more) covered self)
      (fun failure _ =>
        Convertible 1 (messages ++ more) →
          failure = .io ∧
            capacity.toNat <
              start + 8 + (traceOf bincode (messages ++ more)).length) := by
  induction more generalizing messages with
  | nil =>
      rw [List.append_nil]
      exact .pure fun _ idle => ⟨rfl, idle⟩
  | cons message rest ih =>
      have split : messages ++ message :: rest = messages ++ [message] ++ rest := by
        simp
      have isNext :
          nextIdFrom 1 (messages ++ [message]) =
            nextIdFrom 1 messages + grows message :=
        nextIdFrom_append
      rw [split]
      rintro self ⟨covered, idle⟩
      have noted : ∀ now, Noted (fun _ => True) now := fun _ _ _ => trivial
      have writes :=
        @satisfies_writeMessage bincode start capacity messages covered message
          (fun _ => True) (fun _ _ => trivial) fun _ _ _ => trivial
      refine
        (?_ : Satisfies (Idle bincode start capacity messages covered)
          (writeMessages bincode (message :: rest)) _ _) self idle
      refine
        @Satisfies.bind _ _ _ _ _ _ _
          (fun id now =>
            id = nextIdFrom 1 messages ∧
              ∃ covered,
                Idle bincode start capacity (messages ++ [message]) covered now)
          _ _
          (writes.weaken (fun now isIdle => ⟨isIdle, noted now⟩)
            (fun _ _ reached => ⟨reached.1, _, reached.2.1⟩) ?_)
          fun id => ?_
      · rintro failure _ ⟨fails, _⟩ convertible
        obtain ⟨isIo, tooLong⟩ := fails (convertible_append.mp convertible).1
        have isTrace :=
          (@traceOf_isPrefix bincode _ _ (convertible_append.mp convertible).1
            (List.prefix_append (messages ++ [message]) rest)).length_le
        exact ⟨isIo, by omega⟩
      · rintro now ⟨rfl, isIdle⟩
        refine
          (?_ : Satisfies
            (fun now =>
              ∃ covered,
                Idle bincode start capacity (messages ++ [message]) covered now)
            _ _ _) now isIdle
        refine .bind ih fun ids => .pure fun later reached => ?_
        obtain ⟨rfl, isLater⟩ := reached
        rw [isNext]
        exact ⟨rfl, isLater⟩

end MessageFileWriter

open MessageFileWriter

/-- Messages are written, and then the header. -/
def writeTrace
    (bincode : Bincode)
    (messages : List SymExpr) : Writing (List Nat) := do
  let ids ← writeMessages bincode messages
  updateTraceHeader
  pure ids

/--
Messages that refer to earlier ones are read as they were written, with the ids
that the writer returned.  Writing them only fails where the medium has no room.
-/
theorem trace_round_trips
    {bincode : Bincode}
    {medium : Medium}
    {writer : MessageFileWriter}
    (created : fromWriter medium = some writer)
    {messages : List SymExpr}
    (references : ReferToEarlier messages)
    (endOfFile : bincode.deserializeFrom [] = none)
    (roundTrips :
      ∀ stored ∈ storedFrom 1 messages, RoundTrips bincode stored) :
    (∃ final,
        (writeTrace bincode messages).outcome writer = (.error .io, final) ∧
          medium.capacity.toNat <
            medium.position + 8 + (traceOf bincode messages).length) ∨
      ∃ ids final reader,
        (writeTrace bincode messages).outcome writer = (.ok ids, final) ∧
          ids.length = messages.length ∧
          MessageFileReader.fromLengthPrefixedBuffer
              (final.writer.bytes.drop medium.position) =
            some reader ∧
          MessageFileReader.Reads bincode reader (ids.zip messages) := by
  have convertible := convertible_of_referToEarlier references
  have writes :=
    @satisfies_writeMessages bincode medium.position medium.capacity [] messages
  have satisfies :
      Satisfies
        (fun self =>
          ∃ covered,
            Idle bincode medium.position medium.capacity [] covered self)
        (writeTrace bincode messages)
        (fun ids self =>
          ids = idsFrom 1 messages ∧
            Idle bincode medium.position medium.capacity messages messages self)
        (fun failure _ =>
          failure = .io ∧
            medium.capacity.toNat <
              medium.position + 8 + (traceOf bincode messages).length) := by
    refine .bind (writes.weaken (fun _ holds => holds)
      (fun _ _ reached => reached) fun _ _ fails => fails convertible) fun ids => ?_
    rintro self ⟨isIds, covered, idle⟩
    have updates :=
      @satisfies_writeTraceSize bincode medium.position medium.capacity messages
        covered (fun _ => True) (fun _ _ => trivial) fun _ _ => trivial
    refine
      (?_ : Satisfies
        (Idle bincode medium.position medium.capacity messages covered) _ _ _)
        self idle
    refine .bind (updates.weaken (fun _ isIdle => ⟨isIdle, fun _ _ => trivial⟩)
      (fun _ _ reached => reached.1) fun _ _ never => never.elim) fun _ => ?_
    exact .pure fun _ isIdle => ⟨isIds, isIdle⟩
  have reached := satisfies writer ⟨[], idle_fromWriter created⟩
  generalize (writeTrace bincode messages).outcome writer = result at reached ⊢
  obtain ⟨result, final⟩ := result
  cases result with
  | error failure =>
      obtain ⟨rfl, tooLong⟩ := reached
      exact .inl ⟨final, rfl, tooLong⟩
  | ok ids =>
      obtain ⟨rfl, idle⟩ := reached
      obtain ⟨reader, starts, reads⟩ :=
        idle.holdsTrace.reads endOfFile convertible roundTrips
      exact .inr ⟨_, final, reader, rfl, length_idsFrom 1 messages, starts, reads⟩

/-- Bincode, for the messages of the samples. -/
def sampleBincode : Bincode where
  serializeInto
    | .true => [[5]]
    | .and a b => [[33], [UInt8.ofNat a.val], [UInt8.ofNat b.val]]
    | .pathConstraint op taken location =>
        [[69], [UInt8.ofNat op.val], [if taken then 1 else 0],
          [UInt8.ofNat location]]
    | _ => [[255]]
  deserializeFrom
    | [] => none
    | 5 :: rest => some (.ok (.true, rest))
    | 33 :: a :: b :: rest =>
        if positive : 0 < a.toNat ∧ 0 < b.toNat then
          some (.ok (.and ⟨a.toNat, positive.1⟩ ⟨b.toNat, positive.2⟩, rest))
        else some (.error ())
    | 69 :: op :: taken :: location :: rest =>
        if positive : 0 < op.toNat then
          some
            (.ok
              (.pathConstraint ⟨op.toNat, positive⟩ (taken == 1) location.toNat,
                rest))
        else some (.error ())
    | _ => some (.error ())

/-- An empty file. -/
def sampleMedium : Medium :=
  ⟨[], 0, 1024⟩

/-- The writer that is created on it. -/
def sampleWriter : MessageFileWriter :=
  ⟨1, sampleMedium.written (toLeBytes 0), 0, []⟩

/-- Two constants and their conjunction. -/
def sampleMessages : List SymExpr :=
  [.true, .true, .and ⟨1, by decide⟩ ⟨2, by decide⟩]

theorem referToEarlier_sample :
    ReferToEarlier sampleMessages := by
  rintro before message after split
  rcases before with - | ⟨first, - | ⟨second, - | ⟨third, rest⟩⟩⟩
  · obtain ⟨rfl, -⟩ := List.cons.inj split
    rintro op (isOp : op ∈ [])
    cases isOp
  · obtain ⟨rfl, -⟩ := List.cons.inj (List.cons.inj split).2
    rintro op (isOp : op ∈ [])
    cases isOp
  · obtain ⟨rfl, fromSecond⟩ := List.cons.inj split
    obtain ⟨rfl, fromThird⟩ := List.cons.inj fromSecond
    obtain ⟨rfl, -⟩ := List.cons.inj fromThird
    decide
  · have lengths := congrArg List.length split
    simp [sampleMessages] at lengths

theorem roundTrips_sample :
    ∀ stored ∈ storedFrom 1 sampleMessages, RoundTrips sampleBincode stored := by
  rintro stored (isStored : stored ∈ [_, _, _])
  simp only [List.mem_cons, List.not_mem_nil, or_false] at isStored
  rcases isStored with rfl | rfl | rfl
  all_goals exact fun rest => rfl

/-- The conjunction is read back from the file, with its id. -/
theorem trace_round_trips_conjunction :
    ∃ writer ids final reader,
      fromWriter sampleMedium = some writer ∧
        (writeTrace sampleBincode sampleMessages).outcome writer =
          (.ok ids, final) ∧
        MessageFileReader.fromLengthPrefixedBuffer final.writer.bytes =
          some reader ∧
        MessageFileReader.Reads sampleBincode reader
          (ids.zip sampleMessages) := by
  have created : fromWriter sampleMedium = some sampleWriter := rfl
  rcases
    trace_round_trips created referToEarlier_sample rfl roundTrips_sample with
    ⟨_, _, tooLong⟩ | ⟨ids, final, reader, writes, _, starts, reads⟩
  · exact absurd tooLong (by decide)
  · exact ⟨_, ids, final, reader, created, writes, starts, reads⟩

/-- The medium after each operation of a call, whether the call returns or not. -/
def pointsOf
    (bincode : Bincode)
    (self : MessageFileWriter)
    (call : Call) : List Medium :=
  ((perform bincode call).outcome self).2.history

/--
Whenever the process that writes dies, the header ends at a message and covers
every path constraint whose call has returned, and the reader returns exactly
the messages that the header covers.
-/
theorem crashed_trace_readable
    {bincode : Bincode}
    {medium : Medium}
    {writer reached : MessageFileWriter}
    {calls : List Call}
    (created : fromWriter medium = some writer)
    (run : Run (Step bincode) writer calls reached)
    (call : Call)
    {point : Medium}
    (isPoint : point = reached.writer ∨ point ∈ pointsOf bincode reached call)
    (endOfFile : bincode.deserializeFrom [] = none)
    (roundTrips :
      ∀ stored ∈ storedFrom 1 (messagesOf (calls ++ [call])),
        RoundTrips bincode stored) :
    ∃ covered,
      covered <+: messagesOf (calls ++ [call]) ∧
        CoversConstraints (messagesOf calls) covered ∧
        fromLeBytes ((point.bytes.drop medium.position).take 8) =
          (traceOf bincode covered).length ∧
        ∃ reader,
          MessageFileReader.fromLengthPrefixedBuffer
              (point.bytes.drop medium.position) =
            some reader ∧
          MessageFileReader.Reads bincode reader
            ((idsFrom 1 covered).zip covered) := by
  have writes := writes_run created run
  have readable :
      Readable bincode medium.position (messagesOf calls)
        (messagesOf (calls ++ [call])) point := by
    rw [messagesOf_append]
    rcases isPoint with rfl | isNoted
    · obtain ⟨covered, idle, covers⟩ := writes
      exact ⟨covered, idle.isPrefix.trans (List.prefix_append _ _),
        idle.coveredConvertible, covers, idle.holdsTrace⟩
    · have performs := @satisfies_perform _ _ _ _ call reached writes
      unfold pointsOf at isNoted
      generalize (perform bincode call).outcome reached = result
        at performs isNoted
      obtain ⟨result, next⟩ := result
      cases result with
      | ok _ =>
          exact performs.2 point isNoted
      | error _ =>
          exact performs point isNoted
  obtain ⟨covered, isPrefix, convertible, covers, holds⟩ := readable
  refine ⟨covered, isPrefix, covers, holds.header, ?_⟩
  refine holds.reads endOfFile convertible fun stored isStored => ?_
  exact roundTrips stored ((storedFrom_isPrefix convertible isPrefix).subset isStored)

/-- After a constant was written, the first operations of a path constraint. -/
theorem crashed_trace_readable_constant :
    ∃ writer reached,
      fromWriter sampleMedium = some writer ∧
        Run (Step sampleBincode) writer [.message .true] reached ∧
        ∀ point ∈ pointsOf sampleBincode reached
            (.message (.pathConstraint ⟨1, by decide⟩ .true 7)),
          ∃ covered reader,
            covered <+: [.true, .pathConstraint ⟨1, by decide⟩ .true 7] ∧
              MessageFileReader.fromLengthPrefixedBuffer point.bytes =
                some reader ∧
              MessageFileReader.Reads sampleBincode reader
                ((idsFrom 1 covered).zip covered) := by
  have created : fromWriter sampleMedium = some sampleWriter := rfl
  have written :
      (perform sampleBincode (.message .true)).outcome sampleWriter =
        (.ok (), _) := rfl
  have run : Run (Step sampleBincode) sampleWriter [.message .true] _ :=
    .cons written (.nil _)
  have roundTrips :
      ∀ stored ∈ storedFrom 1 [.true, .pathConstraint ⟨1, by decide⟩ .true 7],
        RoundTrips sampleBincode stored := by
    rintro stored (isStored : stored ∈ [_, _])
    simp only [List.mem_cons, List.not_mem_nil, or_false] at isStored
    rcases isStored with rfl | rfl
    all_goals exact fun rest => rfl
  refine ⟨_, _, created, run, fun point isPoint => ?_⟩
  obtain ⟨covered, isPrefix, -, -, reader, starts, reads⟩ :=
    crashed_trace_readable created run
      (.message (.pathConstraint ⟨1, by decide⟩ .true 7)) (.inr isPoint) rfl
      roundTrips
  exact ⟨covered, reader, isPrefix, starts, reads⟩

end MeFuzz.Concolic
