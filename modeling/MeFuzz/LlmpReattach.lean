import Mathlib.Logic.Function.Basic
import MeFuzz.LlmpReceiver

namespace MeFuzz.Llmp

/-!
# Reattaching a client

A client that starts again finds its old maps and its place on them in one of
three ways: it is handed the maps and the offsets, a description that the old
client made, or the environment variables that it set.
-/

/-- `LlmpClient`. -/
structure LlmpClient where
  sender : LlmpSender
  receiver : LlmpReceiver
  deriving Repr, DecidableEq

/-- `ShMemDescription`. -/
structure ShMemDescription where
  size : Nat
  id : ShMemId
  deriving Repr, DecidableEq

/-- `LlmpDescription`. -/
structure LlmpDescription where
  shmem : ShMemDescription
  lastMessageOffset : Option Nat
  deriving Repr, DecidableEq

/-- `LlmpClientDescription`. -/
structure LlmpClientDescription where
  sender : LlmpDescription
  receiver : LlmpDescription
  deriving Repr, DecidableEq

/-- Why a client cannot be rebuilt; `notInitialized` is a failed assertion. -/
inductive ReattachError where
  | notMapped
  | notInitialized
  | illegalArgument
  | noVariable (name : String)
  | illegalNumber (text : String)
  deriving Repr, DecidableEq

/-- The variables of the environment. -/
abbrev Env := String → Option String

/-- `env::set_var`. -/
def setVar (env : Env) (name text : String) : Env :=
  Function.update env name (some text)

/-- `env::var`. -/
def var (env : Env) (name : String) : Except ReattachError String :=
  match env name with
  | none => .error (.noVariable name)
  | some text => .ok text

/-- `str::parse` for an unsigned number. -/
def parse (text : String) : Except ReattachError Nat :=
  if text.toList ≠ [] ∧ text.toList.all Char.isDigit then
    .ok (Nat.ofDigitChars 10 text.toList 0)
  else .error (.illegalNumber text)

/-- `_NULL_ENV_STR`. -/
def nullEnvStr : String := "_NULL"

/-- `LlmpSharedMap::msg_to_offset`. -/
def msgToOffset
    (page : LlmpPage)
    (msg : Nat) : Except ReattachError Nat :=
  if llmpPageHeaderLen + msg < page.sizeTotal then .ok msg
  else .error .illegalArgument

/-- `LlmpSharedMap::msg_from_offset`. -/
def msgFromOffset
    (page : LlmpPage)
    (offset : Nat) : Except ReattachError Nat :=
  if page.mapSize - llmpPageHeaderLen < offset then .error .illegalArgument
  else .ok offset

/-- The last message, or the null pointer if there is none. -/
def lastMsg
    (page : LlmpPage) : Option Nat → Except ReattachError (Option Nat)
  | none => .ok none
  | some offset => (msgFromOffset page offset).map some

section

variable (pages : ShMemId → LlmpPage)
variable (canMap : ShMemDescription → Bool)

/-- `LlmpSharedMap::existing`. -/
def existing (shmem : ShMemId) : Except ReattachError LlmpPage :=
  if (pages shmem).magic then .ok (pages shmem) else .error .notInitialized

/-- `shmem_from_description`. -/
def shmemFromDescription
    (description : ShMemDescription) : Except ReattachError ShMemId :=
  if canMap description then .ok description.id else .error .notMapped

/-- The description of a place on a map. -/
def describe
    (shmem : ShMemId)
    (last : Option Nat) : Except ReattachError LlmpDescription :=
  let description : ShMemDescription := ⟨(pages shmem).mapSize, shmem⟩
  match last with
  | none => .ok ⟨description, none⟩
  | some msg =>
      (msgToOffset (pages shmem) msg).map fun offset =>
        ⟨description, some offset⟩

/-- `write_to_env` of a map, and `msg_to_env` of a place on it. -/
def writeToEnv
    (shmem : ShMemId)
    (envName : String)
    (env : Env) : Env :=
  setVar (setVar env envName (toString shmem)) (envName ++ "_SIZE")
    (toString (pages shmem).mapSize)

def msgToEnv
    (shmem : ShMemId)
    (last : Option Nat)
    (envName : String)
    (env : Env) : Except ReattachError Env :=
  match last with
  | none => .ok (setVar env (envName ++ "_OFFSET") nullEnvStr)
  | some msg =>
      (msgToOffset (pages shmem) msg).map fun offset =>
        setVar env (envName ++ "_OFFSET") (toString offset)

/-- `existing_from_env`. -/
def existingFromEnv
    (env : Env)
    (envName : String) : Except ReattachError ShMemId := do
  let mapShmStr ← var env envName
  let mapSize ← parse (← var env (envName ++ "_SIZE"))
  shmemFromDescription canMap ⟨mapSize, ← parse mapShmStr⟩

/-- `msg_offset_from_env`. -/
def msgOffsetFromEnv
    (env : Env)
    (envName : String) : Except ReattachError (Option Nat) := do
  let msgOffsetStr ← var env (envName ++ "_OFFSET")
  if msgOffsetStr = nullEnvStr then .ok none
  else (parse msgOffsetStr).map some

namespace LlmpSender

/-- `LlmpSender::on_existing_shmem`. -/
def onExistingShmem
    (currentOutShmem : ShMemId)
    (lastMsgSentOffset : Option Nat) : Except ReattachError LlmpSender := do
  let outShmem ← existing pages currentOutShmem
  let lastMsgSent ← lastMsg outShmem lastMsgSentOffset
  .ok
    { id := outShmem.senderId
      lastMsgSent := lastMsgSent
      earlier := []
      current := currentOutShmem
      unusedShmemCache := []
      keepPagesForever := false
      hasUnsentMessage := false }

/-- `LlmpSender::describe`. -/
def describe (sender : LlmpSender) : Except ReattachError LlmpDescription :=
  Llmp.describe pages sender.current sender.lastMsgSent

/-- `LlmpSender::on_existing_from_description`. -/
def onExistingFromDescription
    (description : LlmpDescription) : Except ReattachError LlmpSender := do
  onExistingShmem pages (← shmemFromDescription canMap description.shmem)
    description.lastMessageOffset

/-- `client_id_from_env`. -/
def clientIdFromEnv
    (env : Env)
    (envName : String) : Except ReattachError (Option ClientId) := do
  let clientIdStr ← var env (envName ++ "_CLIENT_ID")
  if clientIdStr = nullEnvStr then .ok none
  else
    let number ← parse clientIdStr
    if number < 2 ^ 32 then .ok (some (.ofNat number))
    else .error (.illegalNumber clientIdStr)

/-- `LlmpSender::to_env`. -/
def toEnv
    (sender : LlmpSender)
    (envName : String)
    (env : Env) : Except ReattachError Env :=
  let env := writeToEnv pages sender.current envName env
  let env := setVar env (envName ++ "_CLIENT_ID") (toString sender.id)
  msgToEnv pages sender.current sender.lastMsgSent envName env

/-- `LlmpSender::on_existing_from_env`. -/
def onExistingFromEnv
    (env : Env)
    (envName : String) : Except ReattachError LlmpSender := do
  let msgSentOffset ← msgOffsetFromEnv env envName
  let ret ←
    onExistingShmem pages (← existingFromEnv canMap env envName) msgSentOffset
  let id ← clientIdFromEnv env envName
  .ok { ret with id := id.getD 0 }

end LlmpSender

namespace LlmpReceiver

/-- `LlmpReceiver::on_existing_shmem`. -/
def onExistingShmem
    (currentSenderShmem : ShMemId)
    (lastMsgRecvdOffset : Option Nat) : Except ReattachError LlmpReceiver := do
  let currentRecvShmem ← existing pages currentSenderShmem
  let lastMsgRecvd ← lastMsg currentRecvShmem lastMsgRecvdOffset
  .ok
    { id := 0
      lastMsgRecvd := lastMsgRecvd
      currentRecvShmem := currentSenderShmem
      highestMsgId := 0 }

/-- `LlmpReceiver::describe`. -/
def describe
    (receiver : LlmpReceiver) : Except ReattachError LlmpDescription :=
  Llmp.describe pages receiver.currentRecvShmem receiver.lastMsgRecvd

/-- `LlmpReceiver::on_existing_from_description`. -/
def onExistingFromDescription
    (description : LlmpDescription) : Except ReattachError LlmpReceiver := do
  onExistingShmem pages (← shmemFromDescription canMap description.shmem)
    description.lastMessageOffset

/-- `LlmpReceiver::to_env`. -/
def toEnv
    (receiver : LlmpReceiver)
    (envName : String)
    (env : Env) : Except ReattachError Env :=
  let env := writeToEnv pages receiver.currentRecvShmem envName env
  msgToEnv pages receiver.currentRecvShmem receiver.lastMsgRecvd envName env

/-- `LlmpReceiver::on_existing_from_env`. -/
def onExistingFromEnv
    (env : Env)
    (envName : String) : Except ReattachError LlmpReceiver := do
  let currentSenderShmem ← existingFromEnv canMap env envName
  onExistingShmem pages currentSenderShmem (← msgOffsetFromEnv env envName)

end LlmpReceiver

namespace LlmpClient

/--
`LlmpClient::on_existing_shmem`.  Neither the sender's map nor its place is
used: the sender is put where the receiver is.
-/
def onExistingShmem
    (_currentOutShmem : ShMemId)
    (_lastMsgSentOffset : Option Nat)
    (currentBrokerShmem : ShMemId)
    (lastMsgRecvdOffset : Option Nat) : Except ReattachError LlmpClient := do
  let receiver ←
    LlmpReceiver.onExistingShmem pages currentBrokerShmem lastMsgRecvdOffset
  let sender ←
    LlmpSender.onExistingShmem pages currentBrokerShmem lastMsgRecvdOffset
  .ok ⟨sender, receiver⟩

/-- `LlmpClient::describe`. -/
def describe
    (client : LlmpClient) : Except ReattachError LlmpClientDescription := do
  let sender ← client.sender.describe pages
  let receiver ← client.receiver.describe pages
  .ok ⟨sender, receiver⟩

/-- `LlmpClient::existing_client_from_description`. -/
def existingClientFromDescription
    (description : LlmpClientDescription) :
    Except ReattachError LlmpClient := do
  let sender ←
    LlmpSender.onExistingFromDescription pages canMap description.sender
  let receiver ←
    LlmpReceiver.onExistingFromDescription pages canMap description.receiver
  .ok ⟨sender, receiver⟩

/-- `LlmpClient::to_env`. -/
def toEnv
    (client : LlmpClient)
    (envName : String)
    (env : Env) : Except ReattachError Env := do
  let env ← client.sender.toEnv pages (envName ++ "_SENDER") env
  client.receiver.toEnv pages (envName ++ "_RECEIVER") env

/-- `LlmpClient::on_existing_from_env`. -/
def onExistingFromEnv
    (env : Env)
    (envName : String) : Except ReattachError LlmpClient := do
  let sender ←
    LlmpSender.onExistingFromEnv pages canMap env (envName ++ "_SENDER")
  let receiver ←
    LlmpReceiver.onExistingFromEnv pages canMap env (envName ++ "_RECEIVER")
  .ok ⟨sender, receiver⟩

/-- The ways to reattach. -/
inductive Path where
  | existingShmem
  | description
  | env (envName : String)
  deriving Repr, DecidableEq

/-- Take a client down and build it again; `env` is the old environment. -/
def reattach
    (env : Env)
    (client : LlmpClient) : Path → Except ReattachError LlmpClient
  | .existingShmem =>
      onExistingShmem pages client.sender.current client.sender.lastMsgSent
        client.receiver.currentRecvShmem client.receiver.lastMsgRecvd
  | .description => do
      existingClientFromDescription pages canMap (← client.describe pages)
  | .env envName => do
      onExistingFromEnv pages canMap (← client.toEnv pages envName env) envName

end LlmpClient

end

@[simp] theorem ok_bind
    {α β : Type}
    (value : α)
    (next : α → Except ReattachError β) :
    (Except.ok value >>= next) = next value :=
  rfl

@[simp] theorem parse_repr (number : Nat) :
    parse number.repr = .ok number := by
  unfold parse
  rw [Nat.toList_repr, Nat.ofDigitChars_ten_toDigits, if_pos]
  refine ⟨Nat.toDigits_ne_nil, List.all_eq_true.mpr fun c isChar => ?_⟩
  exact Nat.isDigit_of_mem_toDigits (by decide) (by decide) isChar

@[simp] theorem repr_ne_nullEnvStr (number : Nat) :
    number.repr ≠ nullEnvStr := by
  intro same
  have parsed := parse_repr number
  have notNumber : parse nullEnvStr = .error (.illegalNumber "_NULL") := by
    decide
  rw [same, notNumber] at parsed
  cases parsed

theorem var_setVar
    (env : Env)
    (name text other : String) :
    var (setVar env name text) other =
      if other = name then .ok text else var env other := by
  unfold var setVar
  rw [Function.update_apply]
  by_cases same : other = name
  · rw [if_pos same, if_pos same]
  · rw [if_neg same, if_neg same]

/-- A map is there, and the last message, if any, is on its page. -/
structure Located (page : LlmpPage) (last : Option Nat) : Prop where
  magic : page.magic = true
  size : page.sizeTotal = page.mapSize - llmpPageHeaderLen
  onPage : ∀ msg, last = some msg → llmpPageHeaderLen + msg < page.sizeTotal

namespace Located

variable {pages : ShMemId → LlmpPage}
variable {shmem : ShMemId}
variable {last : Option Nat}

theorem existing
    (located : Located (pages shmem) last) :
    Llmp.existing pages shmem = .ok (pages shmem) :=
  if_pos located.magic

theorem lastMsg
    (located : Located (pages shmem) last) :
    Llmp.lastMsg (pages shmem) last = .ok last := by
  cases last with
  | none =>
      rfl
  | some msg =>
      have onPage := located.onPage msg rfl
      have size := located.size
      rw [Llmp.lastMsg, msgFromOffset, if_neg (by omega)]
      rfl

theorem describe
    (located : Located (pages shmem) last) :
    Llmp.describe pages shmem last =
      .ok ⟨⟨(pages shmem).mapSize, shmem⟩, last⟩ := by
  cases last with
  | none =>
      rfl
  | some msg =>
      simp only [Llmp.describe, msgToOffset,
        if_pos (located.onPage msg rfl)]
      rfl

/-- The text that stands for a place. -/
def offsetText : Option Nat → String
  | none => nullEnvStr
  | some offset => toString offset

theorem msgToEnv
    (located : Located (pages shmem) last)
    (envName : String)
    (env : Env) :
    Llmp.msgToEnv pages shmem last envName env =
      .ok (setVar env (envName ++ "_OFFSET") (offsetText last)) := by
  cases last with
  | none =>
      rfl
  | some msg =>
      simp only [Llmp.msgToEnv, msgToOffset,
        if_pos (located.onPage msg rfl)]
      rfl

end Located

theorem msgOffsetFromEnv_eq
    {env : Env}
    {envName : String}
    {last : Option Nat}
    (written :
      var env (envName ++ "_OFFSET") = .ok (Located.offsetText last)) :
    msgOffsetFromEnv env envName = .ok last := by
  cases last with
  | none =>
      simp [msgOffsetFromEnv, written, Located.offsetText]
  | some msg =>
      simp [msgOffsetFromEnv, written, Located.offsetText]
      rfl

section

variable {pages : ShMemId → LlmpPage}
variable {canMap : ShMemDescription → Bool}

variable {env : Env}
variable {envName : String}
variable {shmem : ShMemId}

theorem existingFromEnv_eq
    {mapSize : Nat}
    (name : var env envName = .ok (toString shmem))
    (size : var env (envName ++ "_SIZE") = .ok (toString mapSize))
    (mappable : canMap ⟨mapSize, shmem⟩ = true) :
    existingFromEnv canMap env envName = .ok shmem := by
  simp [existingFromEnv, name, size, shmemFromDescription, mappable]

theorem LlmpSender.onExistingShmem_eq
    {last : Option Nat}
    (located : Located (pages shmem) last) :
    LlmpSender.onExistingShmem pages shmem last =
      .ok
        { id := (pages shmem).senderId
          lastMsgSent := last
          earlier := []
          current := shmem
          unusedShmemCache := []
          keepPagesForever := false
          hasUnsentMessage := false } := by
  simp [LlmpSender.onExistingShmem, located.existing, located.lastMsg]

theorem LlmpReceiver.onExistingShmem_eq
    {last : Option Nat}
    (located : Located (pages shmem) last) :
    LlmpReceiver.onExistingShmem pages shmem last =
      .ok
        { id := 0
          lastMsgRecvd := last
          currentRecvShmem := shmem
          highestMsgId := 0 } := by
  simp [LlmpReceiver.onExistingShmem, located.existing, located.lastMsg]

theorem LlmpSender.clientIdFromEnv_eq
    {id : ClientId}
    (written : var env (envName ++ "_CLIENT_ID") = .ok (toString id)) :
    LlmpSender.clientIdFromEnv env envName = .ok (some id) := by
  have text : toString id = id.toNat.repr := rfl
  have small : id.toNat < 4294967296 := id.toNat_lt
  rw [text] at written
  simp [LlmpSender.clientIdFromEnv, written, small]

theorem LlmpSender.onExistingFromEnv_eq
    {sender : LlmpSender}
    (located : Located (pages sender.current) sender.lastMsgSent)
    (mappable :
      canMap ⟨(pages sender.current).mapSize, sender.current⟩ = true)
    (name : var env envName = .ok (toString sender.current))
    (size :
      var env (envName ++ "_SIZE") =
        .ok (toString (pages sender.current).mapSize))
    (id : var env (envName ++ "_CLIENT_ID") = .ok (toString sender.id))
    (offset :
      var env (envName ++ "_OFFSET") =
        .ok (Located.offsetText sender.lastMsgSent)) :
    LlmpSender.onExistingFromEnv pages canMap env envName =
      .ok
        { sender with
          earlier := []
          unusedShmemCache := []
          keepPagesForever := false
          hasUnsentMessage := false } := by
  simp [LlmpSender.onExistingFromEnv, msgOffsetFromEnv_eq offset,
    existingFromEnv_eq name size mappable,
    LlmpSender.onExistingShmem_eq located,
    LlmpSender.clientIdFromEnv_eq id]

theorem LlmpReceiver.onExistingFromEnv_eq
    {receiver : LlmpReceiver}
    (located :
      Located (pages receiver.currentRecvShmem) receiver.lastMsgRecvd)
    (mappable :
      canMap
          ⟨(pages receiver.currentRecvShmem).mapSize,
            receiver.currentRecvShmem⟩ =
        true)
    (name : var env envName = .ok (toString receiver.currentRecvShmem))
    (size :
      var env (envName ++ "_SIZE") =
        .ok (toString (pages receiver.currentRecvShmem).mapSize))
    (offset :
      var env (envName ++ "_OFFSET") =
        .ok (Located.offsetText receiver.lastMsgRecvd)) :
    LlmpReceiver.onExistingFromEnv pages canMap env envName =
      .ok { receiver with id := 0, highestMsgId := 0 } := by
  simp [LlmpReceiver.onExistingFromEnv, msgOffsetFromEnv_eq offset,
    existingFromEnv_eq name size mappable,
    LlmpReceiver.onExistingShmem_eq located]

namespace LlmpClient

/-- Both maps of a client are there, and its sender's map knows its identity. -/
structure Attached
    (pages : ShMemId → LlmpPage)
    (client : LlmpClient) : Prop where
  sending :
    Located (pages client.sender.current) client.sender.lastMsgSent
  receiving :
    Located (pages client.receiver.currentRecvShmem)
      client.receiver.lastMsgRecvd
  senderId : (pages client.sender.current).senderId = client.sender.id

/-- The system maps both maps of a client again. -/
structure Mappable
    (pages : ShMemId → LlmpPage)
    (canMap : ShMemDescription → Bool)
    (client : LlmpClient) : Prop where
  sending :
    canMap
        ⟨(pages client.sender.current).mapSize, client.sender.current⟩ =
      true
  receiving :
    canMap
        ⟨(pages client.receiver.currentRecvShmem).mapSize,
          client.receiver.currentRecvShmem⟩ =
      true

/-- The client with only its identity and its two places. -/
def rebuilt (client : LlmpClient) : LlmpClient where
  sender :=
    { client.sender with
      earlier := []
      unusedShmemCache := []
      keepPagesForever := false
      hasUnsentMessage := false }
  receiver := { client.receiver with id := 0, highestMsgId := 0 }

variable {client : LlmpClient}

theorem reattach_description
    (attached : Attached pages client)
    (mappable : Mappable pages canMap client)
    (env : Env) :
    reattach pages canMap env client .description = .ok client.rebuilt := by
  simp [reattach, LlmpClient.describe, LlmpSender.describe,
    LlmpReceiver.describe, attached.sending.describe,
    attached.receiving.describe, existingClientFromDescription,
    LlmpSender.onExistingFromDescription,
    LlmpReceiver.onExistingFromDescription, shmemFromDescription,
    mappable.sending, mappable.receiving,
    LlmpSender.onExistingShmem_eq attached.sending,
    LlmpReceiver.onExistingShmem_eq attached.receiving,
    attached.senderId, rebuilt]

theorem toEnv_eq
    (attached : Attached pages client)
    (env : Env)
    (envName : String) :
    client.toEnv pages envName env =
      .ok
        (setVar
          (writeToEnv pages client.receiver.currentRecvShmem
            (envName ++ "_RECEIVER")
            (setVar
              (setVar
                (writeToEnv pages client.sender.current
                  (envName ++ "_SENDER") env)
                (envName ++ "_SENDER" ++ "_CLIENT_ID")
                (toString client.sender.id))
              (envName ++ "_SENDER" ++ "_OFFSET")
              (Located.offsetText client.sender.lastMsgSent)))
          (envName ++ "_RECEIVER" ++ "_OFFSET")
          (Located.offsetText client.receiver.lastMsgRecvd)) := by
  simp [LlmpClient.toEnv, LlmpSender.toEnv, LlmpReceiver.toEnv,
    attached.sending.msgToEnv, attached.receiving.msgToEnv]

theorem reattach_env
    (attached : Attached pages client)
    (mappable : Mappable pages canMap client)
    (env : Env)
    (envName : String) :
    reattach pages canMap env client (.env envName) =
      .ok client.rebuilt := by
  simp only [reattach, toEnv_eq attached env envName, ok_bind,
    LlmpClient.onExistingFromEnv]
  rw [LlmpSender.onExistingFromEnv_eq attached.sending mappable.sending]
  rw [ok_bind]
  rw [LlmpReceiver.onExistingFromEnv_eq attached.receiving
    mappable.receiving]
  · rfl
  all_goals
    simp [var_setVar, writeToEnv, String.append_assoc]

theorem reattach_existingShmem
    (attached : Attached pages client)
    (env : Env) :
    reattach pages canMap env client .existingShmem =
      .ok
        { sender :=
            { id := (pages client.receiver.currentRecvShmem).senderId
              lastMsgSent := client.receiver.lastMsgRecvd
              earlier := []
              current := client.receiver.currentRecvShmem
              unusedShmemCache := []
              keepPagesForever := false
              hasUnsentMessage := false }
          receiver := client.rebuilt.receiver } := by
  simp [reattach, LlmpClient.onExistingShmem,
    LlmpSender.onExistingShmem_eq attached.receiving,
    LlmpReceiver.onExistingShmem_eq attached.receiving, rebuilt]

end LlmpClient

end

end MeFuzz.Llmp
