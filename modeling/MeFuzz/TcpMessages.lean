import MeFuzz.Entities
import MeFuzz.MessagePack

namespace MeFuzz.Tcp

open MessagePack

/-!
# Multiplexed messages

All elements of a node share one connection.  Each message names its element,
carries flags, and holds a payload that may be compressed.  Master and node
declare the record twice, compress with their own libraries, and take the
message apart with their own code; both sides are modelled here, around
parameters for the compression libraries.
-/

/-- The master's `flags`, eight bits wide. -/
abbrev Flags := UInt8

namespace Flags

def compressed : Flags := 0x1

def master : Flags := 0x4

def newTestCase : Flags := 0x8

def evaluation : Flags := 0x16

def configuration : Flags := 0x32

/-- `Has`. -/
def has (f flag : Flags) : Bool := flag == f &&& flag

/-- `Add`. -/
def add (f flag : Flags) : Flags := f ||| flag

end Flags

/-- `TcpMasterMessage`. -/
structure TcpMasterMessage where
  clientID : UInt32
  flags : UInt32
  payload : List Int
  deriving Repr, DecidableEq

/-- The fields in declaration order. -/
def TcpMasterMessage.toValue (msg : TcpMasterMessage) : Value :=
  .array
    [.int msg.clientID.toNat, .int msg.flags.toNat,
      .ofInts msg.payload]

/-- Fill the fields in declaration order, keeping the low bits of integers. -/
def TcpMasterMessage.ofValue : Value → Option TcpMasterMessage
  | .array [.int clientID, .int flags, payload] =>
      payload.ints?.map fun payload =>
        { clientID := UInt32.ofInt clientID
          flags := UInt32.ofInt flags
          payload := payload }
  | _ => none

/-- `CovertTo[int, byte]`. -/
def intsToBytes (values : List Int) : Bytes :=
  values.map UInt8.ofInt

/-- `CovertTo[byte, int]`. -/
def bytesToInts (bytes : Bytes) : List Int :=
  bytes.map fun byte => (byte.toNat : Int)

def threshold : Nat := 1024

/-- `Compress`: the data, and whether they were compressed. -/
def compress (deflate : Bytes → Bytes) (data : Bytes) : Bytes × Bool :=
  if data.length < threshold then (data, false)
  else (deflate data, true)

/-- The message that `MultiplexedConnection.send` marshals and writes. -/
def send
    (deflate : Bytes → Bytes)
    (onNodeID : OnNodeID)
    (flags : Flags)
    (msg : Bytes) : TcpMasterMessage :=
  let flags := Flags.add flags Flags.master
  let compressed := compress deflate msg
  let flags := if compressed.2 then Flags.add flags Flags.compressed else flags
  { clientID := onNodeID
    flags := flags.toUInt32
    payload := bytesToInts compressed.1 }

/-- A message after `handleConnection` took it apart. -/
structure Received where
  clientID : OnNodeID
  flags : UInt32
  payload : Bytes
  deriving Repr, DecidableEq

/-- The decode path of `handleConnection`; `none` is a skipped message. -/
def receive
    (inflate : Bytes → Option Bytes)
    (msg : TcpMasterMessage) : Option Received :=
  let payload := intsToBytes msg.payload
  if Flags.has msg.flags.toUInt8 Flags.compressed then
    (inflate payload).map fun payload =>
      { clientID := msg.clientID, flags := msg.flags, payload := payload }
  else
    some
      { clientID := msg.clientID, flags := msg.flags, payload := payload }

namespace Node

def llmpFlagCompressed : UInt32 := 0x1

def llmpFlagB2M : UInt32 := 0x4

def llmpFlagNewTestCase : UInt32 := 0x8

def llmpFlagEvaluation : UInt32 := 0x10

/-- The node's `TcpMasterMessage`. -/
structure TcpMasterMessage where
  clientId : UInt32
  flags : UInt32
  payload : Bytes
  deriving Repr, DecidableEq

/-- The fields in declaration order. -/
def TcpMasterMessage.toValue (msg : TcpMasterMessage) : Value :=
  .array
    [.int msg.clientId.toNat, .int msg.flags.toNat, .ofBytes msg.payload]

/-- Read the fields in declaration order; integers must fit their fields. -/
def TcpMasterMessage.ofValue : Value → Option TcpMasterMessage
  | .array [.int clientId, .int flags, payload] =>
      if 0 ≤ clientId ∧ clientId < 2 ^ 32 ∧ 0 ≤ flags ∧ flags < 2 ^ 32 then
        payload.bytes?.map fun payload =>
          { clientId := UInt32.ofInt clientId
            flags := UInt32.ofInt flags
            payload := payload }
      else none
  | _ => none

/-- `GZIP_THRESHOLD`. -/
def gzipThreshold : Nat := 1024

/-- `GzipCompressor::compress`. -/
def compress (deflate : Bytes → Bytes) (buf : Bytes) : Option Bytes :=
  if gzipThreshold ≤ buf.length then some (deflate buf) else none

/-- The message that `Multiplexer::send_msg` serializes and writes. -/
def sendMsg
    (deflate : Bytes → Bytes)
    (msg : Bytes)
    (onNodeId : UInt32)
    (flags : UInt32) : TcpMasterMessage :=
  let flags := flags ||| llmpFlagB2M
  if flags &&& llmpFlagCompressed ≠ llmpFlagCompressed then
    match compress deflate msg with
    | some compressed =>
        { clientId := onNodeId
          flags := flags ||| llmpFlagCompressed
          payload := compressed }
    | none => { clientId := onNodeId, flags := flags, payload := msg }
  else
    { clientId := onNodeId, flags := flags, payload := msg }

/-- The decode path of `Multiplexer::handle_connection`. -/
def receive
    (inflate : Bytes → Option Bytes)
    (msg : TcpMasterMessage) : Option TcpMasterMessage :=
  if msg.flags &&& llmpFlagCompressed = llmpFlagCompressed then
    (inflate msg.payload).map fun payload =>
      { msg with payload := payload }
  else some msg

end Node

end MeFuzz.Tcp
