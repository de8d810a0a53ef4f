/-
  cpp_proxy — the link between the proxy and the process (local_tcp.hpp).

  The proxy sends frames: a type byte, a 4-byte length and that many payload
  bytes.  The process answers with responses: a raw `response_head` of 16
  bytes, followed by `new_data_len` bytes of new data.  Both sides use the
  machine's own (little-endian) integers.
-/
import CppProxy.Lib.Bytes

namespace CppProxy

open Bytes

/-- `enum class data_type : uint8_t`. -/
inductive DataType
  | fromClientToServer
  | fromServerToClient
  | fourTuple
  | heartbeat
deriving DecidableEq, Repr

/-- The value of an enumerator. -/
def DataType.code : DataType → UInt8
  | fromClientToServer => 0
  | fromServerToClient => 1
  | fourTuple => 2
  | heartbeat => 3

/-- The enumerator of a byte cast to `data_type`, if it has one: the `switch`
    statements send every other value to `default`. -/
def DataType.ofCode (c : UInt8) : Option DataType :=
  if c = 0 then some fromClientToServer
  else if c = 1 then some fromServerToClient
  else if c = 2 then some fourTuple
  else if c = 3 then some heartbeat
  else none

@[simp] theorem DataType.ofCode_code (t : DataType) : ofCode t.code = some t := by
  cases t <;> rfl

/-- `enum class action : uint8_t`. -/
inductive Action
  | pass
  | block
deriving DecidableEq, Repr

/-- The value of an enumerator. -/
def Action.code : Action → UInt8
  | pass => 0
  | block => 1

/-- `struct response_head`.  The type and the action are read off the wire
    without a check, so they hold any byte. -/
structure ResponseHead where
  type : UInt8
  act : UInt8
  unused2 : UInt8 := 0
  unused3 : UInt8 := 0
  newDataLen : UInt32 := 0
  handledTotalPkgLen : UInt64
deriving DecidableEq, Repr

/-- `sizeof(local::response_head)`. -/
def responseHeadLen : ℕ := 16

/-- The bytes of a head in memory. -/
def ResponseHead.bytes (h : ResponseHead) : List Byte :=
  [h.type, h.act, h.unused2, h.unused3] ++ le 4 h.newDataLen.toNat ++
    le 8 h.handledTotalPkgLen.toNat

/-- The cast `(local::response_head*)head_buf`. -/
def ResponseHead.ofBytes (bs : List Byte) : ResponseHead where
  type := bs.getD 0 0
  act := bs.getD 1 0
  unused2 := bs.getD 2 0
  unused3 := bs.getD 3 0
  newDataLen := UInt32.ofNat (ofLe ((bs.drop 4).take 4))
  handledTotalPkgLen := UInt64.ofNat (ofLe ((bs.drop 8).take 8))

@[simp] theorem ResponseHead.length_bytes (h : ResponseHead) :
    h.bytes.length = responseHeadLen := by
  simp [bytes, responseHeadLen]

/-- **A head is read back as it was written.** -/
@[simp] theorem ResponseHead.ofBytes_bytes (h : ResponseHead) : ofBytes h.bytes = h := by
  have h4 : ofLe (le 4 h.newDataLen.toNat) = h.newDataLen.toNat :=
    ofLe_le h.newDataLen.toNat_lt
  have h8 : ofLe (le 8 h.handledTotalPkgLen.toNat) = h.handledTotalPkgLen.toNat :=
    ofLe_le h.handledTotalPkgLen.toNat_lt
  have e4 : (h.bytes.drop 4).take 4 = le 4 h.newDataLen.toNat := by
    simp [bytes]
  have e8 : (h.bytes.drop 8).take 8 = le 8 h.handledTotalPkgLen.toNat := by
    simp [bytes, List.take_of_length_le]
  cases h
  simp only [ofBytes, e4, e8, h4, h8]
  simp [bytes]

/-- A response as the process sends it: the body has the length the head says. -/
structure Response where
  head : ResponseHead
  body : List Byte
  body_len : body.length = head.newDataLen.toNat

/-- A response that passes up to `total`, without new data. -/
def Response.pass (type : Byte) (total : UInt64) : Response :=
  ⟨{ type, act := 0, handledTotalPkgLen := total }, [], rfl⟩

/-- The bytes of a response on the link. -/
def Response.bytes (r : Response) : List Byte := r.head.bytes ++ r.body

/-- The bytes of a proxy frame: `type`, the length of the payload, the payload. -/
def frame (type : DataType) (payload : List Byte) : List Byte :=
  type.code :: (le 4 payload.length ++ payload)

@[simp] theorem length_frame (type : DataType) (payload : List Byte) :
    (frame type payload).length = payload.length + 5 := by
  simp [frame]; omega

theorem frame_ne_nil (type : DataType) (payload : List Byte) : frame type payload ≠ [] := by
  simp [frame]

end CppProxy
