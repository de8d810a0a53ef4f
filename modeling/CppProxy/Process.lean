/-
  cpp_proxy — the process's end of a connection (process.cpp).

  For each connection the process runs two coroutines: `setup` reads the frames
  of the proxy and answers each payload with a head that acknowledges the total
  so far, and `heartbeat` sends a head every five seconds.  Both write to the
  same socket.

  * `pull bytes`, `push t k`: the kernel moves bytes into the read of `setup`, or
    out of the write of coroutine `t`;
  * `readDone`, `readEof`, `readError`: the read of `setup` ends.  At the end of
    the stream the bytes of `head_buf` that were not read are `garbage`;
    `parses` says whether `handle_init` accepts the data of a four tuple, or
    throws;
  * `tick`, `cancelled`: the timer of `heartbeat` expires, or was cancelled;
  * `wrote t`, `writeFailed t`: the write of coroutine `t` ends.
-/
import CppProxy.LocalTcp

namespace CppProxy

open Bytes

/-- `async_write` of a head: the whole head, and what is not sent yet. -/
structure HeadWrite where
  frame : List Byte
  rest : List Byte
deriving DecidableEq, Repr

/-- `setup`; `head` is `head_buf`. -/
inductive SetupPc
  | readHead (got : List Byte)
  | readBody (head got : List Byte)
  | write (w : HeadWrite)
  | done
deriving DecidableEq, Repr

/-- `heartbeat`: it waits on its timer, or writes a head. -/
inductive HeartbeatPc
  | waiting
  | write (w : HeadWrite)
  | done
deriving DecidableEq, Repr

/-- The coroutines of the process that write. -/
inductive Coroutine
  | setup
  | heartbeat
deriving DecidableEq, Repr

/-- A session of the process.  `received`, `sent` and `begun`, the heads whose
    first byte was sent, only record what went over the socket, `readFailed` that a
    read of `setup` ended with an error other than the end of the stream, and
    `handled` the calls of `handle_init`, `handle_request` and `handle_response`. -/
structure Process where
  hasClosed : Bool := false
  eof : Bool := false
  reqHandledTotalPkgLen : UInt64 := 0
  resHandledTotalPkgLen : UInt64 := 0
  buf : List Byte := []
  setup : SetupPc := .readHead []
  heartbeat : HeartbeatPc := .waiting
  received : List Byte := []
  readFailed : Bool := false
  sent : List Byte := []
  begun : List (List Byte) := []
  handled : List (DataType × List Byte) := []
deriving DecidableEq, Repr

/-- What can happen next to a session of the process. -/
inductive ProcessEvent
  | pull (bytes : List Byte)
  | readDone (parses : Bool)
  | readEof (garbage : List Byte) (parses : Bool)
  | readError
  | tick
  | cancelled
  | push (t : Coroutine) (k : ℕ)
  | wrote (t : Coroutine)
  | writeFailed (t : Coroutine)
deriving DecidableEq, Repr

/-- The length of a frame's head: the type and the length of the payload. -/
def frameHeadLen : ℕ := 5

/-- `*(uint32_t*)(head_buf + 1)`. -/
def bodyLen (head : List Byte) : UInt32 := UInt32.ofNat (ofLe ((head.drop 1).take 4))

/-- A head that acknowledges `total`. -/
def passHead (type : DataType) (total : UInt64) : ResponseHead where
  type := type.code
  act := Action.pass.code
  handledTotalPkgLen := total

/-- `head{}` with the type `heartbeat`. -/
def heartbeatHead : ResponseHead := passHead .heartbeat 0

/-- `async_write` of a head. -/
def HeadWrite.start (head : ResponseHead) : HeadWrite := ⟨head.bytes, head.bytes⟩

/-- What the read of `setup` has got, and what it wants. -/
def SetupPc.reading : SetupPc → Option (List Byte × ℕ)
  | readHead got => some (got, frameHeadLen)
  | readBody head got => some (got, (bodyLen head).toNat)
  | _ => none

/-- The read of `setup` has got more. -/
def SetupPc.setGot (got : List Byte) : SetupPc → SetupPc
  | readHead _ => readHead got
  | readBody head _ => readBody head got
  | pc => pc

namespace Process

variable (p : Process)

/-- `grace_close`. -/
def graceClose : Process := { p with hasClosed := true }

/-- One iteration of `setup` up to its first read. -/
def setupLoop : Process :=
  if p.eof then { p.graceClose with setup := .done } else { p with setup := .readHead [] }

/-- `setup` answers with `head`. -/
def writeHead (head : ResponseHead) : Process := { p with setup := .write (.start head) }

/-- `handle_init`, `handle_request` or `handle_response`. -/
def call (type : DataType) (data : List Byte) : Process :=
  { p with handled := p.handled ++ [(type, data)] }

/-- The `switch` of `setup` on a frame, whose body is at the start of `buf_`.  An
    exception of `handle_init` ends the coroutine. -/
def handle (head : List Byte) (parses : Bool) : Process :=
  let data := p.buf.take (bodyLen head).toNat
  match DataType.ofCode (head.getD 0 0) with
  | some .fromClientToServer =>
    let p := { p with reqHandledTotalPkgLen := p.reqHandledTotalPkgLen + (bodyLen head).toUInt64 }
    let p := p.call .fromClientToServer data
    p.writeHead (passHead .fromClientToServer p.reqHandledTotalPkgLen)
  | some .fromServerToClient =>
    let p := { p with resHandledTotalPkgLen := p.resHandledTotalPkgLen + (bodyLen head).toUInt64 }
    let p := p.call .fromServerToClient data
    if bodyLen head = 0 then p.setupLoop
    else p.writeHead (passHead .fromServerToClient p.resHandledTotalPkgLen)
  | some .fourTuple =>
    let p := p.call .fourTuple data
    if parses then p.setupLoop else { p with setup := .done }
  | _ => p.setupLoop

/-- `buf_.resize(n)`, when it is smaller. -/
def growBuf (n : ℕ) : Process :=
  { p with buf := p.buf ++ List.replicate (n - p.buf.length) 0 }

/-- `setup` has the head of a frame. -/
def setupHead (head : List Byte) (parses : Bool) : Process :=
  let p := p.growBuf (bodyLen head).toNat
  if bodyLen head ≠ 0 then { p with setup := .readBody head [] } else p.handle head parses

/-- The bytes that were read of a body are at the start of `buf_`. -/
def setBuf (got : List Byte) : Process := { p with buf := got ++ p.buf.drop got.length }

/-- One iteration of `heartbeat` up to its wait. -/
def heartbeatLoop : Process :=
  { p with heartbeat := if p.hasClosed then .done else .waiting }

/-- The write that a coroutine is in. -/
def headWrite : Coroutine → Option HeadWrite
  | .setup => match p.setup with
    | .write w => some w
    | _ => none
  | .heartbeat => match p.heartbeat with
    | .write w => some w
    | _ => none

/-- The write of a coroutine has made progress. -/
def setHeadWrite (w : HeadWrite) : Coroutine → Process
  | .setup => { p with setup := .write w }
  | .heartbeat => { p with heartbeat := .write w }

/-- The socket takes `k` bytes of a head. -/
def send (w : HeadWrite) (k : ℕ) : Process :=
  { p with
    sent := p.sent ++ w.rest.take k
    begun := p.begun ++ if w.rest = w.frame then [w.frame] else [] }

/-- One step of the process; `none` where the event cannot happen. -/
def step : ProcessEvent → Option Process
  | .pull bytes =>
    match p.setup.reading with
    | some (got, want) =>
      if p.hasClosed = false ∧ bytes ≠ [] ∧ got.length + bytes.length ≤ want then
        some { p with setup := p.setup.setGot (got ++ bytes), received := p.received ++ bytes }
      else none
    | none => none
  | .readDone parses =>
    match p.setup with
    | .readHead got => if got.length = frameHeadLen then some (p.setupHead got parses) else none
    | .readBody head got =>
      if got.length = (bodyLen head).toNat then some ((p.setBuf got).handle head parses) else none
    | _ => none
  | .readEof garbage parses =>
    match p.setup with
    | .readHead got =>
      if got.length + garbage.length = frameHeadLen ∧ garbage ≠ [] then
        some ({ p with eof := true }.setupHead (got ++ garbage) parses)
      else none
    | .readBody head got =>
      if got.length < (bodyLen head).toNat then
        some (({ p with eof := true }.setBuf got).handle head parses)
      else none
    | _ => none
  | .readError =>
    match p.setup.reading with
    | some (got, want) =>
      if got.length < want then some { p.graceClose with setup := .done, readFailed := true }
      else none
    | none => none
  | .tick =>
    match p.heartbeat with
    | .waiting => some { p with heartbeat := .write (.start heartbeatHead) }
    | _ => none
  | .cancelled =>
    match p.heartbeat with
    | .waiting => if p.hasClosed then some p.heartbeatLoop else none
    | _ => none
  | .push t k =>
    match p.headWrite t with
    | some w =>
      if p.hasClosed = false ∧ 0 < k ∧ k ≤ w.rest.length then
        some ((p.send w k).setHeadWrite { w with rest := w.rest.drop k } t)
      else none
    | none => none
  | .wrote t =>
    match p.headWrite t with
    | some w =>
      if w.rest = [] then
        match t with
        | .setup => some p.setupLoop
        | .heartbeat => some p.heartbeatLoop
      else none
    | none => none
  | .writeFailed t =>
    match p.headWrite t with
    | some w =>
      if w.rest ≠ [] then
        match t with
        | .setup => some { p.graceClose with setup := .done }
        | .heartbeat => some { p.graceClose with heartbeat := .done }
      else none
    | none => none

/-- The session once `start` has spawned the two coroutines. -/
def init : Process := {}

end Process

end CppProxy
