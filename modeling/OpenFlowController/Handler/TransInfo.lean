import OpenFlowController.Check.Header
import OpenFlowController.Xid.XidTable

/-! # What the receive handlers work on

A handler owns the received buffer. The record keeps account of every buffer that
is freed or handed over, so that ownership can be read off the end of a run. What
a handler cannot decide itself is an environment: allocation, the queue behind
`enqueue_message`, and what lies in uninitialised variables.
-/
namespace OpenFlowController.Handler
open Memory Check Protocol Queue Xid

inductive Released
  | recvBuf
  | recvBufData
  | sendBuf
  deriving DecidableEq

structure TransInfo (Q : Type) where
  recvBuf : Message
  sendQueue : Option Q
  xidLatest : UInt32
  xidTable : XidTable
  released : List Released
  /-- What was given to `enqueue_message`, whatever this answered. -/
  toSend : List Message
  toApp : List Message

/-- `cc_create_header` to those who call it: whether it gets its buffer, and its arguments. -/
abbrev CreateHeader := Bool → UInt32 → OfpType → ℕ → Option Message

structure Environment (Q : Type) where
  place : XidPointer → ℕ
  createHeader : CreateHeader
  /-- Whether `cc_create_header` gets its buffer. -/
  allocated : Bool
  createMessageQueue : Q
  enqueueMessage : Q → Message → ErrorCode × Q
  /-- What is found behind a pointer taken from message bytes. -/
  memoryAt : ℕ → Bytes
  /-- The pointer to the counter, in the 32 bits that are left of it. -/
  xidLatestAddress : UInt32
  /-- Whether accesses through uninitialised pointers come back. -/
  strayAccesses : Bool
  /-- An uninitialised `ret`. -/
  strayRet : ℤ

variable {Q : Type}

def TransInfo.freeBuffer (tit : TransInfo Q) (buf : Released) : TransInfo Q :=
  { tit with released := tit.released++[buf] }

def byte16 (x : ℕ) (i : ℕ) : UInt8 := UInt8.ofNat (x/256^(1-i))

def byte32 (x : UInt32) (i : ℕ) : UInt8 := UInt8.ofNat (x.toNat/256^(3-i))

/-- The bytes in the other order: `htonl` and `ntohl` of a little-endian host. -/
def htonl (x : UInt32) : UInt32 :=
  (x <<< 24) ||| ((x &&& (0xff00 : UInt32)) <<< 8) ||| ((x >>> 8) &&& (0xff00 : UInt32)) ||| (x >>> 24)

/-- At its contract: a buffer of the requested length with the header in it and zeros behind. -/
def ccCreateHeader (allocated : Bool) (xid : UInt32) (type : OfpType) (length : ℕ) : Option Message :=
  if allocated then
    some ⟨fun i =>
      if i = 0 then UInt8.ofNat ofpVersion
      else if i = 1 then UInt8.ofNat type.value
      else if i < 4 then byte16 length (i-2)
      else if i < 8 then byte32 xid (i-4)
      else 0,length⟩
  else none

def copyBody (message : Message) (body : Bytes) (dataLength : ℕ) : Message :=
  { message with data := fun i => if 8 ≤ i ∧ i < 8+dataLength then body (i-8) else message.data i }

def ccCreateEchoRequest (header : CreateHeader) (allocated : Bool) (xid : UInt32) (buf : Message) :
    Option Message := do
  let dataLength := buf.length%65536
  let echoRequest ← header allocated xid .ofptEchoRequest ((8+dataLength)%65536)
  return copyBody echoRequest buf.data dataLength

/-- The new buffer is not compared with NULL, so without it only an empty body
gets as far as an answer. -/
def ccCreateEchoReply (header : CreateHeader) (allocated : Bool) (xid : UInt32) (buf : Message) :
    Option (Option Message) :=
  let dataLength := buf.length%65536
  match header allocated xid .ofptEchoReply ((8+dataLength)%65536) with
  | none => if dataLength > 0 then none else some none
  | some echoReply => some (some (copyBody echoReply buf.data dataLength))

def ccCreateFeaturesRequest (header : CreateHeader) (allocated : Bool) (xid : UInt32) : Option Message :=
  header allocated xid .ofptFeaturesRequest 8

/-- A queue made for a NULL pointer is not kept. -/
def ccInsertToSendQueue (env : Environment Q) (smq : Option Q) (buf : Message) : ErrorCode × Option Q :=
  match smq with
  | none => ((env.enqueueMessage env.createMessageQueue buf).1,none)
  | some queue => ((env.enqueueMessage queue buf).1,some (env.enqueueMessage queue buf).2)

/-- There are no applications yet: the buffer is freed and an error reported. -/
def ccInsertToAppQueue (tit : TransInfo Q) : ErrorCode × TransInfo Q :=
  (.ccEErr,{ tit with toApp := tit.toApp++[tit.recvBuf] }.freeBuffer .recvBuf)

end OpenFlowController.Handler
