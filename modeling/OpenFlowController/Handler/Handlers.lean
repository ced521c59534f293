import OpenFlowController.Check.OpenFlowMessage
import OpenFlowController.Handler.TransInfo

/-! # The receive handlers

A handler validates a buffer and goes on with its own part when the validator
accepts. The parts end in one of two ways: a new message for the send queue or
the received one for the applications. A handler without an answer has run into
an access of its own or has not come to an end.
-/
namespace OpenFlowController.Handler
open Memory Access Check Protocol Queue Xid
variable {Q : Type}

abbrev Answer (Q : Type) := Option (ErrorCode × TransInfo Q)

structure RecvHandler (Q : Type) where
  /-- What runs before the validator comes back. -/
  before (env : Environment Q) : Bool := true
  /-- The buffer given to the validator, and to `free_buffer` at the end. -/
  recvData (env : Environment Q) (recvBuf : Message) : Message := recvBuf
  freed : Released := .recvBuf
  validate : Message → Access ValidationCode
  /-- The `ret` that is tested after the call of the validator. -/
  ret (env : Environment Q) (code : ValidationCode) : ℤ := code.value
  accepted : Environment Q → TransInfo Q → Access (Answer Q)

def RecvHandler.Validates (handler : RecvHandler Q) (env : Environment Q) (recvBuf : Message)
    (code : ValidationCode) : Prop :=
  Returns (handler.validate (handler.recvData env recvBuf)) (handler.recvData env recvBuf).data code

def RecvHandler.run (handler : RecvHandler Q) (env : Environment Q) (fuel : ℕ) (tit : TransInfo Q) :
    Answer Q :=
  if handler.before env then
    let recvData := handler.recvData env tit.recvBuf
    match ((handler.validate recvData).run fuel recvData.data).1 with
    | none => none
    | some code =>
      if handler.ret env code < 0 then some (.ccEErr,tit.freeBuffer handler.freed)
      else ((handler.accepted env tit).run fuel tit.recvBuf.data).1.join
  else none

def hostXid : Access UInt32 := do
  let xid ← ntohlAt 4
  return UInt32.ofNat xid

/-- `ret = cc_insert_to_send_queue( send_buf )` and the code around it. -/
def sendToSwitch (env : Environment Q) (freed : Released) (tit : TransInfo Q) :
    Option Message → ErrorCode × TransInfo Q
  | none => (.ccEErr,tit.freeBuffer freed)
  | some sendBuf =>
    let (ret,sendQueue) := ccInsertToSendQueue env tit.sendQueue sendBuf
    let tit := { tit with sendQueue, toSend := tit.toSend++[sendBuf] }
    if ret.value < 0 then (.ccEErr,(tit.freeBuffer .sendBuf).freeBuffer freed)
    else (.ccENone,tit.freeBuffer freed)

/-- `ret = cc_insert_to_app_queue( recv_data )` and the code around it. -/
def passToApp (tit : TransInfo Q) : ErrorCode × TransInfo Q :=
  let (ret,tit) := ccInsertToAppQueue tit
  if ret.value < 0 then (.ccEErr,tit.freeBuffer .recvBuf) else (.ccENone,tit)

/-- `CC_ERROR_RETURN` returns from the caller in both branches; what follows it
is never reached. -/
def ccErrorReturn (ret : ErrorCode) (tit : TransInfo Q)
    (_rest : TransInfo Q → ErrorCode × TransInfo Q) : ErrorCode × TransInfo Q :=
  match ret with
  | .ccEErr => (.ccEErr,tit)
  | .ccENone => (.ccENone,tit)

def matchReply (env : Environment Q) (tit : TransInfo Q) (xid : UInt32)
    (rest : TransInfo Q → ErrorCode × TransInfo Q) : Option (ErrorCode × TransInfo Q) := do
  let recvXid ← ccLookupXidEntry env.place tit.xidTable xid
  match recvXid with
  | none => return (.ccEErr,tit.freeBuffer .recvBuf)
  | some recvXid => do
    let (ret,xidTable) ← ccDeleteXidEntry env.place tit.xidTable recvXid
    return ccErrorReturn ret { tit with xidTable } rest

/-- The end of the handlers of messages for the applications. -/
def handOn (_ : Environment Q) (tit : TransInfo Q) : Access (Answer Q) := do
  let xid ← hostXid
  return some (passToApp { tit with xidLatest := xid+1 })

/-- The end of the handlers of replies, which look for `key` of the xid. -/
def answerReply (key : UInt32 → UInt32) (rest : Environment Q → TransInfo Q → ErrorCode × TransInfo Q)
    (env : Environment Q) (tit : TransInfo Q) : Access (Answer Q) := do
  let xid ← hostXid
  return matchReply env tit (key xid) (fun tit => rest env { tit with xidLatest := xid+1 })

def sendEchoRequest (xid : UInt32) (env : Environment Q) (tit : TransInfo Q) : ErrorCode × TransInfo Q :=
  sendToSwitch env .recvBuf tit (ccCreateEchoRequest env.createHeader env.allocated xid tit.recvBuf)

def passReplyOn (_ : Environment Q) (tit : TransInfo Q) : ErrorCode × TransInfo Q := passToApp tit

/-- The data pointer is taken for the buffer: the first eight message bytes for
the data pointer of that buffer, bytes 24 to 31 for its length. -/
def misreadBuffer (env : Environment Q) (recvBuf : Message) : Message where
  data := env.memoryAt (bytesToNat recvBuf.data 0 8)
  length := bytesToNat recvBuf.data 24 8
where
  bytesToNat (mem : Bytes) (o : ℕ) : ℕ → ℕ
    | 0 => 0
    | width+1 => (mem o).toNat+256*bytesToNat mem (o+1) width

/-- The result of the validator is not assigned. -/
def ccRecvHelloMsg : RecvHandler Q where
  recvData := misreadBuffer
  freed := .recvBufData
  validate := validateHello
  ret env _ := env.strayRet
  accepted env tit := do
    let xid ← hostXid
    let tit := { tit with xidLatest := xid+1 }
    return some (sendToSwitch env .recvBufData tit (ccCreateFeaturesRequest env.createHeader env.allocated tit.xidLatest))

/-- The flow that an error may be about is read through a pointer that is never set. -/
def ccRecvErrMsg : RecvHandler Q where
  before env := env.strayAccesses
  validate := validateError
  accepted _ tit := do
    let xid ← hostXid
    return some (.ccENone,{ tit with xidLatest := xid+1 }.freeBuffer .recvBuf)

/-- The reply is made with the xid as it stands in the message. -/
def ccRecvEchoRequest : RecvHandler Q where
  validate := validateEchoRequest
  accepted env tit := do
    let xid ← hostXid
    let tit := { tit with xidLatest := xid+1 }
    match ccCreateEchoReply env.createHeader env.allocated (htonl xid) tit.recvBuf with
    | none => return none
    | some sendBuf => return some (sendToSwitch env .recvBuf tit sendBuf)

/-- The new request is made with the pointer to the counter, not with the counter. -/
def ccRecvEchoReply : RecvHandler Q where
  validate := validateEchoReply
  accepted := answerReply id (fun env tit => sendEchoRequest env.xidLatestAddress env tit)

def ccRecvVendor : RecvHandler Q where
  validate := validateVendor
  accepted := handOn

/-- The xid is looked up in network order. -/
def ccRecvGetConfigReply : RecvHandler Q where
  validate := validateGetConfigReply
  accepted := answerReply htonl (fun env tit => sendEchoRequest tit.xidLatest env tit)

/-- The validator is that of flow modifications. -/
def ccRecvFlowRemoved : RecvHandler Q where
  validate := validateFlowMod
  accepted := handOn

def ccRecvBarrierReply : RecvHandler Q where
  validate := validateBarrierReply
  accepted := answerReply id passReplyOn

def ccRecvPacketIn : RecvHandler Q where
  validate := validatePacketIn
  accepted := handOn

def ccRecvPortStatus : RecvHandler Q where
  validate := validatePortStatus
  accepted := handOn

def ccRecvStatsReply : RecvHandler Q where
  validate := validateStatsReply
  accepted := answerReply id passReplyOn

/-- The members of `struct cc_recv_ops_s`. -/
inductive RecvOp
  | recvHello
  | recvError
  | recvEchoRequest
  | recvEchoReply
  | recvVendor
  | recvGetConfigReply
  | recvFlowRm
  | barrierReply
  | recvPacketIn
  | recvPortStatus
  | recvFlowStatsReply

/-- The last member is set to the handler of port status messages. -/
def ccRecvOps : RecvOp → RecvHandler Q
  | .recvHello => ccRecvHelloMsg
  | .recvError => ccRecvErrMsg
  | .recvEchoRequest => ccRecvEchoRequest
  | .recvEchoReply => ccRecvEchoReply
  | .recvVendor => ccRecvVendor
  | .recvGetConfigReply => ccRecvGetConfigReply
  | .recvFlowRm => ccRecvFlowRemoved
  | .barrierReply => ccRecvBarrierReply
  | .recvPacketIn => ccRecvPacketIn
  | .recvPortStatus => ccRecvPortStatus
  | .recvFlowStatsReply => ccRecvPortStatus

def ccOfpmsgHandleCase : OfpType → Option RecvOp
  | .ofptHello => some .recvHello
  | .ofptEchoRequest => some .recvEchoRequest
  | .ofptEchoReply => some .recvEchoReply
  | .ofptError => some .recvError
  | .ofptPacketIn => some .recvPacketIn
  | .ofptVendor => some .recvVendor
  | .ofptPortStatus => some .recvPortStatus
  | .ofptFlowRemoved => some .recvFlowRm
  | .ofptStatsReply => some .recvFlowStatsReply
  | .ofptGetConfigReply => some .recvGetConfigReply
  | _ => none

end OpenFlowController.Handler
