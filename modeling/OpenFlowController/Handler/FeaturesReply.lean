import OpenFlowController.Handler.Replies
import OpenFlowController.Memory.Blocks

/-! # The end of the handshake

A features reply should complete the handshake: it answers the request, fills in the
switch record and is followed by a configuration. The handler checks its message with
the validator of error messages, which refuses messages of any other type.
-/
namespace OpenFlowController.Handler
open Memory Access Check Protocol Queue Xid
variable {Q : Type}

/-- What the handler writes of the switch record. -/
structure EachSw where
  dpid : UInt64
  version : UInt8
  nBuffers : UInt32
  actions : UInt32
  capabilities : UInt32

structure FeaturesState (Q : Type) where
  tit : TransInfo Q
  swInfo : EachSw

def ccDefaultConfigFlags : ℕ := 0

def ccDefaultMissSendLen : ℕ := 128

/-- The fields are written through the new buffer, whether there is one or not. -/
def ccCreateSetConfig (header : CreateHeader) (allocated : Bool) (xid : UInt32) (flags missSendLen : ℕ) :
    Option Message := do
  let setConfig ← header allocated xid .ofptSetConfig 12
  return { setConfig with data := storeNet (storeNet setConfig.data 8 2 flags) 10 2 missSendLen }

/-- `ntohs` leaves the first two bytes of a field of four; `ntohl` of a byte has it in
the bits that the record has no room for. -/
def fillSwitch (mem : Bytes) : EachSw where
  dpid := UInt64.ofNat (netAt mem 8 8)
  version := (htonl (mem 0).toUInt32).toUInt8
  nBuffers := UInt32.ofNat (be16 mem 16)
  actions := UInt32.ofNat (be32 mem 28)
  capabilities := UInt32.ofNat (be32 mem 24)

/-- What stands behind the return. The number of ports is only compared for the log. -/
def completeHandshake (env : Environment Q) (xid : UInt32) (state : FeaturesState Q) :
    Option (ErrorCode × FeaturesState Q) := do
  let tit := { state.tit with xidLatest := xid+1 }
  let swInfo := fillSwitch tit.recvBuf.data
  let sendBuf ← ccCreateSetConfig env.createHeader env.allocated tit.xidLatest ccDefaultConfigFlags ccDefaultMissSendLen
  let (ret,sendQueue) := ccInsertToSendQueue env tit.sendQueue sendBuf
  let tit := { tit with sendQueue, toSend := tit.toSend++[sendBuf] }
  if ret.value < 0 then return (.ccEErr,⟨(tit.freeBuffer .sendBuf).freeBuffer .recvBuf,swInfo⟩)
  return (.ccENone,⟨tit,swInfo⟩)

/-- `CC_ERROR_RETURN` in this handler. -/
def featuresErrorReturn (ret : ErrorCode) (state : FeaturesState Q)
    (_rest : FeaturesState Q → Option (ErrorCode × FeaturesState Q)) : Option (ErrorCode × FeaturesState Q) :=
  match ret with
  | .ccEErr => some (.ccEErr,state)
  | .ccENone => some (.ccENone,state)

def FeaturesState.refused (state : FeaturesState Q) : FeaturesState Q :=
  { state with tit := state.tit.freeBuffer .recvBuf }

def ccRecvFeaturesReply (env : Environment Q) (fuel : ℕ) (state : FeaturesState Q) :
    Option (ErrorCode × FeaturesState Q) := do
  let recvData := state.tit.recvBuf
  let ret ← ((validateError recvData).run fuel recvData.data).1
  if ret.value < 0 then return (.ccEErr,state.refused)
  let xid := state.tit.replyXid
  match ← ccLookupXidEntry env.place state.tit.xidTable xid with
  | none => return (.ccEErr,state.refused)
  | some recvXid => do
    let (ret,xidTable) ← ccDeleteXidEntry env.place state.tit.xidTable recvXid
    featuresErrorReturn ret { state with tit := { state.tit with xidTable } } (completeHandshake env xid)

/-- The request is answered, the record filled in and one configuration on its way. -/
structure Completed (place : XidPointer → ℕ) (state state' : FeaturesState Q) (entry : ℕ) : Prop where
  removed : Removed place state'.tit.xidTable entry
  dpid : state'.swInfo.dpid.toNat = netAt state.tit.recvBuf.data 8 8
  nBuffers : state'.swInfo.nBuffers.toNat = be32 state.tit.recvBuf.data 16
  capabilities : state'.swInfo.capabilities.toNat = be32 state.tit.recvBuf.data 24
  actions : state'.swInfo.actions.toNat = be32 state.tit.recvBuf.data 28
  xidLatest : state'.tit.xidLatest = state.tit.replyXid+1
  sent : ∃ setConfig, state'.tit.toSend = state.tit.toSend++[setConfig] ∧
    (setConfig.data 1).toNat = OfpType.ofptSetConfig.value

def CompletesHandshake (env : Environment Q) (s : XidState) (state : FeaturesState Q) : Prop :=
  ∃ fuel state' entry, ccRecvFeaturesReply env fuel state = some (.ccENone,state') ∧
    (entry,state.tit.replyXid) ∈ s.live ∧ Completed env.place state state' entry

section Refuse
variable {env : Environment Q} {state state' : FeaturesState Q} {ret : ErrorCode} {fuel : ℕ} {code : ValidationCode}

theorem validateError_wrongType {message : Message} {type : OfpType} {minLength maxLength : ℕ}
    (h : HeaderAccepted message type minLength maxLength) (hne : type ≠ .ofptError) :
    Returns (validateError message) message.data .errorInvalidType := by
  have hlast : type.value ≤ OfpType.ofptQueueGetConfigReply.value := by cases type <;> decide
  have hvalue : type.value ≠ OfpType.ofptError.value := by cases type <;> first | decide | exact absurd rfl hne
  have hcomplete : ¬ message.length < 8 := Nat.not_lt.mpr h.complete
  have hheader : Returns (validateHeader message .ofptError 12 ushrtMax) message.data .errorInvalidType := by
    simp only [validateHeader,returns_bind,returns_ite,returns_byteAt,returns_ntohsAt,returns_pure,
      exists_eq_left',hcomplete,h.version,h.type,hvalue,Nat.not_lt.mpr hlast,if_false,if_true,ne_eq,
      not_true_eq_false,not_false_eq_true,gt_iff_lt]
  have hneg : ValidationCode.errorInvalidType.value < 0 := by decide
  rw [validateError,ensure,returns_bind]
  exact ⟨_,hheader,by simp [hneg]⟩

theorem ccRecvFeaturesReply_refused (hrun : ccRecvFeaturesReply env fuel state = some (ret,state'))
    (hcode : Returns (validateError state.tit.recvBuf) state.tit.recvBuf.data code) (hneg : code.value < 0) :
    ret = .ccEErr ∧ state' = state.refused := by
  simp only [ccRecvFeaturesReply,Option.bind_eq_bind,Option.bind_eq_some_iff] at hrun
  obtain ⟨code',hcode',hrun⟩ := hrun
  obtain rfl : code' = code := Returns.unique ⟨fuel,hcode'⟩ hcode
  rw [if_pos hneg] at hrun
  cases hrun
  exact ⟨rfl,rfl⟩

/-- A message that the handler refuses completes no handshake, whatever xids are live. -/
theorem not_completesHandshake (s : XidState)
    (hcode : Returns (validateError state.tit.recvBuf) state.tit.recvBuf.data code) (hneg : code.value < 0) :
    ¬ CompletesHandshake env s state := by
  rintro ⟨fuel,state',entry,hrun,-⟩
  cases (ccRecvFeaturesReply_refused hrun hcode hneg).1

/-- Every features reply is refused, and the handshake never completed. -/
theorem ccRecvFeaturesReply_never_completes (env : Environment Q) (s : XidState) (state : FeaturesState Q)
    (hvalid : Returns (validateFeaturesReply state.tit.recvBuf) state.tit.recvBuf.data .success) :
    (∃ fuel, ccRecvFeaturesReply env fuel state = some (.ccEErr,state.refused)) ∧
      ¬ CompletesHandshake env s state := by
  have hcode := validateError_wrongType (returns_validateFeaturesReply.mp hvalid).1 (by simp)
  have hneg : ValidationCode.errorInvalidType.value < 0 := by decide
  refine ⟨?_,not_completesHandshake s hcode hneg⟩
  obtain ⟨fuel,hfuel⟩ := hcode
  refine ⟨fuel,?_⟩
  simp only [ccRecvFeaturesReply,hfuel,Option.bind_eq_bind,Option.bind_some,hneg,if_true]
  rfl

end Refuse

/-- A features reply of a switch with one table and no ports; its xid is 1. -/
def featuresReply : Message := ⟨fun i => match i with | 0 => 1 | 1 => 6 | 3 => 32 | 7 => 1 | 20 => 1 | _ => 0,32⟩

def unknownSwitch : EachSw := ⟨0,0,0,0,0⟩

theorem ccRecvFeaturesReply_never_completes_fresh :
    Returns (validateFeaturesReply featuresReply) featuresReply.data .success ∧
    (∃ fuel, ccRecvFeaturesReply quietEnvironment fuel ⟨received featuresReply ccInitXidTable,unknownSwitch⟩ =
      some (.ccEErr,FeaturesState.refused ⟨received featuresReply ccInitXidTable,unknownSwitch⟩)) ∧
    ¬ CompletesHandshake quietEnvironment (initialState 0) ⟨received featuresReply ccInitXidTable,unknownSwitch⟩ :=
  have hvalid : Returns (validateFeaturesReply featuresReply) featuresReply.data .success := ⟨0,by decide⟩
  ⟨hvalid,ccRecvFeaturesReply_never_completes quietEnvironment (initialState 0)
    ⟨received featuresReply ccInitXidTable,unknownSwitch⟩ hvalid⟩

/-- After one insert the request with xid 1 is outstanding; its reply is refused. -/
theorem featuresReply_refused : ∃ s, (initialState 0).after quietEnvironment.place [.insert] = some s ∧
    Returns (validateFeaturesReply featuresReply) featuresReply.data .success ∧
    (received featuresReply s.table).replyXid ∈ s.xids ∧
    ¬ CompletesHandshake quietEnvironment s ⟨received featuresReply s.table,unknownSwitch⟩ := by
  obtain ⟨s,hs,hxids⟩ := exists_outstanding 0
  have hxid : UInt32.ofNat (be32 featuresReply.data 4) = nextXid 0 := by decide
  have hheader : HeaderAccepted featuresReply .ofptFeaturesReply 32 ushrtMax := by constructor <;> decide
  refine ⟨s,hs,⟨0,by decide⟩,hxids ▸ List.mem_singleton.mpr hxid,?_⟩
  exact not_completesHandshake _ (validateError_wrongType hheader (by simp)) (by decide)

end OpenFlowController.Handler
