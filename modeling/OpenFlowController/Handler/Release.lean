import OpenFlowController.Handler.Handlers
import OpenFlowController.Xid.XidRuns

/-! # Who frees the received buffer

Every way out of a handler frees the buffer it owns. The insert for the
applications frees it too and reports an error, on which the handler frees it
again.
-/
namespace OpenFlowController.Handler
open Memory Access Check Protocol Queue Xid
variable {Q : Type}

def TransInfo.releases (tit : TransInfo Q) : ℕ := tit.released.count .recvBuf

/-- Handlers that validate the received buffer itself and test the result. -/
structure RecvHandler.Plain (handler : RecvHandler Q) : Prop where
  recvData : handler.recvData = fun _ recvBuf => recvBuf
  freed : handler.freed = .recvBuf
  ret : handler.ret = fun _ code => code.value

def RecvOp.handsToApp : RecvOp → Prop
  | .recvVendor => True
  | .recvFlowRm => True
  | .recvPacketIn => True
  | .recvPortStatus => True
  | .recvFlowStatsReply => True
  | _ => False

section Parts
variable {env : Environment Q} {tit tit' : TransInfo Q} {ret : ErrorCode} {fuel : ℕ} {mem : Bytes}

@[simp] theorem releases_freeBuffer : (tit.freeBuffer .recvBuf).releases = tit.releases+1 := by
  simp [TransInfo.releases,TransInfo.freeBuffer]

@[simp] theorem releases_freeSendBuf : (tit.freeBuffer .sendBuf).releases = tit.releases := by
  simp [TransInfo.releases,TransInfo.freeBuffer]

@[simp] theorem releases_setXidLatest (xid : UInt32) :
    { tit with xidLatest := xid }.releases = tit.releases := rfl

@[simp] theorem returns_hostXid (xid : UInt32) : Returns hostXid mem xid ↔ UInt32.ofNat (be32 mem 4) = xid := by
  simp [hostXid]

theorem releases_sendToSwitch (sendBuf : Option Message) :
    (sendToSwitch env .recvBuf tit sendBuf).2.releases = tit.releases+1 := by
  cases sendBuf with
  | none => exact releases_freeBuffer
  | some sendBuf =>
    simp only [sendToSwitch]
    split
    · rw [releases_freeBuffer,releases_freeSendBuf]
      rfl
    · rw [releases_freeBuffer]
      rfl

/-- The insert always reports an error. -/
theorem passToApp_eq : passToApp tit =
    (.ccEErr,({ tit with toApp := tit.toApp++[tit.recvBuf] }.freeBuffer .recvBuf).freeBuffer .recvBuf) := rfl

theorem releases_passToApp : (passToApp tit).2.releases = tit.releases+2 := by
  rw [passToApp_eq,releases_freeBuffer,releases_freeBuffer]
  rfl

/-- The lookup answers NULL or not at all. -/
theorem ccLookupXidEntry_cases {place : XidPointer → ℕ} {table : XidTable} {xid : UInt32} {found : Option ℕ}
    (h : ccLookupXidEntry place table xid = some found) : found = none := by
  simp only [ccLookupXidEntry,Option.bind_eq_bind,Option.bind_eq_some_iff] at h
  obtain ⟨entry,-,h⟩ := h
  cases entry with
  | none => exact (Option.some.inj h).symm
  | some entry => exact (Option.some.inj h).symm

theorem matchReply_eq {xid : UInt32} {rest : TransInfo Q → ErrorCode × TransInfo Q}
    (h : matchReply env tit xid rest = some (ret,tit')) : ret = .ccEErr ∧ tit' = tit.freeBuffer .recvBuf := by
  simp only [matchReply,Option.bind_eq_bind,Option.bind_eq_some_iff] at h
  obtain ⟨found,hf,h⟩ := h
  obtain rfl := ccLookupXidEntry_cases hf
  cases h
  exact ⟨rfl,rfl⟩

theorem releases_handOn (h : Returns (handOn env tit) mem (some (ret,tit'))) : tit'.releases = tit.releases+2 := by
  simp only [handOn,returns_bind,returns_pure,Option.some.injEq] at h
  obtain ⟨xid,-,h⟩ := h
  have hr := @releases_passToApp _ { tit with xidLatest := xid+1 }
  rwa [h,releases_setXidLatest] at hr

theorem answerReply_eq {key : UInt32 → UInt32} {rest : Environment Q → TransInfo Q → ErrorCode × TransInfo Q}
    (h : Returns (answerReply key rest env tit) mem (some (ret,tit'))) :
    ret = .ccEErr ∧ tit' = tit.freeBuffer .recvBuf := by
  simp only [answerReply,returns_bind,returns_hostXid,exists_eq_left',returns_pure] at h
  exact matchReply_eq h

theorem releases_answerReply {key : UInt32 → UInt32}
    {rest : Environment Q → TransInfo Q → ErrorCode × TransInfo Q}
    (h : Returns (answerReply key rest env tit) mem (some (ret,tit'))) : tit'.releases = tit.releases+1 := by
  rw [(answerReply_eq h).2,releases_freeBuffer]

theorem RecvHandler.Plain.run_cases {handler : RecvHandler Q} (hp : handler.Plain)
    (h : handler.run env fuel tit = some (ret,tit')) :
    (∃ code, code ≠ .success ∧ handler.Validates env tit.recvBuf code ∧ tit' = tit.freeBuffer .recvBuf) ∨
      handler.Validates env tit.recvBuf .success ∧
        Returns (handler.accepted env tit) tit.recvBuf.data (some (ret,tit')) := by
  obtain ⟨hrecv,hfreed,hret⟩ := hp
  simp only [RecvHandler.run,hrecv,hfreed,hret] at h
  split at h
  · cases hcode : ((handler.validate tit.recvBuf).run fuel tit.recvBuf.data).1 with
    | none => simp [hcode] at h
    | some code =>
      have hvalidates : handler.Validates env tit.recvBuf code := by
        simp only [RecvHandler.Validates,hrecv]
        exact ⟨fuel,hcode⟩
      simp only [hcode,ValidationCode.value_neg_iff] at h
      by_cases hsuccess : code = .success
      · subst hsuccess
        right
        simp only [ne_eq,not_true_eq_false,if_false] at h
        exact ⟨hvalidates,fuel,Option.join_eq_some_iff.mp h⟩
      · left
        rw [if_pos hsuccess] at h
        cases h
        exact ⟨code,hsuccess,hvalidates,rfl⟩
  · cases h

theorem RecvHandler.Plain.run_accepted {handler : RecvHandler Q} (hp : handler.Plain)
    (hb : handler.before env = true) (hv : handler.Validates env tit.recvBuf .success)
    (ha : Returns (handler.accepted env tit) tit.recvBuf.data (some (ret,tit'))) :
    ∃ fuel, handler.run env fuel tit = some (ret,tit') := by
  obtain ⟨hrecv,hfreed,hret⟩ := hp
  simp only [RecvHandler.Validates,hrecv] at hv
  obtain ⟨j,hj⟩ := hv
  obtain ⟨k,hk⟩ := ha
  have hj' := (extends_of_le _ tit.recvBuf.data (Nat.le_max_left j k)).value hj
  have hk' := (extends_of_le _ tit.recvBuf.data (Nat.le_max_right j k)).value hk
  exact ⟨max j k,by simp [RecvHandler.run,hb,hrecv,hret,hj',hk']⟩

end Parts

theorem RecvOp.plain {op : RecvOp} (hop : op ≠ .recvHello) : (ccRecvOps op : RecvHandler Q).Plain := by
  cases op with
  | recvHello => exact absurd rfl hop
  | _ => exact ⟨rfl,rfl,rfl⟩

theorem releases_accepted {op : RecvOp} (hop : op ≠ .recvHello) {env : Environment Q} {tit tit' : TransInfo Q}
    {ret : ErrorCode} {mem : Bytes} (h : Returns ((ccRecvOps op).accepted env tit) mem (some (ret,tit'))) :
    (op.handsToApp → tit'.releases = tit.releases+2) ∧ (¬ op.handsToApp → tit'.releases = tit.releases+1) := by
  cases op with
  | recvHello => exact absurd rfl hop
  | recvError =>
    simp only [ccRecvOps,ccRecvErrMsg,returns_bind,returns_pure,Option.some.injEq,Prod.mk.injEq] at h
    obtain ⟨xid,-,-,rfl⟩ := h
    exact ⟨fun hf => hf.elim,fun _ => by rw [releases_freeBuffer,releases_setXidLatest]⟩
  | recvEchoRequest =>
    simp only [ccRecvOps,ccRecvEchoRequest,returns_bind] at h
    obtain ⟨xid,-,h⟩ := h
    refine ⟨fun hf => hf.elim,fun _ => ?_⟩
    split at h
    · simp at h
    · rename_i sendBuf _
      rw [returns_pure,Option.some.injEq] at h
      have hr := @releases_sendToSwitch _ env { tit with xidLatest := xid+1 } sendBuf
      rwa [h,releases_setXidLatest] at hr
  | recvEchoReply => exact ⟨fun hf => hf.elim,fun _ => releases_answerReply h⟩
  | recvVendor => exact ⟨fun _ => @releases_handOn _ env _ _ _ _ h,fun hn => (hn trivial).elim⟩
  | recvGetConfigReply =>
    simp only [ccRecvOps,ccRecvGetConfigReply] at h
    exact ⟨fun hf => hf.elim,fun _ => releases_answerReply h⟩
  | recvFlowRm => exact ⟨fun _ => @releases_handOn _ env _ _ _ _ h,fun hn => (hn trivial).elim⟩
  | barrierReply => exact ⟨fun hf => hf.elim,fun _ => releases_answerReply h⟩
  | recvPacketIn => exact ⟨fun _ => @releases_handOn _ env _ _ _ _ h,fun hn => (hn trivial).elim⟩
  | recvPortStatus => exact ⟨fun _ => @releases_handOn _ env _ _ _ _ h,fun hn => (hn trivial).elim⟩
  | recvFlowStatsReply => exact ⟨fun _ => @releases_handOn _ env _ _ _ _ h,fun hn => (hn trivial).elim⟩

/-- The messages whose buffer a handler frees exactly once: all but those it
accepts and hands to the applications. -/
theorem releasedOnce_iff {op : RecvOp} (hop : op ≠ .recvHello) {env : Environment Q} {fuel : ℕ}
    {tit tit' : TransInfo Q} {ret : ErrorCode} (h : (ccRecvOps op).run env fuel tit = some (ret,tit')) :
    tit'.releases = tit.releases+1 ↔
      ¬ (op.handsToApp ∧ (ccRecvOps op : RecvHandler Q).Validates env tit.recvBuf .success) := by
  have hp : (ccRecvOps op : RecvHandler Q).Plain := RecvOp.plain hop
  rcases hp.run_cases h with ⟨code,hne,hv,rfl⟩ | ⟨hv,haccepted⟩
  · apply iff_of_true releases_freeBuffer
    intro hn
    exact hne (hv.unique hn.2)
  · obtain ⟨htwice,honce⟩ := releases_accepted hop haccepted
    by_cases ho : op.handsToApp
    · apply iff_of_false
      · rw [htwice ho]
        omega
      · exact fun hn => hn ⟨ho,hv⟩
    · exact iff_of_true (honce ho) (fun hn => ho hn.1)

def packetIn : Message := ⟨fun i => match i with | 0 => 1 | 1 => 10 | 3 => 18 | 15 => 1 | _ => 0,18⟩

/-- Everything succeeds; the send queue is the list of its messages. -/
def quietEnvironment : Environment (List Message) where
  place := alignedPlace
  createHeader := ccCreateHeader
  allocated := true
  createMessageQueue := []
  enqueueMessage queue message := (.ccENone,queue++[message])
  memoryAt _ _ := 0
  xidLatestAddress := 0
  strayAccesses := true
  strayRet := 0

def received (recvBuf : Message) (xidTable : XidTable) : TransInfo (List Message) :=
  ⟨recvBuf,some [],0,xidTable,[],[],[]⟩

/-- Four bytes of payload. The xid is the same in both orders. -/
def payloadEcho : Message :=
  ⟨fun i => match i with | 0 => 1 | 1 => 2 | 3 => 12 | 4 => 5 | 7 => 5 | 8 => 10 | 9 => 11 | 10 => 12 | 11 => 13 | _ => 0,12⟩

/-- A message that its handler refuses, and one that is accepted and answered. -/
theorem releasedOnce_iff_errorThenEcho :
    (RecvOp.recvError ≠ .recvHello ∧ ∃ ret tit',
      (ccRecvOps .recvError).run quietEnvironment 0 (received packetIn ccInitXidTable) = some (ret,tit') ∧
      (tit'.releases = (received packetIn ccInitXidTable).releases+1 ↔
        ¬ (RecvOp.recvError.handsToApp ∧ (ccRecvOps .recvError).Validates quietEnvironment packetIn .success))) ∧
    RecvOp.recvEchoRequest ≠ .recvHello ∧ ∃ ret tit',
      (ccRecvOps .recvEchoRequest).run quietEnvironment 0 (received payloadEcho ccInitXidTable) = some (ret,tit') ∧
      (tit'.releases = (received payloadEcho ccInitXidTable).releases+1 ↔
        ¬ (RecvOp.recvEchoRequest.handsToApp ∧
          (ccRecvOps .recvEchoRequest).Validates quietEnvironment payloadEcho .success)) :=
  ⟨⟨by simp,_,_,rfl,@releasedOnce_iff _ .recvError (by simp) quietEnvironment 0 (received packetIn ccInitXidTable) _ _ rfl⟩,
    by simp,_,_,rfl,
    @releasedOnce_iff _ .recvEchoRequest (by simp) quietEnvironment 0 (received payloadEcho ccInitXidTable) _ _ rfl⟩

/-- The handler it is meant for frees it twice. -/
theorem packetIn_releasedTwice : ∃ tit',
    (ccRecvOps .recvPacketIn).run quietEnvironment 0 (received packetIn ccInitXidTable) = some (.ccEErr,tit') ∧
    tit'.releases = (received packetIn ccInitXidTable).releases+2 :=
  ⟨_,rfl,rfl⟩

end OpenFlowController.Handler
