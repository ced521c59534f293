import OpenFlowController.Create.Builders
import OpenFlowController.Handler.Release

/-! # Echo replies

A reply to an echo request should bring back the xid and the payload of the request.
The handler passes the xid on in the order it has in the message, where the builder
takes it for a number of the host, and the whole request as the payload.
-/
namespace OpenFlowController.Handler
open Memory Access Check Protocol Queue Xid Create
variable {Q : Type}

/-- A reply with the xid of the request and its bytes behind the header. -/
structure Mirrored (request reply : Message) : Prop where
  accepted : Returns (validateEchoReply reply) reply.data .success
  xid : be32 reply.data 4 = be32 request.data 4
  length : reply.length = request.length
  payload : ∀ i, 8 ≤ i → i < request.length → reply.data i = request.data i

/-- The handler puts one message on the send queue, and it mirrors the request. -/
def MirrorsRequest (env : Environment Q) (tit : TransInfo Q) : Prop :=
  ∃ fuel ret tit' reply, ccRecvEchoRequest.run env fuel tit = some (ret,tit') ∧
    tit'.toSend = tit.toSend++[reply] ∧ Mirrored tit.recvBuf reply

/-- What the handler sends: the bytes of the xid the other way round, and the request
once more behind the header. -/
structure Enclosed (request reply : Message) : Prop where
  xid : be32 reply.data 4 = (htonl (UInt32.ofNat (be32 request.data 4))).toNat
  length : reply.length = (8+request.length)%65536
  payload : ∀ i < request.length, reply.data (8+i) = request.data i

section Rules
variable {env : Environment Q} {tit tit' : TransInfo Q} {ret : ErrorCode} {fuel : ℕ} {header : CreateHeader} {allocated : Bool} {xid : UInt32}

theorem ccCreateEchoReply_encloses (hh : HeaderContract header) {buf reply : Message}
    (h : ccCreateEchoReply header allocated xid buf = some (some reply)) :
    be32 reply.data 4 = xid.toNat ∧ reply.length = (8+buf.length%65536)%65536 ∧
      ∀ i < buf.length%65536, reply.data (8+i) = buf.data i := by
  simp only [ccCreateEchoReply] at h
  split at h
  · split at h <;> cases h
  · rename_i buffer hheader
    have hfresh := hh.fresh (Nat.mod_lt _ (by decide)) hheader
    obtain rfl := Option.some.inj (Option.some.inj h)
    refine ⟨?_,hfresh.size,fun i hi => ?_⟩
    · rw [← hfresh.xid]
      rfl
    · simp only [copyBody]
      rw [if_pos (by omega),Nat.add_sub_cancel_left]

theorem headerAccepted_of_echoRequest {message : Message}
    (h : Returns (validateEchoRequest message) message.data .success) :
    HeaderAccepted message .ofptEchoRequest 8 ushrtMax := by
  rw [validateEchoRequest,validateWithLength,returns_ensure_success,returns_validateHeader] at h
  exact h.1

/-- Where the builder comes back for an accepted request, there is a reply: one that was not
made would have no payload. -/
theorem ccCreateEchoReply_made (hh : HeaderContract header) {buf : Message} {sendBuf : Option Message}
    (hvalid : Returns (validateEchoRequest buf) buf.data .success)
    (h : ccCreateEchoReply header allocated (htonl (UInt32.ofNat (be32 buf.data 4))) buf = some sendBuf) :
    ∃ reply, sendBuf = some reply ∧ Enclosed buf reply := by
  have hheader := headerAccepted_of_echoRequest hvalid
  have h8 := hheader.complete
  have hmost : buf.length ≤ 65535 := hheader.most
  have hlength : buf.length%65536 = buf.length := Nat.mod_eq_of_lt (by omega)
  cases sendBuf with
  | none =>
    simp only [ccCreateEchoReply] at h
    split at h
    · rw [hlength,if_pos (by omega)] at h
      cases h
    · cases h
  | some reply =>
    obtain ⟨hxid,hlen,hpayload⟩ := ccCreateEchoReply_encloses hh h
    rw [hlength] at hlen hpayload
    exact ⟨reply,rfl,hxid,hlen,hpayload⟩

/-- A run of the handler on an accepted request has a reply to send. -/
theorem ccRecvEchoRequest_replies (hh : HeaderContract env.createHeader)
    (hvalid : Returns (validateEchoRequest tit.recvBuf) tit.recvBuf.data .success)
    (hrun : ccRecvEchoRequest.run env fuel tit = some (ret,tit')) :
    ∃ reply, ccCreateEchoReply env.createHeader env.allocated (htonl (UInt32.ofNat (be32 tit.recvBuf.data 4)))
        tit.recvBuf = some (some reply) ∧ Enclosed tit.recvBuf reply ∧
      sendToSwitch env .recvBuf { tit with xidLatest := UInt32.ofNat (be32 tit.recvBuf.data 4)+1 } (some reply) =
        (ret,tit') := by
  have hplain : (ccRecvEchoRequest : RecvHandler Q).Plain := ⟨rfl,rfl,rfl⟩
  rcases hplain.run_cases hrun with ⟨code,hne,hcode,-⟩ | ⟨-,haccepted⟩
  · exact absurd (hcode.unique hvalid) hne
  simp only [ccRecvEchoRequest,returns_bind,returns_hostXid,exists_eq_left'] at haccepted
  cases hmade : ccCreateEchoReply env.createHeader env.allocated (htonl (UInt32.ofNat (be32 tit.recvBuf.data 4)))
      tit.recvBuf with
  | none => simp [hmade] at haccepted
  | some sendBuf =>
    obtain ⟨reply,rfl,henclosed⟩ := ccCreateEchoReply_made hh hvalid hmade
    simp only [hmade,returns_pure,Option.some.injEq] at haccepted
    exact ⟨reply,rfl,henclosed,haccepted⟩

theorem ccRecvEchoRequest_sends (hh : HeaderContract env.createHeader)
    (hvalid : Returns (validateEchoRequest tit.recvBuf) tit.recvBuf.data .success)
    (hrun : ccRecvEchoRequest.run env fuel tit = some (ret,tit')) :
    ∃ reply, tit'.toSend = tit.toSend++[reply] ∧ Enclosed tit.recvBuf reply := by
  obtain ⟨reply,-,henclosed,hsent⟩ := ccRecvEchoRequest_replies hh hvalid hrun
  refine ⟨reply,?_,henclosed⟩
  simp only [sendToSwitch] at hsent
  split at hsent
  · cases hsent
    rfl
  · cases hsent
    rfl

/-- The reply is 8 bytes too long for any request. -/
theorem Enclosed.not_mirrored {request reply : Message} (h : Enclosed request reply) :
    ¬ Mirrored request reply := by
  intro hm
  have hlen := h.length.symm.trans hm.length
  omega

/-- The one message that could mirror the request is the one that encloses it. -/
theorem MirrorsRequest.enclosed (h : MirrorsRequest env tit) (hh : HeaderContract env.createHeader)
    (hvalid : Returns (validateEchoRequest tit.recvBuf) tit.recvBuf.data .success) :
    ∃ reply, Enclosed tit.recvBuf reply ∧ Mirrored tit.recvBuf reply := by
  obtain ⟨fuel,ret,tit',reply,hrun,hsent,hmirrored⟩ := h
  obtain ⟨sent,hsent',henclosed⟩ := ccRecvEchoRequest_sends hh hvalid hrun
  obtain rfl : reply = sent := by simpa using hsent.symm.trans hsent'
  exact ⟨reply,henclosed,hmirrored⟩

/-- With a header at its contract no request is mirrored, whatever its xid and its payload. -/
theorem ccRecvEchoRequest_never_mirrors (env : Environment Q) (hh : HeaderContract env.createHeader) (tit : TransInfo Q)
    (hvalid : Returns (validateEchoRequest tit.recvBuf) tit.recvBuf.data .success) : ¬ MirrorsRequest env tit := by
  intro h
  obtain ⟨reply,henclosed,hmirrored⟩ := h.enclosed hh hvalid
  exact henclosed.not_mirrored hmirrored

end Rules

/-- An echo request without a payload; its xid is 1. -/
def emptyEcho : Message := ⟨fun i => match i with | 0 => 1 | 1 => 2 | 3 => 8 | 7 => 1 | _ => 0,8⟩

theorem ccRecvEchoRequest_never_mirrors_payloadEcho :
    Returns (validateEchoRequest payloadEcho) payloadEcho.data .success ∧
      ¬ MirrorsRequest quietEnvironment (received payloadEcho ccInitXidTable) :=
  have hvalid : Returns (validateEchoRequest payloadEcho) payloadEcho.data .success := ⟨0,by decide⟩
  ⟨hvalid,ccRecvEchoRequest_never_mirrors quietEnvironment ccCreateHeader_contract
    (received payloadEcho ccInitXidTable) hvalid⟩

/-- It is answered with 8 bytes of payload and the xid 2^24. -/
theorem emptyEcho_enclosed : ∃ ret tit' reply,
    ccRecvEchoRequest.run quietEnvironment 0 (received emptyEcho ccInitXidTable) = some (ret,tit') ∧
      tit'.toSend = [reply] ∧ reply.length = 16 ∧ be32 emptyEcho.data 4 = 1 ∧ be32 reply.data 4 = 0x1000000 ∧
      ¬ MirrorsRequest quietEnvironment (received emptyEcho ccInitXidTable) := by
  refine ⟨.ccENone,_,_,rfl,rfl,rfl,by decide,by decide,?_⟩
  intro h
  obtain ⟨reply,henclosed,hmirrored⟩ := h.enclosed ccCreateHeader_contract ⟨0,by decide⟩
  exact henclosed.not_mirrored hmirrored

end OpenFlowController.Handler
