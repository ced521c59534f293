import OpenFlowController.Handler.Release

/-! # The receive path against the validator of whole messages

Both pick a validator by the type byte, the receive path through a switch and a
table of handlers. They pick the same one except where a member of the table or
the call inside a handler names another.
-/
namespace OpenFlowController.Handler
open Memory Access Check Protocol
variable {Q : Type}

/-- Where the receive path picks another validator, nothing may be acceptable. -/
def NothingMissed (env : Environment Q) (message : Message) : OfpType → Prop
  | .ofptHello => ¬ HeaderAccepted (misreadBuffer env message) .ofptHello 8 8
  | .ofptFlowRemoved => ¬ FlowRemovedAccepted message
  | .ofptStatsReply => ¬ StatsReplyBodyAccepted message
  | _ => True

section WrongType
variable {message : Message}

theorem not_returns_validateHello (h : 12 ≤ message.length) :
    ¬ Returns (validateHello message) message.data .success := by
  intro hr
  have hmost := (returns_validateHeader.mp hr).most
  omega

theorem not_returns_afterHeader {type other : OfpType} {minLength maxLength : ℕ} {rest : Access ValidationCode}
    (ht : (message.data 1).toNat = other.value) (hne : other.value ≠ type.value) :
    ¬ Returns (ensure (validateHeader message type minLength maxLength) rest) message.data .success := by
  intro hr
  have htype := (returns_validateHeader.mp ((returns_ensure_success _ _).mp hr).1).type
  exact hne (ht.symm.trans htype)

end WrongType

/-- For the other types the handler runs the validator of its type on the message. -/
theorem validates_iff (env : Environment Q) {message : Message} {type : OfpType}
    (ht : OfpType.ofValue (message.data 1).toNat = some type) {op : RecvOp}
    (hop : ccOfpmsgHandleCase type = some op) (hhello : type ≠ .ofptHello)
    (hremoved : type ≠ .ofptFlowRemoved) (hstats : type ≠ .ofptStatsReply) :
    (ccRecvOps op : RecvHandler Q).Validates env message .success ↔
      Returns (validateOpenflowMessage message) message.data .success := by
  simp only [validateOpenflowMessage,returns_bind,returns_byteAt,exists_eq_left',ht]
  cases type with
  | ofptHello => exact absurd rfl hhello
  | ofptFlowRemoved => exact absurd rfl hremoved
  | ofptStatsReply => exact absurd rfl hstats
  | ofptError | ofptEchoRequest | ofptEchoReply | ofptVendor | ofptGetConfigReply | ofptPacketIn | ofptPortStatus =>
    -- the handler is given the buffer itself and names the validator of its type
    simp only [ccOfpmsgHandleCase,Option.some.injEq] at hop
    subst hop
    rfl
  | _ => cases hop

/-- The handler's validator and the whole-message validator accept the same
messages, except where the handler runs another one and there is something to accept. -/
theorem ccRecvOps_agree_iff (env : Environment Q) {message : Message} (h12 : 12 ≤ message.length)
    {type : OfpType} (ht : OfpType.ofValue (message.data 1).toNat = some type) {op : RecvOp}
    (hop : ccOfpmsgHandleCase type = some op) :
    ((ccRecvOps op : RecvHandler Q).Validates env message .success ↔
      Returns (validateOpenflowMessage message) message.data .success) ↔ NothingMissed env message type := by
  have hvalue : (message.data 1).toNat = type.value := ((OfpType.ofValue_eq_some_iff _ _).mp ht).symm
  cases type with
  | ofptHello =>
    simp only [ccOfpmsgHandleCase,Option.some.injEq] at hop
    subst hop
    have hreject := not_returns_validateHello h12
    have hmisread : (ccRecvOps .recvHello : RecvHandler Q).Validates env message .success ↔
        HeaderAccepted (misreadBuffer env message) .ofptHello 8 8 := by
      simp only [RecvHandler.Validates,ccRecvOps,ccRecvHelloMsg,validateHello,returns_validateHeader]
    simp only [validateOpenflowMessage,returns_bind,returns_byteAt,exists_eq_left',ht,hmisread,hreject,
      NothingMissed,iff_false]
  | ofptFlowRemoved =>
    simp only [ccOfpmsgHandleCase,Option.some.injEq] at hop
    subst hop
    have hreject : ¬ (ccRecvOps .recvFlowRm : RecvHandler Q).Validates env message .success :=
      not_returns_afterHeader hvalue (by decide)
    simp only [validateOpenflowMessage,returns_bind,returns_byteAt,exists_eq_left',ht,hreject,
      returns_validateFlowRemoved,NothingMissed,false_iff]
  | ofptStatsReply =>
    simp only [ccOfpmsgHandleCase,Option.some.injEq] at hop
    subst hop
    have hreject : ¬ (ccRecvOps .recvFlowStatsReply : RecvHandler Q).Validates env message .success :=
      not_returns_afterHeader hvalue (by decide)
    simp only [validateOpenflowMessage,returns_bind,returns_byteAt,exists_eq_left',ht,hreject,
      returns_validateStatsReply,NothingMissed,false_iff]
  | _ => exact iff_of_true (validates_iff env ht hop (by simp) (by simp) (by simp)) trivial

theorem ccRecvOps_agree_iff_packetIn : 12 ≤ packetIn.length ∧
    OfpType.ofValue (packetIn.data 1).toNat = some .ofptPacketIn ∧
    ccOfpmsgHandleCase .ofptPacketIn = some .recvPacketIn ∧
    (((ccRecvOps .recvPacketIn).Validates quietEnvironment packetIn .success ↔
      Returns (validateOpenflowMessage packetIn) packetIn.data .success) ↔
        NothingMissed quietEnvironment packetIn .ofptPacketIn) :=
  ⟨by decide,by decide,rfl,ccRecvOps_agree_iff quietEnvironment (by decide) (by decide) rfl⟩

def flowRemoved : Message :=
  ⟨fun i => match i with | 0 => 1 | 1 => 11 | 3 => 88 | 9 => 63 | 10 => 255 | 11 => 255 | _ => 0,88⟩

/-- It is valid, and its handler runs the validator of flow modifications on it. -/
theorem flowRemoved_refused : 12 ≤ flowRemoved.length ∧
    ccOfpmsgHandleCase .ofptFlowRemoved = some .recvFlowRm ∧
    Returns (validateOpenflowMessage flowRemoved) flowRemoved.data .success ∧
    (ccRecvOps .recvFlowRm).Validates quietEnvironment flowRemoved .errorInvalidType ∧
    ¬ ((ccRecvOps .recvFlowRm).Validates quietEnvironment flowRemoved .success ↔
      Returns (validateOpenflowMessage flowRemoved) flowRemoved.data .success) := by
  have haccepted : Returns (validateOpenflowMessage flowRemoved) flowRemoved.data .success := ⟨0,rfl⟩
  have hrefused : (ccRecvOps .recvFlowRm).Validates quietEnvironment flowRemoved .errorInvalidType := ⟨0,rfl⟩
  refine ⟨by decide,rfl,haccepted,hrefused,fun hiff => ?_⟩
  have hboth := hrefused.unique (hiff.mpr haccepted)
  cases hboth

end OpenFlowController.Handler
