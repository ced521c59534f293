import OpenFlowController.Check.Nesting
import OpenFlowController.Check.OpenFlowMessage

/-! # What a message has to be to be accepted

For every type, and for every body of a statistics message, the conditions on the
bytes under which its validator answers with success. They are exact: the dispatcher
accepts a message if and only if it meets the conditions of its type.
-/
namespace OpenFlowController.Check
open Memory Access Protocol

/-- The handling of fragments is all that is checked of a configuration. -/
def SwitchConfigAccepted (message : Message) (type : OfpType) : Prop :=
  HeaderAccepted message type 12 12 ∧ be16 message.data 8 ≤ ofpcFragMask

structure PacketInAccepted (message : Message) : Prop where
  header : HeaderAccepted message .ofptPacketIn 18 ushrtMax
  inPort : validatePhyPortNo (be16 message.data 14) = .success
  reason : (message.data 16).toNat ≤ ofprAction

structure PortStatusAccepted (message : Message) : Prop where
  header : HeaderAccepted message .ofptPortStatus 64 64
  reason : (message.data 8).toNat ≤ ofpprModify
  desc : PhyPortAccepted message.data 16

structure StatsRequestAccepted (message : Message) (type : OfpStatsTypes) (minLength maxLength : ℕ) : Prop where
  header : HeaderAccepted message .ofptStatsRequest minLength maxLength
  type : be16 message.data 8 = type.value
  flags : be16 message.data 10 = 0

structure MatchRequestAccepted (message : Message) (type : OfpStatsTypes) : Prop where
  request : StatsRequestAccepted message type 56 56
  matched : validateMatch (matchAt message.data 12) = .success
  outPort : validatePhyPortNo (be16 message.data 54) = .success

structure PortRequestAccepted (message : Message) : Prop where
  request : StatsRequestAccepted message .ofpstPort 20 20
  portNo : validatePhyPortNo (be16 message.data 12) = .success
  known : be16 message.data 12 ≤ ofppMax ∨ be16 message.data 12 = ofppNone ∨ be16 message.data 12 = ofppLocal

structure QueueRequestAccepted (message : Message) : Prop where
  request : StatsRequestAccepted message .ofpstQueue 20 20
  portNo : validatePhyPortNo (be16 message.data 12) = .success

def StatsRequestTypeAccepted (message : Message) : OfpStatsTypes → Prop
  | .ofpstDesc => StatsRequestAccepted message .ofpstDesc 12 12
  | .ofpstFlow => MatchRequestAccepted message .ofpstFlow
  | .ofpstAggregate => MatchRequestAccepted message .ofpstAggregate
  | .ofpstTable => StatsRequestAccepted message .ofpstTable 12 12
  | .ofpstPort => PortRequestAccepted message
  | .ofpstQueue => QueueRequestAccepted message
  | .ofpstVendor => StatsRequestAccepted message .ofpstVendor 16 ushrtMax

def StatsRequestBodyAccepted (message : Message) : Prop :=
  ∃ type, OfpStatsTypes.ofValue (be16 message.data 8) = some type ∧ StatsRequestTypeAccepted message type

def TypeAccepted (message : Message) : OfpType → Prop
  | .ofptHello => HeaderAccepted message .ofptHello 8 8
  | .ofptError => HeaderAccepted message .ofptError 12 ushrtMax
  | .ofptEchoRequest => HeaderAccepted message .ofptEchoRequest 8 ushrtMax
  | .ofptEchoReply => HeaderAccepted message .ofptEchoReply 8 ushrtMax
  | .ofptVendor => HeaderAccepted message .ofptVendor 12 ushrtMax
  | .ofptFeaturesRequest => HeaderAccepted message .ofptFeaturesRequest 8 8
  | .ofptFeaturesReply => HeaderAccepted message .ofptFeaturesReply 32 ushrtMax ∧ FeaturesBodyAccepted message
  | .ofptGetConfigRequest => HeaderAccepted message .ofptGetConfigRequest 8 8
  | .ofptGetConfigReply => SwitchConfigAccepted message .ofptGetConfigReply
  | .ofptSetConfig => SwitchConfigAccepted message .ofptSetConfig
  | .ofptPacketIn => PacketInAccepted message
  | .ofptFlowRemoved => FlowRemovedAccepted message
  | .ofptPortStatus => PortStatusAccepted message
  | .ofptPacketOut => HeaderAccepted message .ofptPacketOut 16 ushrtMax ∧
    validatePhyPortNo (be16 message.data 12) = .success ∧ ActionsAccepted message.data 16 (be16 message.data 14)
  | .ofptFlowMod => HeaderAccepted message .ofptFlowMod 72 ushrtMax ∧
    FlowModFieldsAccepted message.data ∧ ActionsAccepted message.data 72 (message.length-72)
  | .ofptPortMod => PortModAccepted message
  | .ofptStatsRequest => StatsRequestBodyAccepted message
  | .ofptStatsReply => StatsReplyBodyAccepted message
  | .ofptBarrierRequest => HeaderAccepted message .ofptBarrierRequest 8 8
  | .ofptBarrierReply => HeaderAccepted message .ofptBarrierReply 8 8
  | .ofptQueueGetConfigRequest => HeaderAccepted message .ofptQueueGetConfigRequest 12 12 ∧
    validatePhyPortNo (be16 message.data 8) = .success
  | .ofptQueueGetConfigReply => QueueConfigAccepted message

/-- A type outside the enumeration is accepted by nobody. -/
def MessageAccepted (message : Message) : Prop :=
  ∃ type, OfpType.ofValue (message.data 1).toNat = some type ∧ TypeAccepted message type

section Rules
variable {message : Message}

theorem returns_validateWithLength (type : OfpType) (minLength : ℕ) :
    Returns (validateWithLength message type minLength) message.data .success ↔
      HeaderAccepted message type minLength ushrtMax := by
  rw [validateWithLength,returns_ensure_success,returns_validateHeader,and_iff_left_iff_imp]
  intro h
  simp [h.length]

theorem returns_validateSwitchConfig (type : OfpType) :
    Returns (validateSwitchConfig message type) message.data .success ↔ SwitchConfigAccepted message type := by
  rw [validateSwitchConfig,returns_ensure_success,returns_validateHeader,SwitchConfigAccepted]
  simp

theorem returns_validatePacketIn :
    Returns (validatePacketIn message) message.data .success ↔ PacketInAccepted message := by
  simp only [validatePacketIn,returns_ensure_success,returns_validateHeader]
  constructor
  · intro h
    obtain ⟨hheader,hport,hreason⟩ := h
    exact ⟨hheader,by simpa using hport,by simpa using hreason⟩
  · intro h
    exact ⟨h.header,by simpa using h.inPort,by simpa using h.reason⟩

theorem returns_validatePortStatus :
    Returns (validatePortStatus message) message.data .success ↔ PortStatusAccepted message := by
  simp only [validatePortStatus,returns_ensure_success,returns_validateHeader]
  constructor
  · intro h
    obtain ⟨hheader,hrest⟩ := h
    simp [returns_validatePhyPort] at hrest
    exact ⟨hheader,hrest.1,hrest.2⟩
  · intro h
    refine ⟨h.header,?_⟩
    simp [returns_validatePhyPort]
    exact ⟨h.reason,h.desc⟩

theorem returns_checkStatsRequest (type : OfpStatsTypes) (minLength maxLength : ℕ) :
    Returns (checkStatsRequest message type minLength maxLength) message.data .success ↔
      StatsRequestAccepted message type minLength maxLength := by
  simp only [checkStatsRequest,returns_ensure_success,returns_validateHeader]
  constructor
  · intro h
    obtain ⟨hheader,hrest⟩ := h
    simp at hrest
    exact ⟨hheader,hrest.1,hrest.2⟩
  · intro h
    refine ⟨h.header,?_⟩
    simp
    exact ⟨h.type,h.flags⟩

theorem returns_validateMatchStatsRequest (type : OfpStatsTypes) :
    Returns (validateMatchStatsRequest message type) message.data .success ↔ MatchRequestAccepted message type := by
  simp only [validateMatchStatsRequest,returns_ensure_success,returns_checkStatsRequest]
  constructor
  · intro h
    obtain ⟨hrequest,hrest⟩ := h
    simp at hrest
    exact ⟨hrequest,hrest.1,hrest.2⟩
  · intro h
    refine ⟨h.request,?_⟩
    simp
    exact ⟨h.matched,h.outPort⟩

theorem returns_validatePortStatsRequest :
    Returns (validatePortStatsRequest message) message.data .success ↔ PortRequestAccepted message := by
  simp only [validatePortStatsRequest,returns_ensure_success,returns_checkStatsRequest]
  constructor
  · intro h
    obtain ⟨hrequest,hrest⟩ := h
    simp at hrest
    exact ⟨hrequest,hrest.1,by omega⟩
  · intro h
    refine ⟨h.request,?_⟩
    have hknown := h.known
    simp
    exact ⟨h.portNo,by omega⟩

theorem returns_validateQueueStatsRequest :
    Returns (validateQueueStatsRequest message) message.data .success ↔ QueueRequestAccepted message := by
  simp only [validateQueueStatsRequest,returns_ensure_success,returns_checkStatsRequest]
  constructor
  · intro h
    obtain ⟨hrequest,hrest⟩ := h
    exact ⟨hrequest,by simpa using hrest⟩
  · intro h
    exact ⟨h.request,by simpa using h.portNo⟩

theorem returns_validateStatsRequest :
    Returns (validateStatsRequest message) message.data .success ↔ StatsRequestBodyAccepted message := by
  simp only [validateStatsRequest,StatsRequestBodyAccepted,returns_bind,returns_ntohsAt,exists_eq_left']
  cases OfpStatsTypes.ofValue (be16 message.data 8) with
  | none => simp
  | some type =>
    simp only [Option.some.injEq,exists_eq_left']
    cases type with
    | ofpstDesc => exact returns_checkStatsRequest ..
    | ofpstFlow => exact returns_validateMatchStatsRequest ..
    | ofpstAggregate => exact returns_validateMatchStatsRequest ..
    | ofpstTable => exact returns_checkStatsRequest ..
    | ofpstPort => exact returns_validatePortStatsRequest
    | ofpstQueue => exact returns_validateQueueStatsRequest
    | ofpstVendor => exact returns_checkStatsRequest ..

theorem returns_validateError :
    Returns (validateError message) message.data .success ↔ HeaderAccepted message .ofptError 12 ushrtMax := by
  rw [validateError,returns_ensure_success,returns_validateHeader,and_iff_left_iff_imp]
  simp

theorem returns_validateQueueGetConfigRequest :
    Returns (validateQueueGetConfigRequest message) message.data .success ↔
      HeaderAccepted message .ofptQueueGetConfigRequest 12 12 ∧ validatePhyPortNo (be16 message.data 8) = .success := by
  rw [validateQueueGetConfigRequest,returns_ensure_success,returns_validateHeader]
  simp

/-- The dispatcher accepts exactly the messages that are what their type asks for. -/
theorem returns_validateOpenflowMessage :
    Returns (validateOpenflowMessage message) message.data .success ↔ MessageAccepted message := by
  simp only [validateOpenflowMessage,MessageAccepted,returns_bind,returns_byteAt,exists_eq_left']
  cases OfpType.ofValue (message.data 1).toNat with
  | none => simp
  | some type =>
    simp only [Option.some.injEq,exists_eq_left']
    cases type with
    | ofptHello => exact returns_validateHeader
    | ofptError => exact returns_validateError
    | ofptEchoRequest => exact returns_validateWithLength ..
    | ofptEchoReply => exact returns_validateWithLength ..
    | ofptVendor => exact returns_validateWithLength ..
    | ofptFeaturesRequest => exact returns_validateHeader
    | ofptFeaturesReply => exact returns_validateFeaturesReply
    | ofptGetConfigRequest => exact returns_validateHeader
    | ofptGetConfigReply => exact returns_validateSwitchConfig _
    | ofptSetConfig => exact returns_validateSwitchConfig _
    | ofptPacketIn => exact returns_validatePacketIn
    | ofptFlowRemoved => exact returns_validateFlowRemoved
    | ofptPortStatus => exact returns_validatePortStatus
    | ofptPacketOut => exact returns_validatePacketOut
    | ofptFlowMod => exact returns_validateFlowMod
    | ofptPortMod => exact returns_validatePortMod
    | ofptStatsRequest => exact returns_validateStatsRequest
    | ofptStatsReply => exact returns_validateStatsReply
    | ofptBarrierRequest => exact returns_validateHeader
    | ofptBarrierReply => exact returns_validateHeader
    | ofptQueueGetConfigRequest => exact returns_validateQueueGetConfigRequest
    | ofptQueueGetConfigReply => exact returns_validateQueueGetConfigReply_iff

/-- The type that a message says it has is the one whose conditions count. -/
theorem messageAccepted_iff {type : OfpType} (h : (message.data 1).toNat = type.value) :
    MessageAccepted message ↔ TypeAccepted message type := by
  rw [MessageAccepted,h,OfpType.ofValue_value]
  simp

theorem statsRequestBodyAccepted_iff {type : OfpStatsTypes} (h : be16 message.data 8 = type.value) :
    StatsRequestBodyAccepted message ↔ StatsRequestTypeAccepted message type := by
  rw [StatsRequestBodyAccepted,h,OfpStatsTypes.ofValue_value]
  simp

end Rules
end OpenFlowController.Check
