import OpenFlowController.Check.Queues
import OpenFlowController.Check.Statistics

/-! # Validation of a whole message

The dispatcher switches on the type byte alone. What it reads is bounded by the
message for most types; for the types with nested lengths the exact condition is
stated in terms of the items the walkers come to.
-/
namespace OpenFlowController.Check
open Memory Access Protocol

def validateOpenflowMessage (message : Message) : Access ValidationCode := do
  match OfpType.ofValue (← byteAt 1) with
  | some .ofptHello => validateHello message
  | some .ofptError => validateError message
  | some .ofptEchoRequest => validateEchoRequest message
  | some .ofptEchoReply => validateEchoReply message
  | some .ofptVendor => validateVendor message
  | some .ofptFeaturesRequest => validateFeaturesRequest message
  | some .ofptFeaturesReply => validateFeaturesReply message
  | some .ofptGetConfigRequest => validateGetConfigRequest message
  | some .ofptGetConfigReply => validateGetConfigReply message
  | some .ofptSetConfig => validateSetConfig message
  | some .ofptPacketIn => validatePacketIn message
  | some .ofptFlowRemoved => validateFlowRemoved message
  | some .ofptPortStatus => validatePortStatus message
  | some .ofptPacketOut => validatePacketOut message
  | some .ofptFlowMod => validateFlowMod message
  | some .ofptPortMod => validatePortMod message
  | some .ofptStatsRequest => validateStatsRequest message
  | some .ofptStatsReply => validateStatsReply message
  | some .ofptBarrierRequest => validateBarrierRequest message
  | some .ofptBarrierReply => validateBarrierReply message
  | some .ofptQueueGetConfigRequest => validateQueueGetConfigRequest message
  | some .ofptQueueGetConfigReply => validateQueueGetConfigReply message
  | none => return .errorUndefinedType

def StaysInside (message : Message) : Prop :=
  match OfpType.ofValue (message.data 1).toNat with
  | some .ofptPacketOut => PacketOutInside message
  | some .ofptFlowMod => FlowModInside message
  | some .ofptStatsRequest => 10 ≤ message.length
  | some .ofptStatsReply => 10 ≤ message.length ∧
    (be16 message.data 8 = OfpStatsTypes.ofpstFlow.value → FlowStatsReplyInside message)
  | some .ofptQueueGetConfigReply => QueueConfigInside message
  | _ => True

section Rules
variable {message : Message}

theorem within_validateStatsReply : Within message.length (validateStatsReply message) message.data ↔
    10 ≤ message.length ∧
      (be16 message.data 8 = OfpStatsTypes.ofpstFlow.value → FlowStatsReplyInside message) := by
  simp only [validateStatsReply,within_bind,within_ntohsAt,returns_ntohsAt,forall_eq']
  refine and_congr_right (fun _ => ?_)
  cases h : OfpStatsTypes.ofValue (be16 message.data 8) with
  | none =>
    refine iff_of_true (within_pure _) (fun hf => ?_)
    rw [hf,OfpStatsTypes.ofValue_value] at h
    cases h
  | some type =>
    rw [← (OfpStatsTypes.ofValue_eq_some_iff _ _).mp h]
    cases type with
    | ofpstFlow => simp [within_validateFlowStatsReply]
    | ofpstDesc => exact iff_of_true (within_validateSingleStatsReply _) (by simp [OfpStatsTypes.value])
    | ofpstAggregate => exact iff_of_true (within_validateSingleStatsReply _) (by simp [OfpStatsTypes.value])
    | ofpstTable => exact iff_of_true within_validateTableStatsReply (by simp [OfpStatsTypes.value])
    | ofpstPort => exact iff_of_true within_validatePortStatsReply (by simp [OfpStatsTypes.value])
    | ofpstQueue => exact iff_of_true within_validateQueueStatsReply (by simp [OfpStatsTypes.value])
    | ofpstVendor => exact iff_of_true within_checkStatsReply (by simp [OfpStatsTypes.value])

theorem within_validateError : Within message.length (validateError message) message.data :=
  within_afterHeader (fun _ => within_pure _)

/-- The messages whose validation stays inside them, exactly. -/
theorem validateOpenflowMessage_within_iff (message : Message) (h8 : 8 ≤ message.length) :
    Within message.length (validateOpenflowMessage message) message.data ↔ StaysInside message := by
  simp only [validateOpenflowMessage,StaysInside,within_bind,within_byteAt,returns_byteAt,forall_eq']
  rw [and_iff_right (by omega)]
  cases OfpType.ofValue (message.data 1).toNat with
  | none => simp
  | some type =>
    cases type with
    | ofptHello => exact iff_of_true within_validateHeader trivial
    | ofptError => exact iff_of_true within_validateError trivial
    | ofptEchoRequest => exact iff_of_true (within_validateWithLength _ _) trivial
    | ofptEchoReply => exact iff_of_true (within_validateWithLength _ _) trivial
    | ofptVendor => exact iff_of_true (within_validateWithLength _ _) trivial
    | ofptFeaturesRequest => exact iff_of_true within_validateHeader trivial
    | ofptFeaturesReply => exact iff_of_true within_validateFeaturesReply trivial
    | ofptGetConfigRequest => exact iff_of_true within_validateHeader trivial
    | ofptGetConfigReply => exact iff_of_true (within_validateSwitchConfig _) trivial
    | ofptSetConfig => exact iff_of_true (within_validateSwitchConfig _) trivial
    | ofptPacketIn => exact iff_of_true within_validatePacketIn trivial
    | ofptFlowRemoved => exact iff_of_true within_validateFlowRemoved trivial
    | ofptPortStatus => exact iff_of_true within_validatePortStatus trivial
    | ofptPacketOut => exact within_validatePacketOut
    | ofptFlowMod => exact within_validateFlowMod
    | ofptPortMod => exact iff_of_true within_validatePortMod trivial
    | ofptStatsRequest => exact within_validateStatsRequest
    | ofptStatsReply => exact within_validateStatsReply
    | ofptBarrierRequest => exact iff_of_true within_validateHeader trivial
    | ofptBarrierReply => exact iff_of_true within_validateHeader trivial
    | ofptQueueGetConfigRequest => exact iff_of_true within_validateQueueGetConfigRequest trivial
    | ofptQueueGetConfigReply => exact within_validateQueueGetConfigReply

end Rules

def bareStatsRequest : Message :=
  ⟨fun i => match i with | 0 => 1 | 1 => 16 | 3 => 8 | _ => 0,8⟩

theorem validateOpenflowMessage_within_iff_bareStatsRequest : 8 ≤ bareStatsRequest.length ∧
    (Within bareStatsRequest.length (validateOpenflowMessage bareStatsRequest) bareStatsRequest.data ↔
      StaysInside bareStatsRequest) :=
  ⟨by decide,validateOpenflowMessage_within_iff bareStatsRequest (by decide)⟩

/-- Its body type is read at offsets 8 and 9. -/
theorem bareStatsRequest_read_outside : 8 ≤ bareStatsRequest.length ∧
    ¬ Within bareStatsRequest.length (validateOpenflowMessage bareStatsRequest) bareStatsRequest.data := by
  refine ⟨by decide,fun h => ?_⟩
  have hlt := h 0 9 (by decide)
  exact absurd hlt (by decide)

end OpenFlowController.Check
