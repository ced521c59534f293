import OpenFlowController.Check.Header
import OpenFlowController.Check.Actions

/-! # Validators of the message types without statistics or queues

Offsets are those of the packed protocol structures. A `uint16_t` difference is
taken modulo 65536.
-/
namespace OpenFlowController.Check
open Memory Access Protocol

def validateHello (message : Message) : Access ValidationCode :=
  validateHeader message .ofptHello 8 8

def validateError (message : Message) : Access ValidationCode :=
  ensure (validateHeader message .ofptError 12 ushrtMax) do
  return .success

/-- The header check, and the length compared once more. -/
def validateWithLength (message : Message) (type : OfpType) (minLength : ℕ) : Access ValidationCode :=
  ensure (validateHeader message type minLength ushrtMax) do
  if message.length ≠ (← ntohsAt 2) then return .errorInvalidLength
  return .success

def validateEchoRequest (message : Message) : Access ValidationCode :=
  validateWithLength message .ofptEchoRequest 8

def validateEchoReply (message : Message) : Access ValidationCode :=
  validateWithLength message .ofptEchoReply 8

def validateVendor (message : Message) : Access ValidationCode :=
  validateWithLength message .ofptVendor 12

def validateFeaturesRequest (message : Message) : Access ValidationCode :=
  validateHeader message .ofptFeaturesRequest 8 8

def validateFeaturesReply (message : Message) : Access ValidationCode :=
  ensure (validateHeader message .ofptFeaturesReply 32 ushrtMax) do
  if (← byteAt 20) = 0 then return .errorNoTableAvailable
  let portLength := sub16 (← ntohsAt 2) 32
  if portLength%48 ≠ 0 then return .errorInvalidLength
  if portLength > 0 then ensure (validatePhyPorts 32 (portLength/48)) (return .success)
  else return .success

def validateGetConfigRequest (message : Message) : Access ValidationCode :=
  validateHeader message .ofptGetConfigRequest 8 8

def validateSwitchConfig (message : Message) (type : OfpType) : Access ValidationCode :=
  ensure (validateHeader message type 12 12) do
  if (← ntohsAt 8) > ofpcFragMask then return .errorInvalidSwitchConfig
  return .success

def validateGetConfigReply (message : Message) : Access ValidationCode :=
  validateSwitchConfig message .ofptGetConfigReply

def validateSetConfig (message : Message) : Access ValidationCode :=
  validateSwitchConfig message .ofptSetConfig

def validatePacketIn (message : Message) : Access ValidationCode :=
  ensure (validateHeader message .ofptPacketIn 18 ushrtMax) do
  ensure (do return validatePhyPortNo (← ntohsAt 14)) do
  if (← byteAt 16) > ofprAction then return .errorInvalidPacketInReason
  return .success

def validateFlowRemoved (message : Message) : Access ValidationCode :=
  ensure (validateHeader message .ofptFlowRemoved 88 88) do
  let m ← ntohMatch 8
  ensure (return validateMatch m) do
  ensure (do
    if m.Exact then
      if (← ntohsAt 56) ≠ ushrtMax then return .errorInvalidFlowPriority
    return .success) do
  if (← byteAt 58) > ofprrDelete then return .errorInvalidFlowRemovedReason
  return .success

def validatePortStatus (message : Message) : Access ValidationCode :=
  ensure (validateHeader message .ofptPortStatus 64 64) do
  if (← byteAt 8) > ofpprModify then return .errorInvalidPortStatusReason
  ensure (validatePhyPort 16) do
  return .success

def validatePacketOut (message : Message) : Access ValidationCode :=
  ensure (validateHeader message .ofptPacketOut 16 ushrtMax) do
  ensure (do return validatePhyPortNo (← ntohsAt 12)) do
  validateActionList 16 (← ntohsAt 14)

/-- The tests of `validate_flow_mod` between its header and its actions. -/
def validateFlowModFields : Access ValidationCode := do
  let m ← ntohMatch 8
  ensure (return validateMatch m) do
  let command ← ntohsAt 56
  if command > ofpfcDeleteStrict then return .errorUndefinedFlowModCommand
  ensure (do
    if m.Exact then
      if (← ntohsAt 62) ≠ ushrtMax then return .errorInvalidFlowPriority
    return .success) do
  ensure (do
    if command = ofpfcDelete ∨ command = ofpfcDeleteStrict then
      if (← ntohsAt 68) ≠ ofppNone then return validatePhyPortNo (← ntohsAt 68)
    return .success) do
  if bitsOutside (← ntohsAt 70) flowModFlags ≠ 0 then return .errorInvalidFlowModFlags
  return .success

def validateFlowMod (message : Message) : Access ValidationCode :=
  ensure (validateHeader message .ofptFlowMod 72 ushrtMax) do
  ensure validateFlowModFields do
  validateActionList 72 (sub16 (← ntohsAt 2) 72)

def validatePortMod (message : Message) : Access ValidationCode :=
  ensure (validateHeader message .ofptPortMod 32 32) do
  let portNo ← ntohsAt 8
  ensure (return validatePhyPortNo portNo) do
  if portNo > ofppMax ∧ portNo ≠ ofppLocal then return .errorInvalidPortNo
  if bitsOutside (← ntohlAt 16) portConfig ≠ 0 then return .errorInvalidPortConfig
  if bitsOutside (← ntohlAt 20) portConfig ≠ 0 then return .errorInvalidPortMask
  if bitsOutside (← ntohlAt 24) portConfig ≠ 0 then return .errorInvalidPortFeatures
  return .success

def validateBarrierRequest (message : Message) : Access ValidationCode :=
  validateHeader message .ofptBarrierRequest 8 8

def validateBarrierReply (message : Message) : Access ValidationCode :=
  validateHeader message .ofptBarrierReply 8 8

def FeaturesBodyAccepted (message : Message) : Prop :=
  (message.data 20).toNat ≠ 0 ∧ (message.length-32)%48 = 0 ∧
    ∀ i < (message.length-32)/48, PhyPortAccepted message.data (32+i*48)

/-- A flow is exact only at the highest priority. -/
def ExactPriority (mem : Bytes) (m : OfpMatch) (priority : ℕ) : Prop :=
  m.Exact → be16 mem priority = ushrtMax

structure FlowRemovedAccepted (message : Message) : Prop where
  header : HeaderAccepted message .ofptFlowRemoved 88 88
  matched : validateMatch (matchAt message.data 8) = .success
  priority : ExactPriority message.data (matchAt message.data 8) 56
  reason : (message.data 58).toNat ≤ ofprrDelete

structure FlowModFieldsAccepted (mem : Bytes) : Prop where
  matched : validateMatch (matchAt mem 8) = .success
  command : be16 mem 56 ≤ ofpfcDeleteStrict
  priority : ExactPriority mem (matchAt mem 8) 62
  outPort : be16 mem 56 = ofpfcDelete ∨ be16 mem 56 = ofpfcDeleteStrict →
    be16 mem 68 ≠ ofppNone → validatePhyPortNo (be16 mem 68) = .success
  flags : bitsOutside (be16 mem 70) flowModFlags = 0

structure PortModAccepted (message : Message) : Prop where
  header : HeaderAccepted message .ofptPortMod 32 32
  portNo : validatePhyPortNo (be16 message.data 8) = .success
  physical : be16 message.data 8 ≤ ofppMax ∨ be16 message.data 8 = ofppLocal
  config : bitsOutside (be32 message.data 16) portConfig = 0
  mask : bitsOutside (be32 message.data 20) portConfig = 0
  advertise : bitsOutside (be32 message.data 24) portConfig = 0

/-- The action list of an otherwise accepted packet-out stays in the message. -/
def PacketOutInside (message : Message) : Prop :=
  HeaderAccepted message .ofptPacketOut 16 ushrtMax → validatePhyPortNo (be16 message.data 12) = .success →
    ActionsInside message.length message.data 16 (be16 message.data 14)

def FlowModInside (message : Message) : Prop :=
  HeaderAccepted message .ofptFlowMod 72 ushrtMax → FlowModFieldsAccepted message.data →
    ActionsInside message.length message.data 72 (message.length-72)

section Rules
variable {message : Message}

theorem within_afterHeader {type : OfpType} {minLength maxLength : ℕ} {rest : Access ValidationCode}
    (h : HeaderAccepted message type minLength maxLength → Within message.length rest message.data) :
    Within message.length (ensure (validateHeader message type minLength maxLength) rest) message.data := by
  rw [within_ensure,returns_validateHeader]
  exact ⟨within_validateHeader,h⟩

theorem within_validateWithLength (type : OfpType) (minLength : ℕ) :
    Within message.length (validateWithLength message type minLength) message.data := by
  refine within_afterHeader (fun h => ?_)
  have hc := h.complete
  simp
  omega

theorem within_validateFeaturesReply :
    Within message.length (validateFeaturesReply message) message.data := by
  refine within_afterHeader (fun h => ?_)
  have hl := h.least
  have hm : message.length ≤ 65535 := h.most
  have hlen := sub16_of_le hl (Nat.lt_of_le_of_lt hm (by decide))
  simp [h.length,hlen]
  refine ⟨by omega,fun _ => ⟨by omega,fun hmod hpos => ?_⟩⟩
  refine within_validateRecords _ _ _ _ (fun i hi => (within_validatePhyPort _).mpr ?_)
  omega

theorem returns_validateFeaturesReply : Returns (validateFeaturesReply message) message.data .success ↔
    HeaderAccepted message .ofptFeaturesReply 32 ushrtMax ∧ FeaturesBodyAccepted message := by
  rw [validateFeaturesReply,returns_ensure_success,returns_validateHeader]
  refine and_congr_right (fun h => ?_)
  have hl := h.least
  have hm : message.length ≤ 65535 := h.most
  have hlen := sub16_of_le hl (Nat.lt_of_le_of_lt hm (by decide))
  simp [h.length,hlen,FeaturesBodyAccepted,validatePhyPorts,returns_validateRecords returns_validatePhyPort]
  -- without ports there is nothing to check
  intro _ _
  rcases Nat.eq_zero_or_pos (message.length-32) with h0 | hpos
  · simp [h0]
  · exact Or.inl (by omega)

theorem within_validateSwitchConfig (type : OfpType) :
    Within message.length (validateSwitchConfig message type) message.data := by
  refine within_afterHeader (fun h => ?_)
  have hl := h.least
  simp
  omega

theorem within_validatePacketIn : Within message.length (validatePacketIn message) message.data := by
  refine within_afterHeader (fun h => ?_)
  have hl := h.least
  simp
  omega

theorem returns_validateFlowRemoved :
    Returns (validateFlowRemoved message) message.data .success ↔ FlowRemovedAccepted message := by
  rw [validateFlowRemoved,returns_ensure_success,returns_validateHeader]
  simp only [returns_bind,returns_ntohMatch,exists_eq_left']
  constructor
  · rintro ⟨hh,h⟩
    simp at h
    exact ⟨hh,h.1,h.2.1,h.2.2⟩
  · rintro ⟨hh,hm,hp,hr⟩
    simp
    exact ⟨hh,hm,hp,hr⟩

theorem within_validateFlowRemoved : Within message.length (validateFlowRemoved message) message.data := by
  refine within_afterHeader (fun h => ?_)
  have hl := h.least
  simp [within_ntohMatch]
  omega

theorem within_validatePortStatus : Within message.length (validatePortStatus message) message.data := by
  refine within_afterHeader (fun h => ?_)
  have hl := h.least
  simp [within_validatePhyPort]
  omega

theorem within_validatePortMod : Within message.length (validatePortMod message) message.data := by
  refine within_afterHeader (fun h => ?_)
  have hl := h.least
  simp
  omega

theorem returns_validatePortMod :
    Returns (validatePortMod message) message.data .success ↔ PortModAccepted message := by
  simp [validatePortMod,returns_validateHeader]
  constructor
  · rintro ⟨hh,hn,hp,hc,hm,ha⟩
    exact ⟨hh,hn,by omega,hc,hm,ha⟩
  · rintro ⟨hh,hn,hp,hc,hm,ha⟩
    exact ⟨hh,hn,by omega,hc,hm,ha⟩

theorem within_validatePacketOut :
    Within message.length (validatePacketOut message) message.data ↔ PacketOutInside message := by
  rw [validatePacketOut,within_ensure,returns_validateHeader]
  simp only [within_validateHeader,true_and,PacketOutInside]
  refine imp_congr_right (fun h => ?_)
  have hl := h.least
  simp
  rw [and_iff_right (by omega)]
  exact imp_congr_right (fun _ => and_iff_right (by omega))

theorem returns_validateFlowModFields (mem : Bytes) :
    Returns validateFlowModFields mem .success ↔ FlowModFieldsAccepted mem := by
  simp only [validateFlowModFields]
  constructor
  · intro h
    simp at h
    exact ⟨h.1,h.2.1,h.2.2.1,h.2.2.2.1,h.2.2.2.2⟩
  · rintro ⟨hm,hc,hp,ho,hf⟩
    simp
    exact ⟨hm,hc,hp,ho,hf⟩

theorem within_validateFlowModFields {n : ℕ} (mem : Bytes) (h : 72 ≤ n) :
    Within n validateFlowModFields mem := by
  simp [validateFlowModFields,within_ntohMatch]
  omega

theorem returns_validatePacketOut :
    Returns (validatePacketOut message) message.data .success ↔ HeaderAccepted message .ofptPacketOut 16 ushrtMax ∧
      validatePhyPortNo (be16 message.data 12) = .success ∧
      ActionsAccepted message.data 16 (be16 message.data 14) := by
  simp [validatePacketOut,returns_validateHeader]

theorem returns_validateFlowMod :
    Returns (validateFlowMod message) message.data .success ↔ HeaderAccepted message .ofptFlowMod 72 ushrtMax ∧
      FlowModFieldsAccepted message.data ∧ ActionsAccepted message.data 72 (message.length-72) := by
  rw [validateFlowMod,returns_ensure_success,returns_validateHeader]
  refine and_congr_right (fun h => ?_)
  have hm : message.length ≤ 65535 := h.most
  have hlen := sub16_of_le h.least (Nat.lt_of_le_of_lt hm (by decide))
  simp [returns_validateFlowModFields,h.length,hlen]

theorem within_validateFlowMod :
    Within message.length (validateFlowMod message) message.data ↔ FlowModInside message := by
  rw [validateFlowMod,within_ensure,returns_validateHeader]
  simp only [within_validateHeader,true_and,FlowModInside]
  refine imp_congr_right (fun h => ?_)
  have hl := h.least
  have hm : message.length ≤ 65535 := h.most
  have hlen := sub16_of_le hl (Nat.lt_of_le_of_lt hm (by decide))
  simp [within_validateFlowModFields message.data hl,returns_validateFlowModFields,h.length,hlen]
  exact imp_congr_right (fun _ => and_iff_right (by omega))

end Rules
end OpenFlowController.Check
