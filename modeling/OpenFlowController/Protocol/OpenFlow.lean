import Mathlib.Data.Nat.Notation

/-! # OpenFlow 1.0 constants

The enumerations and limits of the protocol header that the library switches on.
A value outside an enumeration takes the default branch of a switch.
-/
namespace OpenFlowController.Protocol

inductive OfpType
  | ofptHello
  | ofptError
  | ofptEchoRequest
  | ofptEchoReply
  | ofptVendor
  | ofptFeaturesRequest
  | ofptFeaturesReply
  | ofptGetConfigRequest
  | ofptGetConfigReply
  | ofptSetConfig
  | ofptPacketIn
  | ofptFlowRemoved
  | ofptPortStatus
  | ofptPacketOut
  | ofptFlowMod
  | ofptPortMod
  | ofptStatsRequest
  | ofptStatsReply
  | ofptBarrierRequest
  | ofptBarrierReply
  | ofptQueueGetConfigRequest
  | ofptQueueGetConfigReply
  deriving DecidableEq, Repr

def OfpType.value : OfpType → ℕ
  | .ofptHello => 0
  | .ofptError => 1
  | .ofptEchoRequest => 2
  | .ofptEchoReply => 3
  | .ofptVendor => 4
  | .ofptFeaturesRequest => 5
  | .ofptFeaturesReply => 6
  | .ofptGetConfigRequest => 7
  | .ofptGetConfigReply => 8
  | .ofptSetConfig => 9
  | .ofptPacketIn => 10
  | .ofptFlowRemoved => 11
  | .ofptPortStatus => 12
  | .ofptPacketOut => 13
  | .ofptFlowMod => 14
  | .ofptPortMod => 15
  | .ofptStatsRequest => 16
  | .ofptStatsReply => 17
  | .ofptBarrierRequest => 18
  | .ofptBarrierReply => 19
  | .ofptQueueGetConfigRequest => 20
  | .ofptQueueGetConfigReply => 21

def OfpType.all : List OfpType :=
  [.ofptHello,.ofptError,.ofptEchoRequest,.ofptEchoReply,.ofptVendor,.ofptFeaturesRequest,
   .ofptFeaturesReply,.ofptGetConfigRequest,.ofptGetConfigReply,.ofptSetConfig,.ofptPacketIn,
   .ofptFlowRemoved,.ofptPortStatus,.ofptPacketOut,.ofptFlowMod,.ofptPortMod,.ofptStatsRequest,
   .ofptStatsReply,.ofptBarrierRequest,.ofptBarrierReply,.ofptQueueGetConfigRequest,
   .ofptQueueGetConfigReply]

def OfpType.ofValue (v : ℕ) : Option OfpType := OfpType.all.find? (fun t => t.value == v)

@[simp] theorem OfpType.ofValue_value (t : OfpType) : OfpType.ofValue t.value = some t := by
  cases t <;> rfl

theorem OfpType.ofValue_eq_some_iff (v : ℕ) (t : OfpType) : OfpType.ofValue v = some t ↔ t.value = v := by
  constructor
  · intro h
    simpa using List.find?_some h
  · rintro rfl
    exact OfpType.ofValue_value t

inductive OfpStatsTypes
  | ofpstDesc
  | ofpstFlow
  | ofpstAggregate
  | ofpstTable
  | ofpstPort
  | ofpstQueue
  | ofpstVendor
  deriving DecidableEq, Repr

def OfpStatsTypes.value : OfpStatsTypes → ℕ
  | .ofpstDesc => 0
  | .ofpstFlow => 1
  | .ofpstAggregate => 2
  | .ofpstTable => 3
  | .ofpstPort => 4
  | .ofpstQueue => 5
  | .ofpstVendor => 65535

def OfpStatsTypes.all : List OfpStatsTypes :=
  [.ofpstDesc,.ofpstFlow,.ofpstAggregate,.ofpstTable,.ofpstPort,.ofpstQueue,.ofpstVendor]

def OfpStatsTypes.ofValue (v : ℕ) : Option OfpStatsTypes := OfpStatsTypes.all.find? (fun t => t.value == v)

@[simp] theorem OfpStatsTypes.ofValue_value (t : OfpStatsTypes) : OfpStatsTypes.ofValue t.value = some t := by
  cases t <;> rfl

theorem OfpStatsTypes.ofValue_eq_some_iff (v : ℕ) (t : OfpStatsTypes) : OfpStatsTypes.ofValue v = some t ↔ t.value = v := by
  constructor
  · intro h
    simpa using List.find?_some h
  · rintro rfl
    exact OfpStatsTypes.ofValue_value t

inductive OfpActionType
  | ofpatOutput
  | ofpatSetVlanVid
  | ofpatSetVlanPcp
  | ofpatStripVlan
  | ofpatSetDlSrc
  | ofpatSetDlDst
  | ofpatSetNwSrc
  | ofpatSetNwDst
  | ofpatSetNwTos
  | ofpatSetTpSrc
  | ofpatSetTpDst
  | ofpatEnqueue
  | ofpatVendor
  deriving DecidableEq, Repr

def OfpActionType.value : OfpActionType → ℕ
  | .ofpatOutput => 0
  | .ofpatSetVlanVid => 1
  | .ofpatSetVlanPcp => 2
  | .ofpatStripVlan => 3
  | .ofpatSetDlSrc => 4
  | .ofpatSetDlDst => 5
  | .ofpatSetNwSrc => 6
  | .ofpatSetNwDst => 7
  | .ofpatSetNwTos => 8
  | .ofpatSetTpSrc => 9
  | .ofpatSetTpDst => 10
  | .ofpatEnqueue => 11
  | .ofpatVendor => 65535

def OfpActionType.all : List OfpActionType :=
  [.ofpatOutput,.ofpatSetVlanVid,.ofpatSetVlanPcp,.ofpatStripVlan,.ofpatSetDlSrc,.ofpatSetDlDst,
   .ofpatSetNwSrc,.ofpatSetNwDst,.ofpatSetNwTos,.ofpatSetTpSrc,.ofpatSetTpDst,.ofpatEnqueue,
   .ofpatVendor]

def OfpActionType.ofValue (v : ℕ) : Option OfpActionType := OfpActionType.all.find? (fun t => t.value == v)

@[simp] theorem OfpActionType.ofValue_value (t : OfpActionType) : OfpActionType.ofValue t.value = some t := by
  cases t <;> rfl

theorem OfpActionType.ofValue_eq_some_iff (v : ℕ) (t : OfpActionType) : OfpActionType.ofValue v = some t ↔ t.value = v := by
  constructor
  · intro h
    simpa using List.find?_some h
  · rintro rfl
    exact OfpActionType.ofValue_value t

def ofpVersion : ℕ := 0x01
def ushrtMax : ℕ := 0xffff
def uintMax : ℕ := 0xffffffff

def ofppMax : ℕ := 0xff00
def ofppInPort : ℕ := 0xfff8
def ofppLocal : ℕ := 0xfffe
def ofppNone : ℕ := 0xffff

def ofpcFragMask : ℕ := 3
def ofpprModify : ℕ := 2
def ofprAction : ℕ := 1
def ofprrDelete : ℕ := 2
def ofpfcDelete : ℕ := 3
def ofpfcDeleteStrict : ℕ := 4
def ofpsfReplyMore : ℕ := 1
def ofpqtNone : ℕ := 0
def ofpqtMinRate : ℕ := 1

def ofpetHelloFailed : ℕ := 0
def ofpetBadRequest : ℕ := 1
def ofpetBadAction : ℕ := 2
def ofpetFlowModFailed : ℕ := 3
def ofpetPortModFailed : ℕ := 4
def ofpetQueueOpFailed : ℕ := 5
def ofphfcIncompatible : ℕ := 0
def ofpbrcBadVersion : ℕ := 0
def ofpbrcBadType : ℕ := 1
def ofpbrcBadStat : ℕ := 2
def ofpbrcEperm : ℕ := 5
def ofpbrcBadLen : ℕ := 6
def ofpbacBadType : ℕ := 0
def ofpbacBadLen : ℕ := 1
def ofpbacBadOutPort : ℕ := 4
def ofpbacBadArgument : ℕ := 5
def ofpfmfcEperm : ℕ := 2
def ofpfmfcBadCommand : ℕ := 4
def ofppmfcBadPort : ℕ := 0
def ofpqofcBadPort : ℕ := 0

def ofpfwAll : ℕ := 0x3fffff

def portConfig : ℕ := 0x7f

def portState : ℕ := 0x301

def portFeatures : ℕ := 0xfff

def flowModFlags : ℕ := 0x7
def vlanVidMask : ℕ := 0x0fff
def vlanPcpMask : ℕ := 0x07
def nwTosMask : ℕ := 0xfc

/-- `value & ~mask` for a mask of the width of `value`: the bits outside the mask. -/
def bitsOutside (value mask : ℕ) : ℕ := value ^^^ (value &&& mask)

end OpenFlowController.Protocol
