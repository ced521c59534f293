import OpenFlowController.Check.ValidationCode
import OpenFlowController.Protocol.OpenFlow

/-! # From validation codes to OpenFlow errors

One table for each message type. The rows of the header check open every table;
the zero row that ends a table of the source is the end of the list here.
-/
namespace OpenFlowController.Check
open Protocol

structure ErrorMap where
  errorNo : ValidationCode
  errorType : ℕ
  errorCode : ℕ

/-- Only a hello answers a wrong version with an error type of its own. -/
def headerErrors (versionType versionCode : ℕ) : List ErrorMap :=
  [⟨.errorUnsupportedVersion,versionType,versionCode⟩,
   ⟨.errorTooShortMessage,ofpetBadRequest,ofpbrcBadLen⟩,
   ⟨.errorTooLongMessage,ofpetBadRequest,ofpbrcBadLen⟩,
   ⟨.errorUndefinedType,ofpetBadRequest,ofpbrcBadType⟩,
   ⟨.errorInvalidType,ofpetBadRequest,ofpbrcBadType⟩]

def requestErrors : List ErrorMap := headerErrors ofpetBadRequest ofpbrcBadVersion

def actionErrors : List ErrorMap :=
  [⟨.errorInvalidActionType,ofpetBadAction,ofpbacBadType⟩,
   ⟨.errorTooShortActionOutput,ofpetBadAction,ofpbacBadLen⟩,
   ⟨.errorTooLongActionOutput,ofpetBadAction,ofpbacBadLen⟩,
   ⟨.errorInvalidPortNo,ofpetBadAction,ofpbacBadOutPort⟩,
   ⟨.errorTooShortActionVlanVid,ofpetBadAction,ofpbacBadLen⟩,
   ⟨.errorTooLongActionVlanVid,ofpetBadAction,ofpbacBadLen⟩,
   ⟨.errorInvalidVlanVid,ofpetBadAction,ofpbacBadArgument⟩,
   ⟨.errorTooShortActionVlanPcp,ofpetBadAction,ofpbacBadLen⟩,
   ⟨.errorTooLongActionVlanPcp,ofpetBadAction,ofpbacBadLen⟩,
   ⟨.errorInvalidVlanPcp,ofpetBadAction,ofpbacBadArgument⟩,
   ⟨.errorTooShortActionStripVlan,ofpetBadAction,ofpbacBadLen⟩,
   ⟨.errorTooLongActionStripVlan,ofpetBadAction,ofpbacBadLen⟩,
   ⟨.errorTooShortActionDlSrc,ofpetBadAction,ofpbacBadLen⟩,
   ⟨.errorTooLongActionDlSrc,ofpetBadAction,ofpbacBadLen⟩,
   ⟨.errorTooShortActionDlDst,ofpetBadAction,ofpbacBadLen⟩,
   ⟨.errorTooLongActionDlDst,ofpetBadAction,ofpbacBadLen⟩,
   ⟨.errorTooShortActionNwSrc,ofpetBadAction,ofpbacBadLen⟩,
   ⟨.errorTooLongActionNwSrc,ofpetBadAction,ofpbacBadLen⟩,
   ⟨.errorTooShortActionNwDst,ofpetBadAction,ofpbacBadLen⟩,
   ⟨.errorTooLongActionNwDst,ofpetBadAction,ofpbacBadLen⟩,
   ⟨.errorTooShortActionNwTos,ofpetBadAction,ofpbacBadLen⟩,
   ⟨.errorTooLongActionNwTos,ofpetBadAction,ofpbacBadLen⟩,
   ⟨.errorTooShortActionTpSrc,ofpetBadAction,ofpbacBadLen⟩,
   ⟨.errorTooLongActionTpSrc,ofpetBadAction,ofpbacBadLen⟩,
   ⟨.errorTooShortActionTpDst,ofpetBadAction,ofpbacBadLen⟩,
   ⟨.errorTooLongActionTpDst,ofpetBadAction,ofpbacBadLen⟩,
   ⟨.errorTooShortActionEnqueue,ofpetBadAction,ofpbacBadLen⟩,
   ⟨.errorTooLongActionEnqueue,ofpetBadAction,ofpbacBadLen⟩,
   ⟨.errorInvalidPortNo,ofpetBadAction,ofpbacBadOutPort⟩,
   ⟨.errorTooShortActionVendor,ofpetBadAction,ofpbacBadLen⟩,
   ⟨.errorUndefinedActionType,ofpetBadAction,ofpbacBadType⟩]

def errorMaps : OfpType → List ErrorMap
  | .ofptHello => headerErrors ofpetHelloFailed ofphfcIncompatible
  | .ofptSetConfig => requestErrors++[⟨.errorInvalidSwitchConfig,ofpetBadRequest,ofpbrcEperm⟩]
  | .ofptPacketIn => requestErrors++[⟨.errorInvalidPacketInReason,ofpetBadRequest,ofpbrcEperm⟩]
  | .ofptFlowRemoved => requestErrors++
    [⟨.errorInvalidFlowPriority,ofpetBadRequest,ofpbrcEperm⟩,
     ⟨.errorInvalidFlowRemovedReason,ofpetBadRequest,ofpbrcEperm⟩]
  | .ofptPortStatus => requestErrors++[⟨.errorInvalidPortStatusReason,ofpetBadRequest,ofpbrcEperm⟩]
  | .ofptPacketOut => requestErrors++actionErrors
  | .ofptFlowMod => requestErrors++actionErrors++
    [⟨.errorInvalidWildcards,ofpetFlowModFailed,ofpfmfcEperm⟩,
     ⟨.errorUndefinedFlowModCommand,ofpetFlowModFailed,ofpfmfcBadCommand⟩,
     ⟨.errorInvalidFlowPriority,ofpetFlowModFailed,ofpfmfcEperm⟩,
     ⟨.errorInvalidFlowModFlags,ofpetFlowModFailed,ofpfmfcEperm⟩]
  | .ofptPortMod => requestErrors++
    [⟨.errorInvalidPortNo,ofpetPortModFailed,ofppmfcBadPort⟩,
     ⟨.errorInvalidPortConfig,ofpetBadRequest,ofpbrcEperm⟩,
     ⟨.errorInvalidPortMask,ofpetBadRequest,ofpbrcEperm⟩,
     ⟨.errorInvalidPortFeatures,ofpetBadRequest,ofpbrcEperm⟩]
  | .ofptStatsRequest => requestErrors++
    [⟨.errorUnsupportedStatsType,ofpetBadRequest,ofpbrcBadStat⟩,
     ⟨.errorInvalidStatsType,ofpetBadRequest,ofpbrcBadStat⟩,
     ⟨.errorInvalidStatsRequestFlags,ofpetBadRequest,ofpbrcEperm⟩,
     ⟨.errorInvalidPortNo,ofpetBadRequest,ofpbrcEperm⟩,
     ⟨.errorInvalidWildcards,ofpetBadRequest,ofpbrcEperm⟩,
     ⟨.errorInvalidVlanVid,ofpetBadRequest,ofpbrcEperm⟩,
     ⟨.errorInvalidVlanPcp,ofpetBadRequest,ofpbrcEperm⟩,
     ⟨.errorInvalidNwTos,ofpetBadRequest,ofpbrcEperm⟩]
  | .ofptQueueGetConfigRequest => requestErrors++[⟨.errorInvalidPortNo,ofpetQueueOpFailed,ofpqofcBadPort⟩]
  | .ofptError | .ofptEchoRequest | .ofptEchoReply | .ofptVendor | .ofptFeaturesRequest
  | .ofptFeaturesReply | .ofptGetConfigRequest | .ofptGetConfigReply | .ofptStatsReply
  | .ofptBarrierRequest | .ofptBarrierReply | .ofptQueueGetConfigReply => requestErrors

/-- The pair written on `CC_SUCCESS`; nothing is written on `CC_ERROR`. -/
def ccTransErrorTypeAndCode (type : ℕ) (errorNo : ℤ) : Option (ℕ × ℕ) :=
  match OfpType.ofValue type with
  | none => some (ofpetBadRequest,ofpbrcBadType)
  | some t => ((errorMaps t).find? (fun m => errorNo == m.errorNo.value)).map
    (fun m => (m.errorType,m.errorCode))

/-- A rejection for which the table of the type has no row. -/
def Unmapped (type : OfpType) (code : ValidationCode) : Prop :=
  code ≠ .success ∧ ccTransErrorTypeAndCode type.value code.value = none

instance (type : OfpType) (code : ValidationCode) : Decidable (Unmapped type code) :=
  inferInstanceAs (Decidable (_ ∧ _))

@[simp] theorem not_unmapped_success (type : OfpType) : ¬ Unmapped type .success := fun h => h.1 rfl

/-- The table of a type that has the header's rows only. -/
theorem unmapped_iff_of_errorMaps_eq {type : OfpType} (h : errorMaps type = requestErrors)
    (code : ValidationCode) : Unmapped type code ↔ code ≠ .success ∧
      code ∉ requestErrors.map (fun m => m.errorNo) := by
  simp only [Unmapped,ccTransErrorTypeAndCode,OfpType.ofValue_value,h]
  cases code <;> decide

/-- Every table has a row for each failure of the header check. -/
theorem not_unmapped_header (type : OfpType) : ¬ Unmapped type .errorUnsupportedVersion ∧
    ¬ Unmapped type .errorTooShortMessage ∧ ¬ Unmapped type .errorTooLongMessage ∧
    ¬ Unmapped type .errorUndefinedType ∧ ¬ Unmapped type .errorInvalidType := by
  cases type <;> decide

end OpenFlowController.Check
