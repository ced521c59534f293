import Mathlib.Data.Int.Notation

/-! # Results of message validation

The library's validators answer `SUCCESS` or one of these negative codes. A NULL
message is left out: its answer `CC_ERROR` is defined nowhere in the library.
-/
namespace OpenFlowController.Check

inductive ValidationCode
  | success
  | errorUnsupportedVersion
  | errorInvalidLength
  | errorTooShortMessage
  | errorTooLongMessage
  | errorInvalidType
  | errorUndefinedType
  | errorUnsupportedType
  | errorNoTableAvailable
  | errorInvalidPortNo
  | errorInvalidPortConfig
  | errorInvalidPortState
  | errorInvalidPortFeatures
  | errorInvalidSwitchConfig
  | errorInvalidPacketInReason
  | errorInvalidFlowRemovedReason
  | errorInvalidWildcards
  | errorInvalidVlanVid
  | errorInvalidVlanPcp
  | errorInvalidNwTos
  | errorInvalidPortStatusReason
  | errorTooShortQueueDescription
  | errorTooShortQueueProperty
  | errorTooLongQueueProperty
  | errorUndefinedQueueProperty
  | errorTooShortAction
  | errorUndefinedActionType
  | errorInvalidActionType
  | errorTooShortActionOutput
  | errorTooLongActionOutput
  | errorTooShortActionVlanVid
  | errorTooLongActionVlanVid
  | errorTooShortActionVlanPcp
  | errorTooLongActionVlanPcp
  | errorTooShortActionStripVlan
  | errorTooLongActionStripVlan
  | errorTooShortActionDlSrc
  | errorTooLongActionDlSrc
  | errorTooShortActionDlDst
  | errorTooLongActionDlDst
  | errorTooShortActionNwSrc
  | errorTooLongActionNwSrc
  | errorTooShortActionNwDst
  | errorTooLongActionNwDst
  | errorTooShortActionNwTos
  | errorTooLongActionNwTos
  | errorTooShortActionTpSrc
  | errorTooLongActionTpSrc
  | errorTooShortActionTpDst
  | errorTooLongActionTpDst
  | errorTooShortActionEnqueue
  | errorTooLongActionEnqueue
  | errorTooShortActionVendor
  | errorUnsupportedStatsType
  | errorInvalidStatsReplyFlags
  | errorInvalidFlowPriority
  | errorInvalidFlowModFlags
  | errorInvalidPortMask
  | errorInvalidStatsType
  | errorInvalidStatsRequestFlags
  | errorUndefinedFlowModCommand
  | errorUnexpectedError
  deriving DecidableEq, Repr

namespace ValidationCode

def value : ValidationCode → ℤ
  | .success => 0
  | .errorUnsupportedVersion => -60
  | .errorInvalidLength => -59
  | .errorTooShortMessage => -58
  | .errorTooLongMessage => -57
  | .errorInvalidType => -56
  | .errorUndefinedType => -55
  | .errorUnsupportedType => -54
  | .errorNoTableAvailable => -53
  | .errorInvalidPortNo => -52
  | .errorInvalidPortConfig => -51
  | .errorInvalidPortState => -50
  | .errorInvalidPortFeatures => -49
  | .errorInvalidSwitchConfig => -48
  | .errorInvalidPacketInReason => -47
  | .errorInvalidFlowRemovedReason => -46
  | .errorInvalidWildcards => -45
  | .errorInvalidVlanVid => -44
  | .errorInvalidVlanPcp => -43
  | .errorInvalidNwTos => -42
  | .errorInvalidPortStatusReason => -41
  | .errorTooShortQueueDescription => -40
  | .errorTooShortQueueProperty => -39
  | .errorTooLongQueueProperty => -38
  | .errorUndefinedQueueProperty => -37
  | .errorTooShortAction => -36
  | .errorUndefinedActionType => -35
  | .errorInvalidActionType => -34
  | .errorTooShortActionOutput => -33
  | .errorTooLongActionOutput => -32
  | .errorTooShortActionVlanVid => -31
  | .errorTooLongActionVlanVid => -30
  | .errorTooShortActionVlanPcp => -29
  | .errorTooLongActionVlanPcp => -28
  | .errorTooShortActionStripVlan => -27
  | .errorTooLongActionStripVlan => -26
  | .errorTooShortActionDlSrc => -25
  | .errorTooLongActionDlSrc => -24
  | .errorTooShortActionDlDst => -23
  | .errorTooLongActionDlDst => -22
  | .errorTooShortActionNwSrc => -21
  | .errorTooLongActionNwSrc => -20
  | .errorTooShortActionNwDst => -19
  | .errorTooLongActionNwDst => -18
  | .errorTooShortActionNwTos => -17
  | .errorTooLongActionNwTos => -16
  | .errorTooShortActionTpSrc => -15
  | .errorTooLongActionTpSrc => -14
  | .errorTooShortActionTpDst => -13
  | .errorTooLongActionTpDst => -12
  | .errorTooShortActionEnqueue => -11
  | .errorTooLongActionEnqueue => -10
  | .errorTooShortActionVendor => -9
  | .errorUnsupportedStatsType => -8
  | .errorInvalidStatsReplyFlags => -7
  | .errorInvalidFlowPriority => -6
  | .errorInvalidFlowModFlags => -5
  | .errorInvalidPortMask => -4
  | .errorInvalidStatsType => -3
  | .errorInvalidStatsRequestFlags => -2
  | .errorUndefinedFlowModCommand => -1
  | .errorUnexpectedError => -255

/-- The test `ret < 0` of the callers tells success from every failure. -/
@[simp] theorem value_neg_iff (c : ValidationCode) : c.value < 0 ↔ c ≠ .success := by
  cases c <;> decide

/-- The code reported by the first failing check, or success. -/
def followedBy (first rest : ValidationCode) : ValidationCode :=
  if first.value < 0 then first else rest

@[simp] theorem followedBy_eq_success_iff (first rest : ValidationCode) :
    first.followedBy rest = .success ↔ first = .success ∧ rest = .success := by
  simp only [followedBy,value_neg_iff]
  split <;> simp_all

end ValidationCode
end OpenFlowController.Check
