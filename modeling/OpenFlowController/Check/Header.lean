import OpenFlowController.Check.Fields

/-! # The message header

A message is what its buffer holds: `length` bytes of `data`. Memory after them
exists and has arbitrary contents.
-/
namespace OpenFlowController.Check
open Memory Access Protocol

structure Message where
  data : Bytes
  length : ℕ

def validateHeader (message : Message) (type : OfpType) (minLength maxLength : ℕ) :
    Access ValidationCode := do
  if message.length < 8 then return .errorTooShortMessage
  if (← byteAt 0) ≠ ofpVersion then return .errorUnsupportedVersion
  if (← byteAt 1) > OfpType.ofptQueueGetConfigReply.value then return .errorUndefinedType
  if (← byteAt 1) ≠ type.value then return .errorInvalidType
  if (← ntohsAt 2) > maxLength then return .errorTooLongMessage
  if (← ntohsAt 2) < minLength then return .errorTooShortMessage
  if (← ntohsAt 2) < message.length then return .errorTooLongMessage
  if (← ntohsAt 2) > message.length then return .errorTooShortMessage
  if message.length > maxLength then return .errorTooLongMessage
  return .success

structure HeaderAccepted (message : Message) (type : OfpType) (minLength maxLength : ℕ) : Prop where
  complete : 8 ≤ message.length
  version : (message.data 0).toNat = ofpVersion
  type : (message.data 1).toNat = type.value
  length : be16 message.data 2 = message.length
  least : minLength ≤ message.length
  most : message.length ≤ maxLength

section Rules
variable {message : Message} {type : OfpType} {minLength maxLength : ℕ}

theorem returns_validateHeader :
    Returns (validateHeader message type minLength maxLength) message.data .success ↔
      HeaderAccepted message type minLength maxLength := by
  have hlast : type.value ≤ OfpType.ofptQueueGetConfigReply.value := by cases type <;> decide
  simp only [validateHeader,returns_bind,returns_ite,returns_byteAt,returns_ntohsAt,returns_pure]
  simp only [reduceCtorEq,exists_eq_left',if_false_left,ne_eq,Classical.not_not,gt_iff_lt,Nat.not_lt,and_true]
  constructor
  · rintro ⟨hc,hv,-,ht,-,hl,hle,hge,hm⟩
    exact ⟨hc,hv,ht,Nat.le_antisymm hge hle,by omega,hm⟩
  · rintro ⟨hc,hv,ht,he,hl,hm⟩
    exact ⟨hc,hv,by omega,ht,by omega,by omega,by omega,by omega,hm⟩

@[simp] theorem within_validateHeader :
    Within message.length (validateHeader message type minLength maxLength) message.data := by
  simp only [validateHeader,within_bind,within_ite,within_byteAt,within_ntohsAt,returns_byteAt,
    returns_ntohsAt,within_pure,forall_eq',implies_true,true_and,and_true]
  grind

end Rules
end OpenFlowController.Check
