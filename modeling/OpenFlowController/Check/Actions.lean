import OpenFlowController.Check.Fields

/-! # Action lists

An action is named by the offset of its header. `validate_actions` moves a 16-bit
offset from header to header; it looks at the length of the list only to stop.
-/
namespace OpenFlowController.Check
open Memory Access Protocol

structure OfpActionHeader where
  type : ℕ
  len : ℕ

def ntohActionHeader (src : ℕ) : Access OfpActionHeader := do
  return { type := ← ntohsAt src, len := ← ntohsAt (src+2) }

structure OfpActionOutput extends OfpActionHeader where
  port : ℕ
  maxLen : ℕ

def ntohActionOutput (src : ℕ) : Access OfpActionOutput := do
  return { toOfpActionHeader := ← ntohActionHeader src, port := ← ntohsAt (src+4), maxLen := ← ntohsAt (src+6) }

structure OfpActionVlanVid extends OfpActionHeader where
  vlanVid : ℕ

def ntohActionVlanVid (src : ℕ) : Access OfpActionVlanVid := do
  return { toOfpActionHeader := ← ntohActionHeader src, vlanVid := ← ntohsAt (src+4) }

structure OfpActionVlanPcp extends OfpActionHeader where
  vlanPcp : ℕ

def ntohActionVlanPcp (src : ℕ) : Access OfpActionVlanPcp := do
  return { toOfpActionHeader := ← ntohActionHeader src, vlanPcp := ← byteAt (src+4) }

structure OfpActionDlAddr extends OfpActionHeader where
  dlAddr : List ℕ

def ntohActionDlAddr (src : ℕ) : Access OfpActionDlAddr := do
  return { toOfpActionHeader := ← ntohActionHeader src, dlAddr := ← bytesAt (src+4) 6 }

structure OfpActionNwAddr extends OfpActionHeader where
  nwAddr : ℕ

def ntohActionNwAddr (src : ℕ) : Access OfpActionNwAddr := do
  return { toOfpActionHeader := ← ntohActionHeader src, nwAddr := ← ntohlAt (src+4) }

structure OfpActionNwTos extends OfpActionHeader where
  nwTos : ℕ

def ntohActionNwTos (src : ℕ) : Access OfpActionNwTos := do
  return { toOfpActionHeader := ← ntohActionHeader src, nwTos := ← byteAt (src+4) }

structure OfpActionTpPort extends OfpActionHeader where
  tpPort : ℕ

def ntohActionTpPort (src : ℕ) : Access OfpActionTpPort := do
  return { toOfpActionHeader := ← ntohActionHeader src, tpPort := ← ntohsAt (src+4) }

structure OfpActionEnqueue extends OfpActionHeader where
  port : ℕ
  queueId : ℕ

def ntohActionEnqueue (src : ℕ) : Access OfpActionEnqueue := do
  return { toOfpActionHeader := ← ntohActionHeader src, port := ← ntohsAt (src+4), queueId := ← ntohlAt (src+12) }

def checkFixedAction (action : OfpActionHeader) (type : OfpActionType) (size : ℕ)
    (tooShort tooLong fields : ValidationCode) : ValidationCode :=
  if action.type ≠ type.value then .errorInvalidActionType
  else if action.len < size then tooShort
  else if action.len > size then tooLong
  else fields

def validateActionOutput (action : ℕ) : Access ValidationCode := do
  let output ← ntohActionOutput action
  return checkFixedAction output.toOfpActionHeader .ofpatOutput 8
    .errorTooShortActionOutput .errorTooLongActionOutput (validatePhyPortNo output.port)

def validateActionSetVlanVid (action : ℕ) : Access ValidationCode := do
  let vlanVid ← ntohActionVlanVid action
  return checkFixedAction vlanVid.toOfpActionHeader .ofpatSetVlanVid 8
    .errorTooShortActionVlanVid .errorTooLongActionVlanVid (validateVlanVid vlanVid.vlanVid)

def validateActionSetVlanPcp (action : ℕ) : Access ValidationCode := do
  let vlanPcp ← ntohActionVlanPcp action
  return checkFixedAction vlanPcp.toOfpActionHeader .ofpatSetVlanPcp 8
    .errorTooShortActionVlanPcp .errorTooLongActionVlanPcp (validateVlanPcp vlanPcp.vlanPcp)

def validateActionStripVlan (action : ℕ) : Access ValidationCode := do
  let stripVlan ← ntohActionHeader action
  return checkFixedAction stripVlan .ofpatStripVlan 8
    .errorTooShortActionStripVlan .errorTooLongActionStripVlan .success

def validateActionSetDlSrc (action : ℕ) : Access ValidationCode := do
  let dlSrc ← ntohActionDlAddr action
  return checkFixedAction dlSrc.toOfpActionHeader .ofpatSetDlSrc 16
    .errorTooShortActionDlSrc .errorTooLongActionDlSrc .success

def validateActionSetDlDst (action : ℕ) : Access ValidationCode := do
  let dlDst ← ntohActionDlAddr action
  return checkFixedAction dlDst.toOfpActionHeader .ofpatSetDlDst 16
    .errorTooShortActionDlDst .errorTooLongActionDlDst .success

def validateActionSetNwSrc (action : ℕ) : Access ValidationCode := do
  let nwSrc ← ntohActionNwAddr action
  return checkFixedAction nwSrc.toOfpActionHeader .ofpatSetNwSrc 8
    .errorTooShortActionNwSrc .errorTooLongActionNwSrc .success

def validateActionSetNwDst (action : ℕ) : Access ValidationCode := do
  let nwDst ← ntohActionNwAddr action
  return checkFixedAction nwDst.toOfpActionHeader .ofpatSetNwDst 8
    .errorTooShortActionNwDst .errorTooLongActionNwDst .success

/-- The source compares with the size of `ofp_action_nw_addr`, which is the same. -/
def validateActionSetNwTos (action : ℕ) : Access ValidationCode := do
  let nwTos ← ntohActionNwTos action
  return checkFixedAction nwTos.toOfpActionHeader .ofpatSetNwTos 8
    .errorTooShortActionNwTos .errorTooLongActionNwTos (validateNwTos nwTos.nwTos)

def validateActionSetTpSrc (action : ℕ) : Access ValidationCode := do
  let tpSrc ← ntohActionTpPort action
  return checkFixedAction tpSrc.toOfpActionHeader .ofpatSetTpSrc 8
    .errorTooShortActionTpSrc .errorTooLongActionTpSrc .success

def validateActionSetTpDst (action : ℕ) : Access ValidationCode := do
  let tpDst ← ntohActionTpPort action
  return checkFixedAction tpDst.toOfpActionHeader .ofpatSetTpDst 8
    .errorTooShortActionTpDst .errorTooLongActionTpDst .success

def validateActionEnqueue (action : ℕ) : Access ValidationCode := do
  let enqueue ← ntohActionEnqueue action
  return checkFixedAction enqueue.toOfpActionHeader .ofpatEnqueue 16
    .errorTooShortActionEnqueue .errorTooLongActionEnqueue (validatePhyPortNo enqueue.port)

def validateActionVendor (action : ℕ) : Access ValidationCode := do
  if (← ntohsAt action) ≠ OfpActionType.ofpatVendor.value then return .errorInvalidActionType
  if (← ntohsAt (action+2)) < 8 then return .errorTooShortActionVendor
  return .success

def validateAction (action : ℕ) : Access ValidationCode := do
  if (← ntohsAt (action+2)) < 8 then return .errorTooShortAction
  match OfpActionType.ofValue (← ntohsAt action) with
  | some .ofpatOutput => validateActionOutput action
  | some .ofpatSetVlanVid => validateActionSetVlanVid action
  | some .ofpatSetVlanPcp => validateActionSetVlanPcp action
  | some .ofpatStripVlan => validateActionStripVlan action
  | some .ofpatSetDlSrc => validateActionSetDlSrc action
  | some .ofpatSetDlDst => validateActionSetDlDst action
  | some .ofpatSetNwSrc => validateActionSetNwSrc action
  | some .ofpatSetNwDst => validateActionSetNwDst action
  | some .ofpatSetNwTos => validateActionSetNwTos action
  | some .ofpatSetTpSrc => validateActionSetTpSrc action
  | some .ofpatSetTpDst => validateActionSetTpDst action
  | some .ofpatEnqueue => validateActionEnqueue action
  | some .ofpatVendor => validateActionVendor action
  | none => return .errorUndefinedActionType

/-- The offset is 16 bits wide. -/
def nextAction (actionsHead offset : ℕ) : Access ℕ := do
  return (offset+(← ntohsAt (actionsHead+offset+2)))%65536

def validateActions (actionsHead length : ℕ) : Access ValidationCode :=
  walk (fun offset => offset < length) (fun offset => validateAction (actionsHead+offset))
    (nextAction actionsHead) 0

/-- `if ( length > 0 )` in front of `validate_actions`, as its callers have it. -/
def validateActionList (actionsHead length : ℕ) : Access ValidationCode :=
  if length > 0 then ensure (validateActions actionsHead length) (return .success) else return .success

/-- What the check of one action demands of its bytes: the length of its struct,
and a well-formed field where there is one to check. -/
def ActionAccepted (mem : Bytes) (action : ℕ) : Prop :=
  match OfpActionType.ofValue (be16 mem action) with
  | some .ofpatOutput => be16 mem (action+2) = 8 ∧ validatePhyPortNo (be16 mem (action+4)) = .success
  | some .ofpatSetVlanVid => be16 mem (action+2) = 8 ∧ validateVlanVid (be16 mem (action+4)) = .success
  | some .ofpatSetVlanPcp => be16 mem (action+2) = 8 ∧ validateVlanPcp (mem (action+4)).toNat = .success
  | some .ofpatSetNwTos => be16 mem (action+2) = 8 ∧ validateNwTos (mem (action+4)).toNat = .success
  | some .ofpatSetDlSrc | some .ofpatSetDlDst => be16 mem (action+2) = 16
  | some .ofpatEnqueue => be16 mem (action+2) = 16 ∧ validatePhyPortNo (be16 mem (action+4)) = .success
  | some .ofpatVendor => 8 ≤ be16 mem (action+2)
  | some _ => be16 mem (action+2) = 8
  | none => False

def actionExtent (mem : Bytes) (action : ℕ) : ℕ :=
  if be16 mem (action+2) < 8 then 4 else
  match OfpActionType.ofValue (be16 mem action) with
  | some .ofpatOutput | some .ofpatSetNwSrc | some .ofpatSetNwDst => 8
  | some .ofpatSetVlanVid | some .ofpatSetTpSrc | some .ofpatSetTpDst => 6
  | some .ofpatSetVlanPcp | some .ofpatSetNwTos => 5
  | some .ofpatSetDlSrc | some .ofpatSetDlDst => 10
  | some .ofpatEnqueue => 16
  | some .ofpatStripVlan | some .ofpatVendor | none => 4

/-- The offsets the walk comes through, the last of them past the end of the list. -/
def ActionOffset (mem : Bytes) (actionsHead length : ℕ) : ℕ → Prop :=
  Visits (fun offset => offset < length) (fun offset => ActionAccepted mem (actionsHead+offset))
    (fun offset => (offset+be16 mem (actionsHead+offset+2))%65536) 0

def ActionsAccepted (mem : Bytes) (actionsHead length : ℕ) : Prop :=
  ∃ offset, ActionOffset mem actionsHead length offset ∧ length ≤ offset

def ActionsInside (n : ℕ) (mem : Bytes) (actionsHead length : ℕ) : Prop :=
  ∀ offset, ActionOffset mem actionsHead length offset → offset < length →
    actionsHead+offset+actionExtent mem (actionsHead+offset) ≤ n

section Rules
variable {n : ℕ} {mem : Bytes}

@[simp] theorem returns_ntohActionHeader (src : ℕ) (h : OfpActionHeader) :
    Returns (ntohActionHeader src) mem h ↔ ⟨be16 mem src,be16 mem (src+2)⟩ = h := by
  simp [ntohActionHeader]

@[simp] theorem within_ntohActionHeader (src : ℕ) : Within n (ntohActionHeader src) mem ↔ src+4 ≤ n := by
  simp [ntohActionHeader]
  omega

theorem checkFixedAction_eq_success_iff {h : OfpActionHeader} {type : OfpActionType} {size : ℕ}
    {tooShort tooLong fields : ValidationCode} (hs : tooShort ≠ .success) (hl : tooLong ≠ .success) :
    checkFixedAction h type size tooShort tooLong fields = .success ↔
      h.type = type.value ∧ h.len = size ∧ fields = .success := by
  unfold checkFixedAction
  grind

theorem ActionAccepted.vendor {action : ℕ} (htype : be16 mem action = 0xffff) (hlen : 8 ≤ be16 mem (action+2)) :
    ActionAccepted mem action := by
  rw [ActionAccepted,show OfpActionType.ofValue (be16 mem action) = some .ofpatVendor from
    (OfpActionType.ofValue_eq_some_iff _ _).mpr htype.symm]
  exact hlen

theorem returns_validateAction (action : ℕ) :
    Returns (validateAction action) mem .success ↔ ActionAccepted mem action := by
  simp only [validateAction,returns_bind,returns_ite,returns_ntohsAt,exists_eq_left',returns_pure,
    reduceCtorEq,if_false_left,Nat.not_lt,ActionAccepted]
  cases h : OfpActionType.ofValue (be16 mem action) with
  | none => simp
  | some type =>
    have htype := (OfpActionType.ofValue_eq_some_iff _ _).mp h
    -- the length test in front is implied by the one of each type
    cases type <;>
      simp [validateActionOutput,validateActionSetVlanVid,validateActionSetVlanPcp,validateActionStripVlan,
        validateActionSetDlSrc,validateActionSetDlDst,validateActionSetNwSrc,validateActionSetNwDst,
        validateActionSetNwTos,validateActionSetTpSrc,validateActionSetTpDst,validateActionEnqueue,
        validateActionVendor,ntohActionOutput,ntohActionVlanVid,ntohActionVlanPcp,ntohActionDlAddr,
        ntohActionNwAddr,ntohActionNwTos,ntohActionTpPort,ntohActionEnqueue,
        checkFixedAction_eq_success_iff,← htype] <;>
      omega

theorem four_le_actionExtent (mem : Bytes) (action : ℕ) : 4 ≤ actionExtent mem action := by
  unfold actionExtent
  split
  · exact Nat.le_refl 4
  · split <;> decide

theorem within_validateAction (action : ℕ) :
    Within n (validateAction action) mem ↔ action+actionExtent mem action ≤ n := by
  simp only [validateAction,within_bind,within_ite,within_ntohsAt,returns_ntohsAt,forall_eq',within_pure,
    implies_true,true_and]
  by_cases hlen : be16 mem (action+2) < 8
  · simp [actionExtent,hlen]
    omega
  · cases h : OfpActionType.ofValue (be16 mem action) with
    | none =>
      simp [actionExtent,hlen,h]
      omega
    | some type =>
      have htype := (OfpActionType.ofValue_eq_some_iff _ _).mp h
      cases type <;>
        simp [validateActionOutput,validateActionSetVlanVid,validateActionSetVlanPcp,validateActionStripVlan,
          validateActionSetDlSrc,validateActionSetDlDst,validateActionSetNwSrc,validateActionSetNwDst,
          validateActionSetNwTos,validateActionSetTpSrc,validateActionSetTpDst,validateActionEnqueue,
          validateActionVendor,ntohActionOutput,ntohActionVlanVid,ntohActionVlanPcp,ntohActionDlAddr,
          ntohActionNwAddr,ntohActionNwTos,ntohActionTpPort,ntohActionEnqueue,within_bytesAt,
          actionExtent,hlen,← htype] <;>
        omega

theorem returns_nextAction (actionsHead offset offset' : ℕ) :
    Returns (nextAction actionsHead offset) mem offset' ↔
      (offset+be16 mem (actionsHead+offset+2))%65536 = offset' := by
  simp [nextAction]

theorem returns_validateActions (actionsHead length : ℕ) :
    Returns (validateActions actionsHead length) mem .success ↔ ActionsAccepted mem actionsHead length := by
  rw [validateActions,returns_walk (fun offset => returns_validateAction _) (returns_nextAction actionsHead)]
  simp [ActionsAccepted,ActionOffset]

theorem within_validateActions (actionsHead length : ℕ) :
    Within n (validateActions actionsHead length) mem ↔ ActionsInside n mem actionsHead length := by
  rw [validateActions,within_walk (fun offset => returns_validateAction _) (returns_nextAction actionsHead)]
  refine forall_congr' (fun offset => imp_congr_right (fun _ => ?_))
  have hheader := four_le_actionExtent mem (actionsHead+offset)
  simp only [decide_eq_true_eq,within_validateAction,nextAction,within_bind,within_ntohsAt,within_pure,
    implies_true,and_true]
  refine imp_congr_right (fun _ => and_iff_left_of_imp (fun h _ => ?_))
  omega

@[simp] theorem returns_validateActionList (actionsHead length : ℕ) :
    Returns (validateActionList actionsHead length) mem .success ↔ ActionsAccepted mem actionsHead length := by
  rcases Nat.eq_zero_or_pos length with rfl | h
  · simpa [validateActionList] using ⟨0,.refl,Nat.le_refl 0⟩
  · simp [validateActionList,h,returns_validateActions]

@[simp] theorem within_validateActionList (actionsHead length : ℕ) :
    Within n (validateActionList actionsHead length) mem ↔ ActionsInside n mem actionsHead length := by
  rcases Nat.eq_zero_or_pos length with rfl | h
  · simp [validateActionList,ActionsInside]
  · simp [validateActionList,h,within_validateActions]

end Rules
end OpenFlowController.Check
