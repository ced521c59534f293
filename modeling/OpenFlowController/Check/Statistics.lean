import OpenFlowController.Check.Messages

/-! # Statistics requests and replies

Every request goes through one prologue and every reply through one of two; the
flow reply then walks its entries with a 16-bit count of the bytes left.
-/
namespace OpenFlowController.Check
open Memory Access Protocol

def checkStatsRequest (message : Message) (type : OfpStatsTypes) (minLength maxLength : ℕ) :
    Access ValidationCode :=
  ensure (validateHeader message .ofptStatsRequest minLength maxLength) do
  if (← ntohsAt 8) ≠ type.value then return .errorInvalidStatsType
  if (← ntohsAt 10) ≠ 0 then return .errorInvalidStatsRequestFlags
  return .success

def validateDescStatsRequest (message : Message) : Access ValidationCode :=
  checkStatsRequest message .ofpstDesc 12 12

def validateMatchStatsRequest (message : Message) (type : OfpStatsTypes) : Access ValidationCode :=
  ensure (checkStatsRequest message type 56 56) do
  let m ← ntohMatch 12
  ensure (return validateMatch m) do
  ensure (do return validatePhyPortNo (← ntohsAt 54)) do
  return .success

def validateFlowStatsRequest (message : Message) : Access ValidationCode :=
  validateMatchStatsRequest message .ofpstFlow

def validateAggregateStatsRequest (message : Message) : Access ValidationCode :=
  validateMatchStatsRequest message .ofpstAggregate

def validateTableStatsRequest (message : Message) : Access ValidationCode :=
  checkStatsRequest message .ofpstTable 12 12

def validatePortStatsRequest (message : Message) : Access ValidationCode :=
  ensure (checkStatsRequest message .ofpstPort 20 20) do
  let portNo ← ntohsAt 12
  ensure (return validatePhyPortNo portNo) do
  if portNo > ofppMax ∧ portNo ≠ ofppNone ∧ portNo ≠ ofppLocal then return .errorInvalidPortNo
  return .success

def validateQueueStatsRequest (message : Message) : Access ValidationCode :=
  ensure (checkStatsRequest message .ofpstQueue 20 20) do
  ensure (do return validatePhyPortNo (← ntohsAt 12)) do
  return .success

def validateVendorStatsRequest (message : Message) : Access ValidationCode :=
  checkStatsRequest message .ofpstVendor 16 ushrtMax

/-- The body type is read before the length of the message is known. -/
def validateStatsRequest (message : Message) : Access ValidationCode := do
  match OfpStatsTypes.ofValue (← ntohsAt 8) with
  | some .ofpstDesc => validateDescStatsRequest message
  | some .ofpstFlow => validateFlowStatsRequest message
  | some .ofpstAggregate => validateAggregateStatsRequest message
  | some .ofpstTable => validateTableStatsRequest message
  | some .ofpstPort => validatePortStatsRequest message
  | some .ofpstQueue => validateQueueStatsRequest message
  | some .ofpstVendor => validateVendorStatsRequest message
  | none => return .errorUnsupportedStatsType

/-- A reply in one part: no flag is defined for it. -/
def validateSingleStatsReply (message : Message) (bodyLength : ℕ) : Access ValidationCode :=
  ensure (validateHeader message .ofptStatsReply 12 (12+bodyLength)) do
  if (← ntohsAt 10) ≠ 0 then return .errorInvalidStatsReplyFlags
  return .success

def validateDescStatsReply (message : Message) : Access ValidationCode :=
  validateSingleStatsReply message 1056

def validateAggregateStatsReply (message : Message) : Access ValidationCode :=
  validateSingleStatsReply message 24

def checkStatsReply (message : Message) : Access ValidationCode :=
  ensure (validateHeader message .ofptStatsReply 12 ushrtMax) do
  if bitsOutside (← ntohsAt 10) ofpsfReplyMore ≠ 0 then return .errorInvalidStatsReplyFlags
  return .success

def validateStatsRecords (check : ℕ → Access ValidationCode) (size length : ℕ) : Access ValidationCode :=
  if length%size ≠ 0 then return .errorInvalidLength
  else validateRecords check size 12 (length/size)

def validateTableStatsReply (message : Message) : Access ValidationCode :=
  ensure (checkStatsReply message) do
  validateStatsRecords (fun tableStats => do return validateWildcards (← ntohlAt (tableStats+36))) 64
    (sub16 (← ntohsAt 2) 12)

def validatePortStatsReply (message : Message) : Access ValidationCode :=
  ensure (checkStatsReply message) do
  validateStatsRecords (fun portStats => do return validatePhyPortNo (← ntohsAt portStats)) 104
    (sub16 (← ntohsAt 2) 12)

def validateQueueStatsReply (message : Message) : Access ValidationCode :=
  ensure (checkStatsReply message) do
  validateStatsRecords (fun queueStats => do return validatePhyPortNo (← ntohsAt queueStats)) 32
    (sub16 (← ntohsAt 2) 12)

def validateVendorStatsReply (message : Message) : Access ValidationCode :=
  checkStatsReply message

/-- The body of the loop of `validate_flow_stats_reply` up to the end of the actions. -/
def validateFlowStatsEntry (flowStats : ℕ) : Access ValidationCode := do
  let m ← ntohMatch (flowStats+4)
  ensure (return validateMatch m) do
  ensure (do
    if m.Exact then
      if (← ntohsAt (flowStats+52)) < ushrtMax then return .errorInvalidFlowPriority
    return .success) do
  validateActionList (flowStats+88) (sub16 (← ntohsAt flowStats) 88)

/-- The 16-bit count of bytes left and the offset of the next entry. -/
def nextFlowStats (s : ℕ × ℕ) : Access (ℕ × ℕ) := do
  return (sub16 s.1 (← ntohsAt s.2),s.2+(← ntohsAt s.2))

def validateFlowStatsReply (message : Message) : Access ValidationCode :=
  ensure (checkStatsReply message) do
  walk (fun s => s.1 > 0) (fun s => validateFlowStatsEntry s.2) nextFlowStats (sub16 (← ntohsAt 2) 12,12)

def validateStatsReply (message : Message) : Access ValidationCode := do
  match OfpStatsTypes.ofValue (← ntohsAt 8) with
  | some .ofpstDesc => validateDescStatsReply message
  | some .ofpstFlow => validateFlowStatsReply message
  | some .ofpstAggregate => validateAggregateStatsReply message
  | some .ofpstTable => validateTableStatsReply message
  | some .ofpstPort => validatePortStatsReply message
  | some .ofpstQueue => validateQueueStatsReply message
  | some .ofpstVendor => validateVendorStatsReply message
  | none => return .errorUnsupportedStatsType

def FlowStatsHeadAccepted (mem : Bytes) (flowStats : ℕ) : Prop :=
  validateMatch (matchAt mem (flowStats+4)) = .success ∧
    ExactPriority mem (matchAt mem (flowStats+4)) (flowStats+52)

def flowActionsLength (mem : Bytes) (flowStats : ℕ) : ℕ := sub16 (be16 mem flowStats) 88

def FlowStatsAccepted (mem : Bytes) (flowStats : ℕ) : Prop :=
  FlowStatsHeadAccepted mem flowStats ∧
    ActionsAccepted mem (flowStats+88) (flowActionsLength mem flowStats)

/-- The parts of an entry that its check reads are below `n`: the match, the
priority of an exact match, and the actions of an accepted head. -/
structure FlowStatsInside (n : ℕ) (mem : Bytes) (flowStats : ℕ) : Prop where
  matched : flowStats+44 ≤ n
  priority : validateMatch (matchAt mem (flowStats+4)) = .success →
    (matchAt mem (flowStats+4)).Exact → flowStats+54 ≤ n
  actions : FlowStatsHeadAccepted mem flowStats →
    ActionsInside n mem (flowStats+88) (flowActionsLength mem flowStats)

def flowStatsAfter (mem : Bytes) (s : ℕ × ℕ) : ℕ × ℕ := (sub16 s.1 (be16 mem s.2),s.2+be16 mem s.2)

def FlowStatsCursor (mem : Bytes) : ℕ × ℕ → ℕ × ℕ → Prop :=
  Visits (fun s => s.1 > 0) (fun s => FlowStatsAccepted mem s.2) (flowStatsAfter mem)

def StatsReplyAccepted (message : Message) : Prop :=
  HeaderAccepted message .ofptStatsReply 12 ushrtMax ∧
    bitsOutside (be16 message.data 10) ofpsfReplyMore = 0

def SingleReplyAccepted (message : Message) (bodyLength : ℕ) : Prop :=
  HeaderAccepted message .ofptStatsReply 12 (12+bodyLength) ∧ be16 message.data 10 = 0

/-- The body is a whole number of records, and each of them is accepted. -/
def RecordsReplyAccepted (message : Message) (size : ℕ) (accepted : ℕ → Prop) : Prop :=
  StatsReplyAccepted message ∧ (message.length-12)%size = 0 ∧
    ∀ i < (message.length-12)/size, accepted (12+i*size)

/-- The entry loop ends with no bytes left. -/
def FlowReplyAccepted (message : Message) : Prop :=
  StatsReplyAccepted message ∧ ∃ s, FlowStatsCursor message.data (message.length-12,12) s ∧ s.1 = 0

def StatsReplyBodyAccepted (message : Message) : Prop :=
  match OfpStatsTypes.ofValue (be16 message.data 8) with
  | some .ofpstDesc => SingleReplyAccepted message 1056
  | some .ofpstFlow => FlowReplyAccepted message
  | some .ofpstAggregate => SingleReplyAccepted message 24
  | some .ofpstTable => RecordsReplyAccepted message 64
    (fun tableStats => validateWildcards (be32 message.data (tableStats+36)) = .success)
  | some .ofpstPort => RecordsReplyAccepted message 104
    (fun portStats => validatePhyPortNo (be16 message.data portStats) = .success)
  | some .ofpstQueue => RecordsReplyAccepted message 32
    (fun queueStats => validatePhyPortNo (be16 message.data queueStats) = .success)
  | some .ofpstVendor => StatsReplyAccepted message
  | none => False

def FlowStatsReplyInside (message : Message) : Prop :=
  StatsReplyAccepted message → ∀ s, FlowStatsCursor message.data (message.length-12,12) s → 0 < s.1 →
    FlowStatsInside message.length message.data s.2

section Rules
variable {n : ℕ} {mem : Bytes} {message : Message}

theorem within_checkStatsRequest {type : OfpStatsTypes} {minLength maxLength : ℕ} (h12 : 12 ≤ minLength) :
    Within message.length (checkStatsRequest message type minLength maxLength) message.data := by
  refine within_afterHeader (fun h => ?_)
  have hl := h.least
  simp
  omega

theorem least_of_checkStatsRequest {type : OfpStatsTypes} {minLength maxLength : ℕ}
    (h : Returns (checkStatsRequest message type minLength maxLength) message.data .success) :
    minLength ≤ message.length := by
  simp only [checkStatsRequest,returns_ensure_success,returns_validateHeader] at h
  exact h.1.least

theorem within_afterStatsRequest {type : OfpStatsTypes} {minLength maxLength : ℕ} {rest : Access ValidationCode}
    (h12 : 12 ≤ minLength) (hrest : minLength ≤ message.length → Within message.length rest message.data) :
    Within message.length (ensure (checkStatsRequest message type minLength maxLength) rest) message.data := by
  rw [within_ensure]
  exact ⟨within_checkStatsRequest h12,fun h => hrest (least_of_checkStatsRequest h)⟩

theorem within_validateMatchStatsRequest (type : OfpStatsTypes) :
    Within message.length (validateMatchStatsRequest message type) message.data := by
  refine within_afterStatsRequest (by omega) (fun hl => ?_)
  simp [within_ntohMatch]
  omega

theorem within_validatePortStatsRequest :
    Within message.length (validatePortStatsRequest message) message.data := by
  refine within_afterStatsRequest (by omega) (fun hl => ?_)
  simp
  omega

theorem within_validateQueueStatsRequest :
    Within message.length (validateQueueStatsRequest message) message.data := by
  refine within_afterStatsRequest (by omega) (fun hl => ?_)
  simp
  omega

/-- Only the read of the body type is unguarded. -/
theorem within_validateStatsRequest :
    Within message.length (validateStatsRequest message) message.data ↔ 10 ≤ message.length := by
  simp only [validateStatsRequest,within_bind,within_ntohsAt,returns_ntohsAt,forall_eq']
  refine ⟨fun h => h.1,fun h => ⟨h,?_⟩⟩
  cases OfpStatsTypes.ofValue (be16 message.data 8) with
  | none => exact within_pure _
  | some type =>
    cases type with
    | ofpstDesc => exact within_checkStatsRequest (by omega)
    | ofpstFlow => exact within_validateMatchStatsRequest _
    | ofpstAggregate => exact within_validateMatchStatsRequest _
    | ofpstTable => exact within_checkStatsRequest (by omega)
    | ofpstPort => exact within_validatePortStatsRequest
    | ofpstQueue => exact within_validateQueueStatsRequest
    | ofpstVendor => exact within_checkStatsRequest (by omega)

theorem within_validateSingleStatsReply (bodyLength : ℕ) :
    Within message.length (validateSingleStatsReply message bodyLength) message.data := by
  refine within_afterHeader (fun h => ?_)
  have hl := h.least
  simp
  omega

theorem within_checkStatsReply : Within message.length (checkStatsReply message) message.data := by
  refine within_afterHeader (fun h => ?_)
  have hl := h.least
  simp
  omega

theorem returns_checkStatsReply :
    Returns (checkStatsReply message) message.data .success ↔ StatsReplyAccepted message := by
  simp [checkStatsReply,returns_validateHeader,StatsReplyAccepted]

theorem returns_validateSingleStatsReply (bodyLength : ℕ) :
    Returns (validateSingleStatsReply message bodyLength) message.data .success ↔
      SingleReplyAccepted message bodyLength := by
  simp [validateSingleStatsReply,returns_validateHeader,SingleReplyAccepted]

theorem returns_validateRecordsReply {check : ℕ → Access ValidationCode} {accepted : ℕ → Prop}
    (hcheck : ∀ record, Returns (check record) message.data .success ↔ accepted record) (size : ℕ) :
    Returns (ensure (checkStatsReply message) do
      validateStatsRecords check size (sub16 (← ntohsAt 2) 12)) message.data .success ↔
        RecordsReplyAccepted message size accepted := by
  rw [returns_ensure_success,returns_checkStatsReply]
  refine and_congr_right (fun h => ?_)
  have hl := h.1.least
  have hm : message.length ≤ 65535 := h.1.most
  simp only [returns_bind,returns_ntohsAt,exists_eq_left',h.1.length]
  rw [sub16_of_le hl (by omega)]
  simp [validateStatsRecords,returns_validateRecords hcheck]

theorem within_validateStatsRecords {check : ℕ → Access ValidationCode} {size length : ℕ}
    (hcheck : ∀ record, record+size ≤ n → Within n (check record) mem) (hlength : 12+length ≤ n) :
    Within n (validateStatsRecords check size length) mem := by
  simp only [validateStatsRecords,within_ite,within_pure,implies_true,true_and,Classical.not_not,ne_eq]
  intro hmod
  refine within_validateRecords _ _ _ _ (fun i hi => hcheck _ ?_)
  have hle := Nat.mul_le_mul_right size (Nat.succ_le_of_lt hi)
  rw [Nat.succ_mul] at hle
  have htotal := Nat.div_mul_le_self length size
  omega

theorem within_validateRecordsReply {check : ℕ → Access ValidationCode} {size : ℕ}
    (hcheck : ∀ record, record+size ≤ message.length → Within message.length (check record) message.data) :
    Within message.length (ensure (checkStatsReply message) do
      validateStatsRecords check size (sub16 (← ntohsAt 2) 12)) message.data := by
  rw [within_ensure,returns_checkStatsReply]
  refine ⟨within_checkStatsReply,fun h => ?_⟩
  have hl := h.1.least
  have hm : message.length ≤ 65535 := h.1.most
  simp only [within_bind,within_ntohsAt,returns_ntohsAt,forall_eq',h.1.length]
  rw [sub16_of_le hl (by omega)]
  exact ⟨by omega,within_validateStatsRecords hcheck (by omega)⟩

theorem within_validateTableStatsReply :
    Within message.length (validateTableStatsReply message) message.data := by
  refine within_validateRecordsReply (fun record h => ?_)
  simp
  omega

theorem within_validatePortStatsReply :
    Within message.length (validatePortStatsReply message) message.data := by
  refine within_validateRecordsReply (fun record h => ?_)
  simp
  omega

theorem within_validateQueueStatsReply :
    Within message.length (validateQueueStatsReply message) message.data := by
  refine within_validateRecordsReply (fun record h => ?_)
  simp
  omega

theorem returns_validateFlowStatsEntry (flowStats : ℕ) :
    Returns (validateFlowStatsEntry flowStats) mem .success ↔ FlowStatsAccepted mem flowStats := by
  have hp := be16_lt mem (flowStats+52)
  have hmax : ¬ be16 mem (flowStats+52) < ushrtMax ↔ be16 mem (flowStats+52) = ushrtMax := by
    unfold ushrtMax
    omega
  simp [validateFlowStatsEntry,FlowStatsAccepted,FlowStatsHeadAccepted,ExactPriority,flowActionsLength,
    and_assoc,← hmax]

theorem within_validateFlowStatsEntry (flowStats : ℕ) :
    Within n (validateFlowStatsEntry flowStats) mem ↔ FlowStatsInside n mem flowStats := by
  have hp := be16_lt mem (flowStats+52)
  have hmax : ushrtMax ≤ be16 mem (flowStats+52) ↔ be16 mem (flowStats+52) = ushrtMax := by
    unfold ushrtMax
    omega
  simp [validateFlowStatsEntry,within_ntohMatch,hmax]
  constructor
  · rintro ⟨hm,hrest⟩
    refine ⟨by omega,fun hv he => ?_,fun hh => ?_⟩
    · have hpr := (hrest hv).1 he
      omega
    · exact ((hrest hh.1).2 hh.2).2
  · rintro ⟨hm,hpr,ha⟩
    refine ⟨by omega,fun hv => ⟨fun he => ?_,fun he => ⟨by omega,ha ⟨hv,he⟩⟩⟩⟩
    have hpr' := hpr hv he
    omega

theorem returns_nextFlowStats (s t : ℕ × ℕ) :
    Returns (nextFlowStats s) mem t ↔ flowStatsAfter mem s = t := by
  simp [nextFlowStats,flowStatsAfter]

theorem returns_validateFlowStatsReply :
    Returns (validateFlowStatsReply message) message.data .success ↔ FlowReplyAccepted message := by
  rw [validateFlowStatsReply,returns_ensure_success,returns_checkStatsReply]
  refine and_congr_right (fun h => ?_)
  have hl := h.1.least
  have hm : message.length ≤ 65535 := h.1.most
  simp only [returns_bind,returns_ntohsAt,exists_eq_left',h.1.length]
  rw [sub16_of_le hl (by omega),
    returns_walk (fun s => returns_validateFlowStatsEntry _) returns_nextFlowStats]
  simp [FlowStatsCursor]

theorem returns_validateStatsReply :
    Returns (validateStatsReply message) message.data .success ↔ StatsReplyBodyAccepted message := by
  simp only [validateStatsReply,StatsReplyBodyAccepted,returns_bind,returns_ntohsAt,exists_eq_left']
  cases OfpStatsTypes.ofValue (be16 message.data 8) with
  | none => simp
  | some type =>
    cases type with
    | ofpstDesc => exact returns_validateSingleStatsReply 1056
    | ofpstFlow => exact returns_validateFlowStatsReply
    | ofpstAggregate => exact returns_validateSingleStatsReply 24
    | ofpstTable => exact returns_validateRecordsReply (fun tableStats => by simp) 64
    | ofpstPort => exact returns_validateRecordsReply (fun portStats => by simp) 104
    | ofpstQueue => exact returns_validateRecordsReply (fun queueStats => by simp) 32
    | ofpstVendor => exact returns_checkStatsReply

theorem FlowStatsCursor.accepted {s : ℕ × ℕ}
    (h : Returns (validateFlowStatsReply message) message.data .success)
    (hs : FlowStatsCursor message.data (message.length-12,12) s) (hpos : 0 < s.1) :
    FlowStatsAccepted message.data s.2 := by
  obtain ⟨-,t,ht,hend⟩ := returns_validateFlowStatsReply.mp h
  unfold FlowStatsCursor at hs ht
  have hacc := Visits.accepted hs ht (by simp [hend]) (by simpa using hpos)
  exact hacc

theorem within_validateFlowStatsReply :
    Within message.length (validateFlowStatsReply message) message.data ↔ FlowStatsReplyInside message := by
  rw [validateFlowStatsReply,within_ensure,returns_checkStatsReply,and_iff_right within_checkStatsReply]
  refine imp_congr_right (fun h => ?_)
  have hl := h.1.least
  have hm : message.length ≤ 65535 := h.1.most
  simp only [within_bind,within_ntohsAt,returns_ntohsAt,forall_eq',h.1.length]
  rw [sub16_of_le hl (by omega),and_iff_right (by omega : 2+1 < message.length),
    within_walk (fun s => returns_validateFlowStatsEntry _) returns_nextFlowStats]
  refine forall_congr' (fun s => imp_congr_right (fun _ => ?_))
  simp only [decide_eq_true_eq,within_validateFlowStatsEntry,nextFlowStats,within_bind,within_ntohsAt,
    returns_ntohsAt,forall_eq',within_pure,implies_true,and_true]
  refine imp_congr_right (fun _ => and_iff_left_of_imp (fun hin _ => ?_))
  have hmatch := hin.matched
  omega

end Rules
end OpenFlowController.Check
