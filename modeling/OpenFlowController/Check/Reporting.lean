import OpenFlowController.Check.ErrorMaps
import OpenFlowController.Check.OpenFlowMessage

/-! # Which rejections can be reported

A rejection is lost when the table of the message type has no row for its code.
For each type the messages rejected in that way are described by their bytes.
-/
namespace OpenFlowController.Check
open Memory Access Protocol

/-- Every code the validation of the message can end with has an OpenFlow error. -/
def RejectionsReported (message : Message) : Prop :=
  ∀ code, Returns (validateOpenflowMessage message) message.data code → code.value < 0 →
    ∃ errorType errorCode,
      ccTransErrorTypeAndCode (message.data 1).toNat code.value = some (errorType,errorCode)

/-- The action is rejected, if at all, for another reason than a length below the
header's or a type of service. -/
def ActionReportable (mem : Bytes) (action : ℕ) : Prop :=
  8 ≤ be16 mem (action+2) ∧
    (be16 mem action = OfpActionType.ofpatSetNwTos.value → be16 mem (action+2) = 8 →
      validateNwTos (mem (action+4)).toNat = .success)

def ActionsReportable (mem : Bytes) (actionsHead length : ℕ) : Prop :=
  ∀ offset, ActionOffset mem actionsHead length offset → offset < length →
    ActionReportable mem (actionsHead+offset)

/-- The type of service is not the first bad field of the match. -/
def MatchReportable (m : OfpMatch) : Prop :=
  validateWildcards m.wildcards = .success → validateVlanVid m.dlVlan = .success →
    validateVlanPcp m.dlVlanPcp = .success → validateNwTos m.nwTos = .success

/-- No action of the list is rejected; the walk over them may go on for ever. -/
def ActionsUnrejected (mem : Bytes) (actionsHead length : ℕ) : Prop :=
  ∀ offset, ActionOffset mem actionsHead length offset → offset < length →
    ActionAccepted mem (actionsHead+offset)

def FlowStatsUnrejected (mem : Bytes) (flowStats : ℕ) : Prop :=
  FlowStatsHeadAccepted mem flowStats ∧
    ActionsUnrejected mem (flowStats+88) (flowActionsLength mem flowStats)

def RecordsUnrejected (message : Message) (size : ℕ) (accepted : ℕ → Prop) : Prop :=
  StatsReplyAccepted message → (message.length-12)%size = 0 ∧
    ∀ i < (message.length-12)/size, accepted (12+i*size)

def FlagsUnrejected (message : Message) : Prop :=
  HeaderAccepted message .ofptStatsReply 12 ushrtMax → bitsOutside (be16 message.data 10) ofpsfReplyMore = 0

def SingleUnrejected (message : Message) (bodyLength : ℕ) : Prop :=
  HeaderAccepted message .ofptStatsReply 12 (12+bodyLength) → be16 message.data 10 = 0

/-- No rejection past the header. -/
def StatsReplyUnrejected (message : Message) : Prop :=
  match OfpStatsTypes.ofValue (be16 message.data 8) with
  | some .ofpstDesc => SingleUnrejected message 1056
  | some .ofpstFlow => FlagsUnrejected message ∧ (StatsReplyAccepted message →
    ∀ s, FlowStatsCursor message.data (message.length-12,12) s → 0 < s.1 → FlowStatsUnrejected message.data s.2)
  | some .ofpstAggregate => SingleUnrejected message 24
  | some .ofpstTable => FlagsUnrejected message ∧ RecordsUnrejected message 64
    (fun tableStats => validateWildcards (be32 message.data (tableStats+36)) = .success)
  | some .ofpstPort => FlagsUnrejected message ∧ RecordsUnrejected message 104
    (fun portStats => validatePhyPortNo (be16 message.data portStats) = .success)
  | some .ofpstQueue => FlagsUnrejected message ∧ RecordsUnrejected message 32
    (fun queueStats => validatePhyPortNo (be16 message.data queueStats) = .success)
  | some .ofpstVendor => FlagsUnrejected message
  | none => False

def QueueUnrejected (mem : Bytes) (queue : ℕ) : Prop :=
  16 ≤ be16 mem (queue+4) ∧
    ∀ offset, PropertyOffset mem (queue+8) (sub16 (be16 mem (queue+4)) 8) offset →
      offset < sub16 (be16 mem (queue+4)) 8 → PropertyAccepted mem (queue+8+offset)

structure QueueConfigUnrejected (message : Message) : Prop where
  port : validatePhyPortNo (be16 message.data 8) = .success
  even : ∀ s, CountedQueue message.data (message.length-16,16) s → s.1 ≤ 8 → s.1 = 0
  queues : (∃ queue, CountedQueue message.data (message.length-16,16) (0,queue)) →
    ∀ s, CheckedQueue message.data (message.length-16,16) s → 8 < s.1 → QueueUnrejected message.data s.2

def Reportable (message : Message) : Prop :=
  match OfpType.ofValue (message.data 1).toNat with
  | some .ofptFeaturesReply =>
    HeaderAccepted message .ofptFeaturesReply 32 ushrtMax → FeaturesBodyAccepted message
  | some .ofptGetConfigReply =>
    HeaderAccepted message .ofptGetConfigReply 12 12 → be16 message.data 8 ≤ ofpcFragMask
  | some .ofptPacketIn =>
    HeaderAccepted message .ofptPacketIn 18 ushrtMax → validatePhyPortNo (be16 message.data 14) = .success
  | some .ofptFlowRemoved =>
    HeaderAccepted message .ofptFlowRemoved 88 88 → validateMatch (matchAt message.data 8) = .success
  | some .ofptPortStatus => HeaderAccepted message .ofptPortStatus 64 64 →
    (message.data 8).toNat ≤ ofpprModify → PhyPortAccepted message.data 16
  | some .ofptPacketOut => HeaderAccepted message .ofptPacketOut 16 ushrtMax →
    validatePhyPortNo (be16 message.data 12) = .success →
      ActionsReportable message.data 16 (be16 message.data 14)
  | some .ofptFlowMod => HeaderAccepted message .ofptFlowMod 72 ushrtMax →
    MatchReportable (matchAt message.data 8) ∧ (FlowModFieldsAccepted message.data →
      ActionsReportable message.data 72 (message.length-72))
  | some .ofptStatsReply => StatsReplyUnrejected message
  | some .ofptQueueGetConfigReply =>
    HeaderAccepted message .ofptQueueGetConfigReply 24 ushrtMax → QueueConfigUnrejected message
  | _ => True

section Rules
variable {message : Message} {mem : Bytes}

theorem unmapped_of_either (type : OfpType) {code error : ValidationCode}
    (h : code = .success ∨ code = error) (he : error ≠ .success) :
    Unmapped type code ↔ code ≠ .success ∧ Unmapped type error := by
  rcases h with rfl | rfl
  · simp
  · simp [he]

theorem unmapped_validatePhyPortNo (type : OfpType) (portNo : ℕ) :
    Unmapped type (validatePhyPortNo portNo) ↔
      validatePhyPortNo portNo ≠ .success ∧ Unmapped type .errorInvalidPortNo :=
  unmapped_of_either type (by unfold validatePhyPortNo; split <;> simp) (by decide)

theorem unmapped_validateWildcards (type : OfpType) (wildcards : ℕ) :
    Unmapped type (validateWildcards wildcards) ↔
      validateWildcards wildcards ≠ .success ∧ Unmapped type .errorInvalidWildcards :=
  unmapped_of_either type (by unfold validateWildcards; split <;> simp) (by decide)

theorem unmapped_validateVlanVid (type : OfpType) (vid : ℕ) : Unmapped type (validateVlanVid vid) ↔
    validateVlanVid vid ≠ .success ∧ Unmapped type .errorInvalidVlanVid :=
  unmapped_of_either type (by unfold validateVlanVid; split <;> simp) (by decide)

theorem unmapped_validateVlanPcp (type : OfpType) (pcp : ℕ) : Unmapped type (validateVlanPcp pcp) ↔
    validateVlanPcp pcp ≠ .success ∧ Unmapped type .errorInvalidVlanPcp :=
  unmapped_of_either type (by unfold validateVlanPcp; split <;> simp) (by decide)

theorem unmapped_validateNwTos (type : OfpType) (tos : ℕ) : Unmapped type (validateNwTos tos) ↔
    validateNwTos tos ≠ .success ∧ Unmapped type .errorInvalidNwTos :=
  unmapped_of_either type (by unfold validateNwTos; split <;> simp) (by decide)

theorem unmapped_followedBy (type : OfpType) (first rest : ValidationCode) :
    Unmapped type (first.followedBy rest) ↔
      Unmapped type first ∨ first = .success ∧ Unmapped type rest := by
  simp only [ValidationCode.followedBy,ValidationCode.value_neg_iff]
  by_cases h : first = .success
  · simp [h]
  · simp [h]

theorem unmapped_ite (type : OfpType) (c : Prop) [Decidable c] (a b : ValidationCode) :
    Unmapped type (if c then a else b) ↔ if c then Unmapped type a else Unmapped type b := by
  split <;> rfl

theorem not_endsIn_validateHeader (t type : OfpType) (minLength maxLength : ℕ) :
    ¬ EndsIn (Unmapped t) (validateHeader message type minLength maxLength) mem := by
  obtain ⟨hv,hs,hl,hu,hi⟩ := not_unmapped_header t
  simp [validateHeader,hv,hs,hl,hu,hi]

theorem endsIn_afterHeader (t type : OfpType) (minLength maxLength : ℕ) (rest : Access ValidationCode) :
    EndsIn (Unmapped t) (ensure (validateHeader message type minLength maxLength) rest) message.data ↔
      HeaderAccepted message type minLength maxLength ∧ EndsIn (Unmapped t) rest message.data := by
  rw [endsIn_ensure (not_unmapped_success t),returns_validateHeader]
  exact or_iff_right (not_endsIn_validateHeader t type minLength maxLength)

theorem endsIn_validateWithLength (type : OfpType) (minLength : ℕ) :
    ¬ EndsIn (Unmapped type) (validateWithLength message type minLength) message.data := by
  rw [validateWithLength,endsIn_afterHeader]
  rintro ⟨h,hr⟩
  -- the header check has compared the lengths already
  simp [h.length] at hr

theorem endsIn_validatePhyPort {type : OfpType} (h : errorMaps type = requestErrors ∨ type = .ofptPortStatus)
    (mem : Bytes) (port : ℕ) : EndsIn (Unmapped type) (validatePhyPort port) mem ↔ ¬ PhyPortAccepted mem port := by
  have hcodes : Unmapped type .errorInvalidPortNo ∧ Unmapped type .errorInvalidPortConfig ∧
      Unmapped type .errorInvalidPortState ∧ Unmapped type .errorInvalidPortFeatures := by
    rcases h with h | rfl
    · simp only [unmapped_iff_of_errorMaps_eq h]
      decide
    · decide
  obtain ⟨hn,hc,hs,hf⟩ := hcodes
  rw [← returns_validatePhyPort]
  simp [validatePhyPort,ntohPhyPort,endsIn_ensure,unmapped_validatePhyPortNo,hn,hc,hs,hf]
  by_cases hp : validatePhyPortNo (be16 mem port) = .success
  · simp [hp,imp_iff_not_or]
  · simp [hp]

theorem endsIn_validateFeaturesReply :
    EndsIn (Unmapped .ofptFeaturesReply) (validateFeaturesReply message) message.data ↔
      HeaderAccepted message .ofptFeaturesReply 32 ushrtMax ∧ ¬ FeaturesBodyAccepted message := by
  rw [validateFeaturesReply,endsIn_afterHeader]
  refine and_congr_right (fun h => ?_)
  have hl := h.least
  have hm : message.length ≤ 65535 := h.most
  have hlen := sub16_of_le hl (Nat.lt_of_le_of_lt hm (by decide))
  have htable : Unmapped .ofptFeaturesReply .errorNoTableAvailable := by decide
  have hlength : Unmapped .ofptFeaturesReply .errorInvalidLength := by decide
  have hports := endsIn_validateRecords (not_unmapped_success .ofptFeaturesReply)
    returns_validatePhyPort (endsIn_validatePhyPort (Or.inl rfl) message.data) 48 32 ((message.length-32)/48)
  simp [h.length,hlen,FeaturesBodyAccepted,validatePhyPorts,hports,htable,hlength,endsIn_ensure]
  refine imp_congr_right (fun _ => imp_congr_right (fun _ => and_iff_right_of_imp ?_))
  rintro ⟨i,hi,-⟩
  omega

theorem endsIn_validateSwitchConfig {t type : OfpType} : EndsIn (Unmapped t) (validateSwitchConfig message type)
    message.data ↔ HeaderAccepted message type 12 12 ∧ ofpcFragMask < be16 message.data 8 ∧
      Unmapped t .errorInvalidSwitchConfig := by
  simp [validateSwitchConfig,endsIn_afterHeader]

theorem endsIn_validatePacketIn : EndsIn (Unmapped .ofptPacketIn) (validatePacketIn message) message.data ↔
    HeaderAccepted message .ofptPacketIn 18 ushrtMax ∧
      validatePhyPortNo (be16 message.data 14) ≠ .success := by
  have hport : Unmapped .ofptPacketIn .errorInvalidPortNo := by decide
  have hreason : ¬ Unmapped .ofptPacketIn .errorInvalidPacketInReason := by decide
  rw [validatePacketIn,endsIn_afterHeader]
  simp [endsIn_ensure,unmapped_validatePhyPortNo,hport,hreason]

theorem unmapped_validateMatch (type : OfpType) (hw : Unmapped type .errorInvalidWildcards)
    (hv : Unmapped type .errorInvalidVlanVid) (hp : Unmapped type .errorInvalidVlanPcp)
    (ht : Unmapped type .errorInvalidNwTos) (m : OfpMatch) :
    Unmapped type (validateMatch m) ↔ validateMatch m ≠ .success := by
  simp [validateMatch,unmapped_followedBy,unmapped_validateWildcards,unmapped_validateVlanVid,
    unmapped_validateVlanPcp,unmapped_validateNwTos,hw,hv,hp,ht]
  grind

theorem endsIn_validateFlowRemoved :
    EndsIn (Unmapped .ofptFlowRemoved) (validateFlowRemoved message) message.data ↔
      HeaderAccepted message .ofptFlowRemoved 88 88 ∧ validateMatch (matchAt message.data 8) ≠ .success := by
  have hm := unmapped_validateMatch .ofptFlowRemoved (by decide) (by decide) (by decide) (by decide)
  have hpriority : ¬ Unmapped .ofptFlowRemoved .errorInvalidFlowPriority := by decide
  have hreason : ¬ Unmapped .ofptFlowRemoved .errorInvalidFlowRemovedReason := by decide
  rw [validateFlowRemoved,endsIn_afterHeader]
  simp [endsIn_ensure,hm,hpriority,hreason]

theorem endsIn_validatePortStatus :
    EndsIn (Unmapped .ofptPortStatus) (validatePortStatus message) message.data ↔
      HeaderAccepted message .ofptPortStatus 64 64 ∧ (message.data 8).toNat ≤ ofpprModify ∧
        ¬ PhyPortAccepted message.data 16 := by
  have hreason : ¬ Unmapped .ofptPortStatus .errorInvalidPortStatusReason := by decide
  have hport := @endsIn_validatePhyPort .ofptPortStatus (Or.inr rfl) message.data 16
  rw [validatePortStatus,endsIn_afterHeader]
  simp [endsIn_ensure,hport,hreason]

theorem unmapped_checkFixedAction {t : OfpType} {tooShort tooLong : ValidationCode} {unmapped : Prop}
    (ht : Unmapped t .errorInvalidActionType ↔ unmapped) (hs : Unmapped t tooShort ↔ unmapped)
    (hl : Unmapped t tooLong ↔ unmapped) (h : OfpActionHeader) (type : OfpActionType) (size : ℕ)
    (fields : ValidationCode) : Unmapped t (checkFixedAction h type size tooShort tooLong fields) ↔
      unmapped ∧ ¬ (h.type = type.value ∧ h.len = size) ∨
        h.type = type.value ∧ h.len = size ∧ Unmapped t fields := by
  simp only [checkFixedAction,unmapped_ite,ht,hs,hl]
  grind

/-- A too short header and a bad type of service never have a row; the other
rejections of an action all have one or all have none. -/
theorem endsIn_validateAction {type : OfpType} {unmapped : Prop}
    (hrows : ∀ row ∈ actionErrors, (Unmapped type row.errorNo ↔ unmapped))
    (hshort : Unmapped type .errorTooShortAction) (htos : Unmapped type .errorInvalidNwTos) (mem : Bytes)
    (action : ℕ) : EndsIn (Unmapped type) (validateAction action) mem ↔
      ¬ ActionReportable mem action ∨ unmapped ∧ ¬ ActionAccepted mem action := by
  simp only [actionErrors,List.forall_mem_cons,List.not_mem_nil,IsEmpty.forall_iff,implies_true,and_true] at hrows
  have hfixed {tooShort tooLong : ValidationCode} (hs : Unmapped type tooShort ↔ unmapped)
      (hl : Unmapped type tooLong ↔ unmapped) := unmapped_checkFixedAction hrows.1 hs hl
  simp only [validateAction,endsIn_bind,endsIn_ite,endsIn_pure,returns_ntohsAt,exists_eq_left',hshort,
    if_true_left,ActionReportable,ActionAccepted]
  cases hkind : OfpActionType.ofValue (be16 mem action) with
  | none =>
    have hne : be16 mem action ≠ OfpActionType.ofpatSetNwTos.value := by
      intro he
      rw [he,OfpActionType.ofValue_value] at hkind
      cases hkind
    simp [hrows,hne,imp_iff_not_or]
  | some kind =>
    have hvalue := (OfpActionType.ofValue_eq_some_iff _ _).mp hkind
    cases kind <;>
      simp [validateActionOutput,validateActionSetVlanVid,validateActionSetVlanPcp,validateActionStripVlan,
        validateActionSetDlSrc,validateActionSetDlDst,validateActionSetNwSrc,validateActionSetNwDst,
        validateActionSetNwTos,validateActionSetTpSrc,validateActionSetTpDst,validateActionEnqueue,
        validateActionVendor,ntohActionOutput,ntohActionVlanVid,ntohActionVlanPcp,ntohActionDlAddr,
        ntohActionNwAddr,ntohActionNwTos,ntohActionTpPort,ntohActionEnqueue,hfixed,
        unmapped_validatePhyPortNo,unmapped_validateVlanVid,unmapped_validateVlanPcp,unmapped_validateNwTos,
        hrows,htos,← hvalue,OfpActionType.value] <;>
      grind

theorem endsIn_mappedAction {type : OfpType} (h : type = .ofptPacketOut ∨ type = .ofptFlowMod) (mem : Bytes)
    (action : ℕ) : EndsIn (Unmapped type) (validateAction action) mem ↔ ¬ ActionReportable mem action := by
  have hrows : ∀ row ∈ actionErrors, (Unmapped type row.errorNo ↔ False) := by
    rcases h with rfl | rfl <;> decide
  have hshort : Unmapped type .errorTooShortAction := by rcases h with rfl | rfl <;> decide
  have htos : Unmapped type .errorInvalidNwTos := by rcases h with rfl | rfl <;> decide
  rw [endsIn_validateAction hrows hshort htos,false_and,or_false]

theorem ActionAccepted.reportable {action : ℕ} (h : ActionAccepted mem action) : ActionReportable mem action := by
  unfold ActionAccepted at h
  cases hkind : OfpActionType.ofValue (be16 mem action) with
  | none => simp [hkind] at h
  | some kind =>
    have hvalue := (OfpActionType.ofValue_eq_some_iff _ _).mp hkind
    cases kind <;> simp [hkind] at h <;> simp [ActionReportable,← hvalue,OfpActionType.value,h]

theorem endsIn_statsAction (mem : Bytes) (action : ℕ) :
    EndsIn (Unmapped .ofptStatsReply) (validateAction action) mem ↔ ¬ ActionAccepted mem action := by
  have hrows : ∀ row ∈ actionErrors, (Unmapped .ofptStatsReply row.errorNo ↔ True) := by decide
  rw [endsIn_validateAction hrows (by decide) (by decide),true_and]
  exact or_iff_right_of_imp (fun hr ha => hr ha.reportable)

theorem endsIn_validateActionList {type : OfpType} {reported : ℕ → Prop}
    (h : ∀ action, EndsIn (Unmapped type) (validateAction action) mem ↔ ¬ reported action)
    (actionsHead length : ℕ) : EndsIn (Unmapped type) (validateActionList actionsHead length) mem ↔
      ¬ ∀ offset, ActionOffset mem actionsHead length offset → offset < length →
        reported (actionsHead+offset) := by
  have hwalk : EndsIn (Unmapped type) (validateActions actionsHead length) mem ↔ _ :=
    endsIn_walk (not_unmapped_success type) (fun offset => returns_validateAction _)
      (returns_nextAction actionsHead) 0
  rcases Nat.eq_zero_or_pos length with rfl | hpos
  · simp [validateActionList]
  · simp [validateActionList,hpos,endsIn_ensure,hwalk,h,ActionOffset]

theorem endsIn_validatePacketOut :
    EndsIn (Unmapped .ofptPacketOut) (validatePacketOut message) message.data ↔
      HeaderAccepted message .ofptPacketOut 16 ushrtMax ∧
        validatePhyPortNo (be16 message.data 12) = .success ∧
          ¬ ActionsReportable message.data 16 (be16 message.data 14) := by
  have hport : ¬ Unmapped .ofptPacketOut .errorInvalidPortNo := by decide
  have hactions := endsIn_validateActionList (endsIn_mappedAction (Or.inl rfl) message.data)
    16 (be16 message.data 14)
  rw [validatePacketOut,endsIn_afterHeader]
  simp only [endsIn_ensure (not_unmapped_success _),endsIn_bind,returns_bind,returns_ntohsAt,returns_pure,
    exists_eq_left',endsIn_pure,unmapped_validatePhyPortNo,hport,and_false,exists_false,false_or,hactions,ActionsReportable]

theorem endsIn_validateFlowModFields : EndsIn (Unmapped .ofptFlowMod) validateFlowModFields mem ↔
    ¬ MatchReportable (matchAt mem 8) := by
  have hwild : ¬ Unmapped .ofptFlowMod .errorInvalidWildcards := by decide
  have hvid : ¬ Unmapped .ofptFlowMod .errorInvalidVlanVid := by decide
  have hpcp : ¬ Unmapped .ofptFlowMod .errorInvalidVlanPcp := by decide
  have htos : Unmapped .ofptFlowMod .errorInvalidNwTos := by decide
  have hcommand : ¬ Unmapped .ofptFlowMod .errorUndefinedFlowModCommand := by decide
  have hpriority : ¬ Unmapped .ofptFlowMod .errorInvalidFlowPriority := by decide
  have hport : ¬ Unmapped .ofptFlowMod .errorInvalidPortNo := by decide
  have hflags : ¬ Unmapped .ofptFlowMod .errorInvalidFlowModFlags := by decide
  have hmatch : Unmapped .ofptFlowMod (validateMatch (matchAt mem 8)) ↔ ¬ MatchReportable (matchAt mem 8) := by
    simp [validateMatch,unmapped_followedBy,unmapped_validateWildcards,unmapped_validateVlanVid,
      unmapped_validateVlanPcp,unmapped_validateNwTos,hwild,hvid,hpcp,htos,MatchReportable]
  simp [validateFlowModFields,endsIn_ensure,hmatch,hcommand,hpriority,hport,hflags,unmapped_validatePhyPortNo]

theorem endsIn_validateFlowMod : EndsIn (Unmapped .ofptFlowMod) (validateFlowMod message) message.data ↔
    HeaderAccepted message .ofptFlowMod 72 ushrtMax ∧ (¬ MatchReportable (matchAt message.data 8) ∨
      FlowModFieldsAccepted message.data ∧ ¬ ActionsReportable message.data 72 (message.length-72)) := by
  rw [validateFlowMod,endsIn_afterHeader]
  refine and_congr_right (fun h => ?_)
  have hl := h.least
  have hm : message.length ≤ 65535 := h.most
  have hlen := sub16_of_le hl (Nat.lt_of_le_of_lt hm (by decide))
  have hactions := endsIn_validateActionList (endsIn_mappedAction (Or.inr rfl) message.data)
    72 (message.length-72)
  simp only [endsIn_ensure (not_unmapped_success _),endsIn_validateFlowModFields,returns_validateFlowModFields,
    endsIn_bind,returns_ntohsAt,exists_eq_left',h.length,hlen,hactions,ActionsReportable]

theorem endsIn_validatePortMod : ¬ EndsIn (Unmapped .ofptPortMod) (validatePortMod message) message.data := by
  have hport : ¬ Unmapped .ofptPortMod .errorInvalidPortNo := by decide
  have hconfig : ¬ Unmapped .ofptPortMod .errorInvalidPortConfig := by decide
  have hmask : ¬ Unmapped .ofptPortMod .errorInvalidPortMask := by decide
  have hfeatures : ¬ Unmapped .ofptPortMod .errorInvalidPortFeatures := by decide
  rw [validatePortMod,endsIn_afterHeader]
  simp [endsIn_ensure,unmapped_validatePhyPortNo,hport,hconfig,hmask,hfeatures]

theorem endsIn_checkStatsRequest (type : OfpStatsTypes) (minLength maxLength : ℕ) :
    ¬ EndsIn (Unmapped .ofptStatsRequest) (checkStatsRequest message type minLength maxLength) message.data := by
  have htype : ¬ Unmapped .ofptStatsRequest .errorInvalidStatsType := by decide
  have hflags : ¬ Unmapped .ofptStatsRequest .errorInvalidStatsRequestFlags := by decide
  rw [checkStatsRequest,endsIn_afterHeader]
  simp [htype,hflags]

theorem endsIn_validateStatsRequest :
    ¬ EndsIn (Unmapped .ofptStatsRequest) (validateStatsRequest message) message.data := by
  have hport : ¬ Unmapped .ofptStatsRequest .errorInvalidPortNo := by decide
  have hwild : ¬ Unmapped .ofptStatsRequest .errorInvalidWildcards := by decide
  have hvid : ¬ Unmapped .ofptStatsRequest .errorInvalidVlanVid := by decide
  have hpcp : ¬ Unmapped .ofptStatsRequest .errorInvalidVlanPcp := by decide
  have htos : ¬ Unmapped .ofptStatsRequest .errorInvalidNwTos := by decide
  have hbody : ¬ Unmapped .ofptStatsRequest .errorUnsupportedStatsType := by decide
  have hmatch : ∀ type, ¬ EndsIn (Unmapped .ofptStatsRequest) (validateMatchStatsRequest message type)
      message.data := by
    intro type
    simp [validateMatchStatsRequest,endsIn_ensure,endsIn_checkStatsRequest,validateMatch,unmapped_followedBy,
      unmapped_validateWildcards,unmapped_validateVlanVid,unmapped_validateVlanPcp,unmapped_validateNwTos,
      unmapped_validatePhyPortNo,hport,hwild,hvid,hpcp,htos]
  simp only [validateStatsRequest,endsIn_bind,returns_ntohsAt,exists_eq_left']
  cases OfpStatsTypes.ofValue (be16 message.data 8) with
  | none => simpa using hbody
  | some type =>
    cases type with
    | ofpstDesc => exact endsIn_checkStatsRequest _ _ _
    | ofpstFlow => exact hmatch _
    | ofpstAggregate => exact hmatch _
    | ofpstTable => exact endsIn_checkStatsRequest _ _ _
    | ofpstPort =>
      simp [validatePortStatsRequest,endsIn_ensure,endsIn_checkStatsRequest,unmapped_validatePhyPortNo,hport]
    | ofpstQueue =>
      simp [validateQueueStatsRequest,endsIn_ensure,endsIn_checkStatsRequest,unmapped_validatePhyPortNo,hport]
    | ofpstVendor => exact endsIn_checkStatsRequest _ _ _

section StatsReply

theorem endsIn_validateFlowStatsEntry (flowStats : ℕ) :
    EndsIn (Unmapped .ofptStatsReply) (validateFlowStatsEntry flowStats) mem ↔
      ¬ FlowStatsUnrejected mem flowStats := by
  have hmatch := unmapped_validateMatch .ofptStatsReply (by decide) (by decide) (by decide) (by decide)
  have hpriority : Unmapped .ofptStatsReply .errorInvalidFlowPriority := by decide
  have hactions := endsIn_validateActionList (endsIn_statsAction mem) (flowStats+88)
    (flowActionsLength mem flowStats)
  have hp := be16_lt mem (flowStats+52)
  have hmax : be16 mem (flowStats+52) < ushrtMax ↔ be16 mem (flowStats+52) ≠ ushrtMax := by
    unfold ushrtMax
    omega
  unfold flowActionsLength at hactions
  simp [validateFlowStatsEntry,endsIn_ensure,hmatch,hpriority,hmax,hactions,FlowStatsUnrejected,
    FlowStatsHeadAccepted,ActionsUnrejected,ExactPriority,flowActionsLength]
  grind

theorem endsIn_checkStatsReply : EndsIn (Unmapped .ofptStatsReply) (checkStatsReply message) message.data ↔
    ¬ FlagsUnrejected message := by
  have hflags : Unmapped .ofptStatsReply .errorInvalidStatsReplyFlags := by decide
  rw [checkStatsReply,endsIn_afterHeader]
  simp [hflags,FlagsUnrejected]

theorem endsIn_validateSingleStatsReply (bodyLength : ℕ) :
    EndsIn (Unmapped .ofptStatsReply) (validateSingleStatsReply message bodyLength) message.data ↔
      ¬ SingleUnrejected message bodyLength := by
  have hflags : Unmapped .ofptStatsReply .errorInvalidStatsReplyFlags := by decide
  rw [validateSingleStatsReply,endsIn_afterHeader]
  simp [hflags,SingleUnrejected]

theorem endsIn_validateStatsRecords {check : ℕ → Access ValidationCode} {accepted : ℕ → Prop}
    (hcheck : ∀ record, Returns (check record) mem .success ↔ accepted record)
    (hends : ∀ record, EndsIn (Unmapped .ofptStatsReply) (check record) mem ↔ ¬ accepted record)
    (size length : ℕ) : EndsIn (Unmapped .ofptStatsReply) (validateStatsRecords check size length) mem ↔
      ¬ (length%size = 0 ∧ ∀ i < length/size, accepted (12+i*size)) := by
  have hlength : Unmapped .ofptStatsReply .errorInvalidLength := by decide
  have hrecords := endsIn_validateRecords (not_unmapped_success _) hcheck hends size 12 (length/size)
  simp only [validateStatsRecords,endsIn_ite,endsIn_pure,hlength,hrecords]
  by_cases hmod : length%size = 0
  · simp [hmod]
  · simp [hmod]

theorem endsIn_validateRecordsReply {check : ℕ → Access ValidationCode} {accepted : ℕ → Prop}
    (hcheck : ∀ record, Returns (check record) message.data .success ↔ accepted record)
    (hends : ∀ record, EndsIn (Unmapped .ofptStatsReply) (check record) message.data ↔ ¬ accepted record)
    (size : ℕ) : EndsIn (Unmapped .ofptStatsReply) (ensure (checkStatsReply message) do
      validateStatsRecords check size (sub16 (← ntohsAt 2) 12)) message.data ↔
        ¬ (FlagsUnrejected message ∧ RecordsUnrejected message size accepted) := by
  rw [endsIn_ensure (not_unmapped_success _),endsIn_checkStatsReply,returns_checkStatsReply,not_and_or]
  refine or_congr_right ?_
  rw [RecordsUnrejected,Classical.not_imp]
  refine and_congr_right (fun h => ?_)
  have hl := h.1.least
  have hm : message.length ≤ 65535 := h.1.most
  simp only [endsIn_bind,returns_ntohsAt,exists_eq_left',h.1.length]
  rw [sub16_of_le hl (by omega)]
  exact endsIn_validateStatsRecords hcheck hends size (message.length-12)

theorem endsIn_validateFlowStatsReply :
    EndsIn (Unmapped .ofptStatsReply) (validateFlowStatsReply message) message.data ↔
      ¬ (FlagsUnrejected message ∧ (StatsReplyAccepted message → ∀ s,
        FlowStatsCursor message.data (message.length-12,12) s → 0 < s.1 →
          FlowStatsUnrejected message.data s.2)) := by
  rw [validateFlowStatsReply,endsIn_ensure (not_unmapped_success _),endsIn_checkStatsReply,
    returns_checkStatsReply,not_and_or]
  refine or_congr_right ?_
  rw [Classical.not_imp]
  refine and_congr_right (fun h => ?_)
  have hl := h.1.least
  have hm : message.length ≤ 65535 := h.1.most
  have hlen := sub16_of_le hl (Nat.lt_of_le_of_lt hm (by decide))
  simp only [endsIn_bind,returns_ntohsAt,exists_eq_left',h.1.length,hlen]
  rw [endsIn_walk (not_unmapped_success _) (fun s => returns_validateFlowStatsEntry _) returns_nextFlowStats]
  simp [endsIn_validateFlowStatsEntry,FlowStatsCursor]

theorem endsIn_validateStatsReply :
    EndsIn (Unmapped .ofptStatsReply) (validateStatsReply message) message.data ↔
      ¬ StatsReplyUnrejected message := by
  have hbody : Unmapped .ofptStatsReply .errorUnsupportedStatsType := by decide
  have hport : Unmapped .ofptStatsReply .errorInvalidPortNo := by decide
  have hwild : Unmapped .ofptStatsReply .errorInvalidWildcards := by decide
  simp only [validateStatsReply,endsIn_bind,returns_ntohsAt,exists_eq_left',StatsReplyUnrejected]
  cases OfpStatsTypes.ofValue (be16 message.data 8) with
  | none => simpa using hbody
  | some type =>
    cases type with
    | ofpstDesc => exact endsIn_validateSingleStatsReply 1056
    | ofpstFlow => exact endsIn_validateFlowStatsReply
    | ofpstAggregate => exact endsIn_validateSingleStatsReply 24
    | ofpstTable =>
      exact endsIn_validateRecordsReply (fun tableStats => by simp)
        (fun tableStats => by simp [unmapped_validateWildcards,hwild]) 64
    | ofpstPort =>
      exact endsIn_validateRecordsReply (fun portStats => by simp)
        (fun portStats => by simp [unmapped_validatePhyPortNo,hport]) 104
    | ofpstQueue =>
      exact endsIn_validateRecordsReply (fun queueStats => by simp)
        (fun queueStats => by simp [unmapped_validatePhyPortNo,hport]) 32
    | ofpstVendor => exact endsIn_checkStatsReply

end StatsReply

section QueueConfigReply

theorem endsIn_validateQueueProperty (property : ℕ) :
    EndsIn (Unmapped .ofptQueueGetConfigReply) (validateQueueProperty property) mem ↔
      ¬ PropertyAccepted mem property := by
  have hshort : Unmapped .ofptQueueGetConfigReply .errorTooShortQueueProperty := by decide
  have hlong : Unmapped .ofptQueueGetConfigReply .errorTooLongQueueProperty := by decide
  have hundefined : Unmapped .ofptQueueGetConfigReply .errorUndefinedQueueProperty := by decide
  have hkind : ofpqtMinRate ≠ ofpqtNone := by decide
  simp [validateQueueProperty,PropertyAccepted,hshort,hlong,hundefined]
  grind

theorem endsIn_validatePacketQueue (queue : ℕ) :
    EndsIn (Unmapped .ofptQueueGetConfigReply) (validatePacketQueue queue) mem ↔ ¬ QueueUnrejected mem queue := by
  have hshort : Unmapped .ofptQueueGetConfigReply .errorTooShortQueueDescription := by decide
  have hwalk : ∀ length, EndsIn (Unmapped .ofptQueueGetConfigReply) (validateQueueProperties (queue+8) length)
      mem ↔ _ := fun length => endsIn_walk (not_unmapped_success _)
    (fun offset => returns_validateQueueProperty _) (returns_nextProperty (queue+8)) 0
  simp [validatePacketQueue,endsIn_ensure,hshort,hwalk,endsIn_validateQueueProperty,QueueUnrejected,
    PropertyOffset]

theorem endsIn_validatePacketQueues {s : ℕ × ℕ} {m : ℕ} (hm : CountsTo mem s m) :
    EndsIn (Unmapped .ofptQueueGetConfigReply) (validatePacketQueues s.2 m) mem ↔
      ¬ ∀ t, CheckedQueue mem s t → 8 < t.1 → QueueUnrejected mem t.2 := by
  induction m generalizing s with
  | zero =>
    have h0 : s.1 = 0 := hm
    simp only [validatePacketQueues,endsIn_pure,not_unmapped_success,false_iff,Classical.not_not]
    intro t ht hl
    rcases visits_iff.mp ht with rfl | ⟨hs,-,-⟩
    · omega
    · simp [h0] at hs
  | succ m ih =>
    obtain ⟨hl,hc⟩ := hm
    rw [validatePacketQueues,endsIn_ensure (not_unmapped_success _),endsIn_validatePacketQueue,
      returns_validatePacketQueue]
    simp only [endsIn_bind,returns_ntohsAt,exists_eq_left']
    change _ ∨ _ ∧ EndsIn _ (validatePacketQueues (nextQueue mem s).2 m) mem ↔ _
    rw [ih hc]
    constructor
    · rintro (hn | ⟨ha,hn⟩) hall
      · exact hn (hall s .refl hl)
      · exact hn (fun t ht => hall t (Visits.head (by simpa using hl) ha ht))
    · intro hn
      by_cases hu : QueueUnrejected mem s.2
      · by_contra hnone
        refine hn (fun t ht hlt => ?_)
        rcases visits_iff.mp ht with rfl | ⟨-,ha,ht⟩
        · exact hu
        · by_contra hr
          exact hnone (Or.inr ⟨ha,fun hall => hr (hall t ht hlt)⟩)
      · exact Or.inl hu

theorem returns_countQueues_odd (mem : Bytes) (s : ℕ × ℕ) :
    (∃ l m, Returns (loop countQueuesRound (s.1,s.2,0)) mem (l,m) ∧ l ≠ 0) ↔
      ∃ t, CountedQueue mem s t ∧ t.1 ≤ 8 ∧ t.1 ≠ 0 := by
  simp only [returns_loop]
  constructor
  · rintro ⟨l,m,⟨t,ht,hr⟩,hl⟩
    simp only [countQueuesRound,returns_ite,returns_bind,returns_pure,reduceCtorEq,and_false,exists_const,
      if_false_left,Sum.inr.injEq,Prod.mk.injEq,Nat.not_lt] at hr
    obtain ⟨hle,rfl,rfl⟩ := hr
    exact ⟨_,reaches_countQueuesRound ht,hle,hl⟩
  · rintro ⟨t,ht,hle,hne⟩
    obtain ⟨k,hk⟩ := countedQueue_reaches ht 0
    exact ⟨t.1,k,⟨_,hk,by simp [countQueuesRound,hle]⟩,hne⟩

theorem endsIn_checkCountedQueues (l m : ℕ) : EndsIn (Unmapped .ofptQueueGetConfigReply)
    (if l ≠ 0 then return .errorInvalidLength
     else if m > 0 then ensure (validatePacketQueues 16 m) (return .success) else return .success) mem ↔
      l ≠ 0 ∨ l = 0 ∧ EndsIn (Unmapped .ofptQueueGetConfigReply) (validatePacketQueues 16 m) mem := by
  have hlength : Unmapped .ofptQueueGetConfigReply .errorInvalidLength := by decide
  rcases Nat.eq_zero_or_pos m with rfl | hpos
  · simp [validatePacketQueues,hlength]
  · simp [endsIn_ensure,hlength,hpos,imp_iff_not_or]
    grind

theorem endsIn_validateQueueGetConfigReply :
    EndsIn (Unmapped .ofptQueueGetConfigReply) (validateQueueGetConfigReply message) message.data ↔
      HeaderAccepted message .ofptQueueGetConfigReply 24 ushrtMax ∧ ¬ QueueConfigUnrejected message := by
  have hport : Unmapped .ofptQueueGetConfigReply .errorInvalidPortNo := by decide
  rw [validateQueueGetConfigReply,endsIn_afterHeader]
  refine and_congr_right (fun h => ?_)
  have hl := h.least
  have hm : message.length ≤ 65535 := h.most
  have hlen : sub16 message.length 16 = message.length-16 := sub16_of_le (by omega) (by omega)
  simp only [endsIn_ensure (not_unmapped_success _),endsIn_bind,returns_bind,returns_ntohsAt,returns_pure,
    exists_eq_left',endsIn_pure,unmapped_validatePhyPortNo,hport,h.length,hlen,and_true]
  simp only [endsIn_checkCountedQueues]
  have hodd := returns_countQueues_odd message.data (message.length-16,16)
  constructor
  · rintro (hp | ⟨-,⟨l,m⟩,hr,hl | ⟨rfl,hq⟩⟩) hu
    · exact hp hu.port
    · obtain ⟨t,ht,hle,hne⟩ := hodd.mp ⟨l,m,hr,hl⟩
      exact hne (hu.even t ht hle)
    · have hc := (returns_countQueues (message.length-16,16) m).mp hr
      exact (endsIn_validatePacketQueues hc).mp hq (hu.queues (countedQueue_even_iff.mpr ⟨m,hc⟩))
  · intro hu
    by_cases hp : validatePhyPortNo (be16 message.data 8) = .success
    · refine Or.inr ⟨hp,?_⟩
      by_contra hnone
      refine hu ⟨hp,fun t ht hle => ?_,fun heven t ht hlt => ?_⟩
      · by_contra hne
        obtain ⟨l,m,hr,hl⟩ := hodd.mpr ⟨t,ht,hle,hne⟩
        exact hnone ⟨(l,m),hr,Or.inl hl⟩
      · obtain ⟨m,hc⟩ := countedQueue_even_iff.mp heven
        by_contra hq
        refine hnone ⟨(0,m),(returns_countQueues (message.length-16,16) m).mpr hc,Or.inr ⟨rfl,?_⟩⟩
        exact (endsIn_validatePacketQueues hc).mpr (fun hall => hq (hall t ht hlt))
    · exact Or.inl hp

end QueueConfigReply

theorem endsIn_validateQueueGetConfigRequest :
    ¬ EndsIn (Unmapped .ofptQueueGetConfigRequest) (validateQueueGetConfigRequest message) message.data := by
  have hport : ¬ Unmapped .ofptQueueGetConfigRequest .errorInvalidPortNo := by decide
  rw [validateQueueGetConfigRequest,endsIn_afterHeader]
  simp [endsIn_ensure,unmapped_validatePhyPortNo,hport]

theorem rejectionsReported_iff_not_endsIn {type : OfpType}
    (h : OfpType.ofValue (message.data 1).toNat = some type) : RejectionsReported message ↔
      ¬ EndsIn (Unmapped type) (validateOpenflowMessage message) message.data := by
  have hvalue := (OfpType.ofValue_eq_some_iff _ _).mp h
  simp only [RejectionsReported,EndsIn,Unmapped,ValidationCode.value_neg_iff,hvalue]
  constructor
  · rintro hall ⟨code,⟨hne,hnone⟩,hr⟩
    obtain ⟨errorType,errorCode,he⟩ := hall code hr hne
    rw [hnone] at he
    cases he
  · intro hends code hr hne
    cases he : ccTransErrorTypeAndCode (message.data 1).toNat code.value with
    | none => exact absurd ⟨code,⟨hne,he⟩,hr⟩ hends
    | some error => exact ⟨error.1,error.2,rfl⟩

/-- The messages all of whose rejections have an OpenFlow error, exactly. -/
theorem rejectionsReported_iff (message : Message) : RejectionsReported message ↔ Reportable message := by
  cases htype : OfpType.ofValue (message.data 1).toNat with
  | none =>
    simp [RejectionsReported,Reportable,validateOpenflowMessage,ccTransErrorTypeAndCode,htype]
  | some type =>
    rw [rejectionsReported_iff_not_endsIn htype]
    simp only [Reportable,validateOpenflowMessage,endsIn_bind,returns_byteAt,exists_eq_left',htype]
    cases type with
    | ofptHello => exact iff_of_true (not_endsIn_validateHeader _ _ _ _) trivial
    | ofptError => exact iff_of_true (by simp [validateError,endsIn_afterHeader]) trivial
    | ofptEchoRequest => exact iff_of_true (endsIn_validateWithLength _ _) trivial
    | ofptEchoReply => exact iff_of_true (endsIn_validateWithLength _ _) trivial
    | ofptVendor => exact iff_of_true (endsIn_validateWithLength _ _) trivial
    | ofptFeaturesRequest => exact iff_of_true (not_endsIn_validateHeader _ _ _ _) trivial
    | ofptFeaturesReply =>
      rw [endsIn_validateFeaturesReply,not_and,Classical.not_not]
    | ofptGetConfigRequest => exact iff_of_true (not_endsIn_validateHeader _ _ _ _) trivial
    | ofptGetConfigReply =>
      have hconfig : Unmapped .ofptGetConfigReply .errorInvalidSwitchConfig := by decide
      simp [validateGetConfigReply,endsIn_validateSwitchConfig,hconfig]
    | ofptSetConfig =>
      have hconfig : ¬ Unmapped .ofptSetConfig .errorInvalidSwitchConfig := by decide
      exact iff_of_true (by simp [validateSetConfig,endsIn_validateSwitchConfig,hconfig]) trivial
    | ofptPacketIn => rw [endsIn_validatePacketIn,not_and,Classical.not_not]
    | ofptFlowRemoved => rw [endsIn_validateFlowRemoved,not_and,Classical.not_not]
    | ofptPortStatus => simp only [endsIn_validatePortStatus,not_and,Classical.not_not]
    | ofptPacketOut => simp only [endsIn_validatePacketOut,not_and,Classical.not_not]
    | ofptFlowMod => simp only [endsIn_validateFlowMod,not_and,not_or,Classical.not_not]
    | ofptPortMod => exact iff_of_true endsIn_validatePortMod trivial
    | ofptStatsRequest => exact iff_of_true endsIn_validateStatsRequest trivial
    | ofptStatsReply => rw [endsIn_validateStatsReply,Classical.not_not]
    | ofptBarrierRequest => exact iff_of_true (not_endsIn_validateHeader _ _ _ _) trivial
    | ofptBarrierReply => exact iff_of_true (not_endsIn_validateHeader _ _ _ _) trivial
    | ofptQueueGetConfigRequest => exact iff_of_true endsIn_validateQueueGetConfigRequest trivial
    | ofptQueueGetConfigReply => rw [endsIn_validateQueueGetConfigReply,not_and,Classical.not_not]

end Rules

/-- A packet-out for port 1 whose only action sets the type of service to 255. -/
def tosPacketOut : Message :=
  ⟨fun i => match i with
    | 0 => 1 | 1 => 13 | 3 => 24 | 13 => 1 | 15 => 8 | 17 => 8 | 19 => 8 | 20 => 255 | _ => 0,24⟩

theorem tosPacketOut_unreported : 12 ≤ tosPacketOut.length ∧
    (tosPacketOut.data 1).toNat ≤ OfpType.ofptQueueGetConfigReply.value ∧
    ¬ RejectionsReported tosPacketOut := by
  have hr : Returns (validateOpenflowMessage tosPacketOut) tosPacketOut.data .errorInvalidNwTos :=
    ⟨1,by decide⟩
  refine ⟨by decide,by decide,fun h => ?_⟩
  obtain ⟨errorType,errorCode,he⟩ := h _ hr (by decide)
  have hnone : ccTransErrorTypeAndCode (tosPacketOut.data 1).toNat
    ValidationCode.errorInvalidNwTos.value = none := by decide
  rw [hnone] at he
  cases he

end OpenFlowController.Check
