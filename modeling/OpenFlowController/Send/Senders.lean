import OpenFlowController.Handler.TransInfo

/-! # The senders of a controller

A sender asks a builder for its message and queues the result. Builders come in as
functions of the transaction id: an outcome is a buffer or NULL, and there is none
if the builder does not come back.
-/
namespace OpenFlowController.Send
open Queue Xid

/-- What the senders use of a switch record. -/
structure SwInfo (B : Type) where
  xidLatest : UInt32
  sendQueue : MessageQueue B
  xidTable : XidTable

def ccInitSwInfo (B : Type) : SwInfo B := ⟨0,createMessageQueue,ccInitXidTable⟩

abbrev Builder (B : Type) := UInt32 → Option (Option B)

section Operations
variable {B : Type}

/-- Take the latest id for the message and advance it, then queue the message. The
senders differ in whether they compare the buffer with NULL, in which answers of
`enqueue_message` they take for an error, and in what they answer in the end. -/
def sendLatest (nullChecked : Bool) (refused : ErrorCode → Bool) (answer : ErrorCode) (create : Builder B)
    (ccSwInfo : SwInfo B) : Option (ErrorCode × SwInfo B) := do
  let buf ← create ccSwInfo.xidLatest
  if nullChecked && buf.isNone then return (.ccEErr,ccSwInfo)
  let ccSwInfo := { ccSwInfo with xidLatest := ccSwInfo.xidLatest+1 }
  let (ret,sendQueue) ← enqueueMessage ccSwInfo.sendQueue buf
  if refused ret then return (.ccEErr,{ ccSwInfo with sendQueue })
  return (answer,{ ccSwInfo with sendQueue })

def ccSendHello : Builder B → SwInfo B → Option (ErrorCode × SwInfo B) :=
  sendLatest false (fun ret => ret ≠ .ccENone) .ccENone

def ccSendEchoRequest : Builder B → SwInfo B → Option (ErrorCode × SwInfo B) :=
  sendLatest true (fun ret => ret ≠ .ccENone) .ccENone

def ccSendEchoReply : Builder B → SwInfo B → Option (ErrorCode × SwInfo B) :=
  sendLatest true (fun ret => ret ≠ .ccENone) .ccENone

def ccSendFeaturesRequest : Builder B → SwInfo B → Option (ErrorCode × SwInfo B) :=
  sendLatest true (fun ret => ret.value = 0) .ccENone

def ccSendGetConfigRequest : Builder B → SwInfo B → Option (ErrorCode × SwInfo B) :=
  sendLatest false (fun ret => ret.value = 0) .ccENone

/-- The id is a generated one, which the counter then stays at. -/
def ccSendSetConfig (place : XidPointer → ℕ) (create : Builder B) (ccSwInfo : SwInfo B) :
    Option (ErrorCode × SwInfo B) := do
  let xid ← ccGenerateXid place ccSwInfo.xidTable ccSwInfo.xidLatest
  let ccSwInfo := { ccSwInfo with xidLatest := xid }
  let buf ← create xid
  let (ret,sendQueue) ← enqueueMessage ccSwInfo.sendQueue buf
  if ret.value = 0 then return (.ccEErr,{ ccSwInfo with sendQueue })
  return (.ccENone,{ ccSwInfo with sendQueue })

def ccSendPacketOut : Builder B → SwInfo B → Option (ErrorCode × SwInfo B) :=
  sendLatest true (fun ret => ret = .ccEErr) .ccENone

def ccSendGetDescStats : Builder B → SwInfo B → Option (ErrorCode × SwInfo B) :=
  sendLatest true (fun ret => ret = .ccEErr) .ccENone

def ccSendFlowStatsRequest : Builder B → SwInfo B → Option (ErrorCode × SwInfo B) :=
  sendLatest true (fun ret => ret = .ccEErr) .ccENone

def ccSendAggregateStatsRequest : Builder B → SwInfo B → Option (ErrorCode × SwInfo B) :=
  sendLatest true (fun ret => ret = .ccEErr) .ccEErr

def ccSendPortStatsRequest : Builder B → SwInfo B → Option (ErrorCode × SwInfo B) :=
  sendLatest true (fun ret => ret = .ccEErr) .ccENone

def ccSendQueueStatsRequest : Builder B → SwInfo B → Option (ErrorCode × SwInfo B) :=
  sendLatest true (fun ret => ret = .ccEErr) .ccENone

def ccSendVendorStatsRequest : Builder B → SwInfo B → Option (ErrorCode × SwInfo B) :=
  sendLatest true (fun ret => ret = .ccEErr) .ccENone

end Operations

inductive Sender
  | hello
  | echoRequest
  | echoReply
  | featuresRequest
  | getConfigRequest
  | setConfig
  | packetOut
  | getDescStats
  | flowStatsRequest
  | aggregateStatsRequest
  | portStatsRequest
  | queueStatsRequest
  | vendorStatsRequest
  deriving DecidableEq, Repr

def Sender.run {B : Type} (place : XidPointer → ℕ) : Sender → Builder B → SwInfo B → Option (ErrorCode × SwInfo B)
  | .hello => ccSendHello
  | .echoRequest => ccSendEchoRequest
  | .echoReply => ccSendEchoReply
  | .featuresRequest => ccSendFeaturesRequest
  | .getConfigRequest => ccSendGetConfigRequest
  | .setConfig => ccSendSetConfig place
  | .packetOut => ccSendPacketOut
  | .getDescStats => ccSendGetDescStats
  | .flowStatsRequest => ccSendFlowStatsRequest
  | .aggregateStatsRequest => ccSendAggregateStatsRequest
  | .portStatsRequest => ccSendPortStatsRequest
  | .queueStatsRequest => ccSendQueueStatsRequest
  | .vendorStatsRequest => ccSendVendorStatsRequest

variable {B : Type}

/-- The queue can be used and holds these messages. -/
def Queued (queue : MessageQueue B) (pending : List B) : Prop :=
  ∃ cells, Represents queue cells pending ∧ TailLive queue cells

/-- `CC_E_NONE` is answered exactly when one message more is queued, and `CC_E_ERR`
leaves the queue and the counter alone. -/
structure Truthful (before : SwInfo B) (pending : List B) (ret : ErrorCode) (after : SwInfo B) : Prop where
  appended : ret = .ccENone ↔ ∃ message, Queued after.sendQueue (pending++[message])
  unchanged : ret = .ccEErr → after.sendQueue = before.sendQueue ∧ after.xidLatest = before.xidLatest

def ReportsTruly (place : XidPointer → ℕ) (sender : Sender) (built : Option B) (ccSwInfo : SwInfo B)
    (pending : List B) : Prop :=
  ∃ ret after, sender.run place (fun _ => some built) ccSwInfo = some (ret,after) ∧ Truthful ccSwInfo pending ret after

/-- The builder outcomes on which a sender does what it answers. -/
def Sender.Sound : Sender → Option B → Prop
  | .hello, built => built ≠ none
  | .featuresRequest, built => built = none
  | .aggregateStatsRequest, built => built = none
  | .getConfigRequest, _ => False
  | .setConfig, _ => False
  | _, _ => True

section Rules
variable {queue queue' : MessageQueue B} {pending pending' : List B} {ccSwInfo : SwInfo B}

theorem Queued.unique (h : Queued queue pending) (h' : Queued queue pending') : pending = pending' := by
  obtain ⟨cells,hr,-⟩ := h
  obtain ⟨cells',hr',-⟩ := h'
  exact hr.unique hr'

theorem createMessageQueue_queued : Queued (createMessageQueue : MessageQueue B) [] :=
  ⟨_,createMessageQueue_represents,createMessageQueue_tailLive⟩

theorem Queued.enqueueMessage (h : Queued queue pending) (b : B) :
    ∃ queue', Queue.enqueueMessage queue (some b) = some (.ccENone,queue') ∧ Queued queue' (pending++[b]) := by
  obtain ⟨cells,hr,ht⟩ := h
  obtain ⟨queue',cells',heq,hr',ht',-⟩ := enqueueMessage_live hr ht b
  exact ⟨queue',heq,cells',hr',ht'⟩

theorem Queued.not_appended (h : Queued queue pending) : ¬ ∃ message, Queued queue (pending++[message]) := by
  rintro ⟨message,h'⟩
  simpa using h.unique h'

theorem sendLatest_checked {create : Builder B} (hc : create ccSwInfo.xidLatest = some none)
    (refused : ErrorCode → Bool) (answer : ErrorCode) :
    sendLatest true refused answer create ccSwInfo = some (.ccEErr,ccSwInfo) := by
  simp [sendLatest,hc]

theorem sendLatest_unchecked {create : Builder B} (hc : create ccSwInfo.xidLatest = some none)
    (refused : ErrorCode → Bool) (answer : ErrorCode) : sendLatest false refused answer create ccSwInfo =
      some (if refused .ccEErr then .ccEErr else answer,{ ccSwInfo with xidLatest := ccSwInfo.xidLatest+1 }) := by
  simp only [sendLatest,hc,enqueueMessage,Option.bind_eq_bind,Option.bind_some,Bool.false_and,Bool.false_eq_true,
    if_false]
  split <;> rfl

theorem sendLatest_built {message : B} (hq : Queued ccSwInfo.sendQueue pending) (create : Builder B)
    (hc : create ccSwInfo.xidLatest = some (some message)) (nullChecked : Bool) (refused : ErrorCode → Bool)
    (answer : ErrorCode) : ∃ sendQueue, Queued sendQueue (pending++[message]) ∧
      sendLatest nullChecked refused answer create ccSwInfo =
        some (if refused .ccENone then .ccEErr else answer,
          { ccSwInfo with xidLatest := ccSwInfo.xidLatest+1, sendQueue }) := by
  obtain ⟨sendQueue,heq,hq'⟩ := hq.enqueueMessage message
  refine ⟨sendQueue,hq',?_⟩
  simp only [sendLatest,hc,heq,Option.bind_eq_bind,Option.bind_some,Option.isNone_some,Bool.and_false,
    Bool.false_eq_true,if_false]
  split <;> rfl

theorem truthful_of_untouched (hq : Queued ccSwInfo.sendQueue pending) :
    Truthful ccSwInfo pending .ccEErr ccSwInfo :=
  ⟨iff_of_false (by simp) hq.not_appended,fun _ => ⟨rfl,rfl⟩⟩

theorem truthful_of_queued {ret : ErrorCode} {after : SwInfo B} {message : B}
    (hq : Queued after.sendQueue (pending++[message])) : Truthful ccSwInfo pending ret after ↔ ret = .ccENone := by
  constructor
  · intro h
    exact h.appended.mpr ⟨message,hq⟩
  · rintro rfl
    exact ⟨iff_of_true rfl ⟨message,hq⟩,by simp⟩

theorem add_one_ne (x : UInt32) : x+1 ≠ x := by
  intro h
  have h' := congrArg UInt32.toNat h
  have hlt := x.toNat_lt
  rw [UInt32.toNat_add] at h'
  simp only [UInt32.toNat_one] at h'
  omega

/-- The counter has moved and nothing is queued. -/
theorem not_truthful_of_advanced (hq : Queued ccSwInfo.sendQueue pending) (ret : ErrorCode) :
    ¬ Truthful ccSwInfo pending ret { ccSwInfo with xidLatest := ccSwInfo.xidLatest+1 } := by
  rintro ⟨happended,hunchanged⟩
  cases ret with
  | ccENone => exact hq.not_appended (happended.mp rfl)
  | ccEErr => exact add_one_ne _ (hunchanged rfl).2

/-- What becomes of each outcome of the builder. -/
theorem sendLatest_truthful_iff (hq : Queued ccSwInfo.sendQueue pending) (nullChecked : Bool)
    (refused : ErrorCode → Bool) (answer : ErrorCode) (built : Option B) :
    (∃ ret after, sendLatest nullChecked refused answer (fun _ => some built) ccSwInfo = some (ret,after) ∧
      Truthful ccSwInfo pending ret after) ↔
      if built.isNone then nullChecked = true else refused .ccENone = false ∧ answer = .ccENone := by
  have hresult : ∀ {ret after}, sendLatest nullChecked refused answer (fun _ => some built) ccSwInfo =
      some (ret,after) → ((∃ ret after, sendLatest nullChecked refused answer (fun _ => some built) ccSwInfo =
        some (ret,after) ∧ Truthful ccSwInfo pending ret after) ↔ Truthful ccSwInfo pending ret after) := by
    intro ret after heq
    rw [heq]
    simp
  cases built with
  | none =>
    cases nullChecked with
    | false =>
      rw [hresult (sendLatest_unchecked rfl refused answer)]
      simpa using not_truthful_of_advanced hq _
    | true =>
      rw [hresult (sendLatest_checked rfl refused answer)]
      simpa using truthful_of_untouched hq
  | some message =>
    obtain ⟨sendQueue,hq',heq⟩ := sendLatest_built hq (fun _ => some (some message)) rfl nullChecked refused answer
    rw [hresult heq,truthful_of_queued hq']
    cases refused .ccENone <;> simp

theorem ccSendSetConfig_not_truthful (place : XidPointer → ℕ) (hq : Queued ccSwInfo.sendQueue pending)
    (built : Option B) : ¬ ∃ ret after, ccSendSetConfig place (fun _ => some built) ccSwInfo = some (ret,after) ∧
      Truthful ccSwInfo pending ret after := by
  rintro ⟨ret,after,heq,htruthful⟩
  simp only [ccSendSetConfig,Option.bind_eq_bind,Option.bind_some,Option.bind_eq_some_iff] at heq
  obtain ⟨xid,-,⟨answer,sendQueue⟩,hqueue,heq⟩ := heq
  cases built with
  | none =>
    obtain ⟨rfl,rfl⟩ := Prod.mk.inj (Option.some.inj hqueue)
    obtain ⟨rfl,rfl⟩ := Prod.mk.inj (Option.some.inj heq)
    exact hq.not_appended (htruthful.appended.mp rfl)
  | some message =>
    obtain ⟨sendQueue',hqueue',hq'⟩ := hq.enqueueMessage message
    obtain ⟨rfl,rfl⟩ := Prod.mk.inj (Option.some.inj (hqueue'.symm.trans hqueue))
    obtain ⟨rfl,rfl⟩ := Prod.mk.inj (Option.some.inj heq)
    cases (truthful_of_queued hq').mp htruthful

/-- Which senders can be believed: the eight that test for NULL and read the answer
of the queue as it is meant always can, the others on one outcome or on none. -/
theorem reportsTruly_iff (place : XidPointer → ℕ) (sender : Sender) (built : Option B)
    (hq : Queued ccSwInfo.sendQueue pending) :
    ReportsTruly place sender built ccSwInfo pending ↔ sender.Sound built := by
  have hzero : ErrorCode.ccENone.value = 0 := rfl
  cases sender with
  | setConfig => exact iff_of_false (ccSendSetConfig_not_truthful place hq built) id
  | _ =>
    simp only [ReportsTruly,Sender.run,ccSendHello,ccSendEchoRequest,ccSendEchoReply,ccSendFeaturesRequest,
      ccSendGetConfigRequest,ccSendPacketOut,ccSendGetDescStats,ccSendFlowStatsRequest,ccSendAggregateStatsRequest,
      ccSendPortStatsRequest,ccSendQueueStatsRequest,ccSendVendorStatsRequest]
    rw [sendLatest_truthful_iff hq]
    cases built <;> simp [Sender.Sound,hzero]

/-- Eight bytes, as a request without a body has them. -/
def plainRequest : Check.Message := ⟨fun _ => 0,8⟩

theorem ccInitSwInfo_queued (B : Type) : Queued (ccInitSwInfo B).sendQueue [] := createMessageQueue_queued

theorem reportsTruly_echoRequest :
    ReportsTruly (fun _ => 0) .echoRequest (some plainRequest) (ccInitSwInfo Check.Message) [] :=
  (reportsTruly_iff (fun _ => 0) .echoRequest (some plainRequest) (ccInitSwInfo_queued _)).mpr trivial

/-- A request is queued and its id used up, and the answer is `CC_E_ERR`. -/
theorem featuresRequest_not_truthful :
    ¬ ReportsTruly (fun _ => 0) .featuresRequest (some plainRequest) (ccInitSwInfo Check.Message) [] := by
  rintro ⟨ret,after,heq,htruthful⟩
  obtain ⟨sendQueue,hq,hsent⟩ := sendLatest_built (ccInitSwInfo_queued Check.Message) (fun _ => some (some plainRequest))
    rfl true (fun ret => ret.value = 0) .ccENone
  obtain ⟨rfl,rfl⟩ := Prod.mk.inj (Option.some.inj (hsent.symm.trans heq))
  exact absurd ((truthful_of_queued hq).mp htruthful) (by decide)

end Rules
end OpenFlowController.Send
