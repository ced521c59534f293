import OpenFlowController.Check.OpenFlowMessage
import OpenFlowController.Create.Payloads
import OpenFlowController.Create.PortMod
import OpenFlowController.Send.TransactionIds

/-! # Messages of a fixed length

Nineteen builders make a message whose length does not depend on their arguments:
the header, and fields stored behind it. None of them compares the buffer of the header
with NULL before it is used. `cc_create_header` is a parameter with a contract.
-/
namespace OpenFlowController.Create
open Memory Access Check Protocol Handler Send OpenFlowController.Convert

def withFields (header : Option Message) (fields : Bytes → Bytes) : Option Message := do
  let buffer ← header
  return { buffer with data := fields buffer.data }

def storeSwitchConfig (flags missSendLen : UInt16) (data : Bytes) : Bytes :=
  storeNet (storeNet data 8 2 flags.toNat) 10 2 missSendLen.toNat

def ccCreateGetConfigReply (header : CreateHeader) (allocated : Bool) (transactionId : UInt32) (flags missSendLen : UInt16) : Option Message :=
  withFields (header allocated transactionId .ofptGetConfigReply 12) (storeSwitchConfig flags missSendLen)

/-- The arguments of `cc_create_flow_removed` besides the transaction id. -/
structure FlowRemoved where
  m : Bytes
  cookie : UInt64
  priority : UInt16
  reason : UInt8
  durationSec : UInt32
  durationNsec : UInt32
  idleTimeout : UInt16
  packetCount : UInt64
  byteCount : UInt64

def FlowRemoved.store (flowRemoved : FlowRemoved) (data : Bytes) : Bytes :=
  let data := splice data 8 (htonMatch (window data 8) flowRemoved.m)
  let data := storeNet data 48 8 flowRemoved.cookie.toNat
  let data := storeNet data 56 2 flowRemoved.priority.toNat
  let data := storeNet data 58 1 flowRemoved.reason.toNat
  let data := storeNet data 59 1 0
  let data := storeNet data 60 4 flowRemoved.durationSec.toNat
  let data := storeNet data 64 4 flowRemoved.durationNsec.toNat
  let data := storeNet data 68 2 flowRemoved.idleTimeout.toNat
  let data := storeNet data 70 2 0
  let data := storeNet data 72 8 flowRemoved.packetCount.toNat
  storeNet data 80 8 flowRemoved.byteCount.toNat

def ccCreateFlowRemoved (header : CreateHeader) (allocated : Bool) (transactionId : UInt32) (flowRemoved : FlowRemoved) : Option Message :=
  withFields (header allocated transactionId .ofptFlowRemoved 88) flowRemoved.store

def storePortStatus (reason : UInt8) (desc : Bytes) (data : Bytes) : Bytes :=
  let data := storeNet data 8 1 reason.toNat
  let data := storeNet data 9 7 0
  splice data 16 (ntohPhyPort (window data 16) desc)

def ccCreatePortStatus (header : CreateHeader) (allocated : Bool) (transactionId : UInt32) (reason : UInt8) (desc : Bytes) : Option Message :=
  withFields (header allocated transactionId .ofptPortStatus 64) (storePortStatus reason desc)

def ccCreateDescStatsRequest (header : CreateHeader) (allocated : Bool) (transactionId : UInt32) (flags : UInt16) : Option Message :=
  ccCreateStatsRequest header allocated transactionId .ofpstDesc 12 flags

/-- The flows that are asked about, one by one or as an aggregate. -/
structure FlowStatsRequest where
  m : Bytes
  tableId : UInt8
  outPort : UInt16

def FlowStatsRequest.store (request : FlowStatsRequest) (data : Bytes) : Bytes :=
  let data := splice data 12 (htonMatch (window data 12) request.m)
  let data := storeNet data 52 1 request.tableId.toNat
  let data := storeNet data 53 1 0
  storeNet data 54 2 request.outPort.toNat

def ccCreateFlowStatsRequest (header : CreateHeader) (allocated : Bool) (transactionId : UInt32) (flags : UInt16)
    (request : FlowStatsRequest) : Option Message :=
  withFields (ccCreateStatsRequest header allocated transactionId .ofpstFlow 56 flags) request.store

def ccCreateAggregateStatsRequest (header : CreateHeader) (allocated : Bool) (transactionId : UInt32) (flags : UInt16)
    (request : FlowStatsRequest) : Option Message :=
  withFields (ccCreateStatsRequest header allocated transactionId .ofpstAggregate 56 flags) request.store

def ccCreateTableStatsRequest (header : CreateHeader) (allocated : Bool) (transactionId : UInt32) (flags : UInt16) : Option Message :=
  ccCreateStatsRequest header allocated transactionId .ofpstTable 12 flags

def storePortStatsRequest (portNo : UInt16) (data : Bytes) : Bytes :=
  storeNet (storeNet data 12 2 portNo.toNat) 14 6 0

def ccCreatePortStatsRequest (header : CreateHeader) (allocated : Bool) (transactionId : UInt32) (flags portNo : UInt16) : Option Message :=
  withFields (ccCreateStatsRequest header allocated transactionId .ofpstPort 20 flags) (storePortStatsRequest portNo)

def storeQueueStatsRequest (portNo : UInt16) (queueId : UInt32) (data : Bytes) : Bytes :=
  storeNet (storeNet (storeNet data 12 2 portNo.toNat) 14 2 0) 16 4 queueId.toNat

def ccCreateQueueStatsRequest (header : CreateHeader) (allocated : Bool) (transactionId : UInt32) (flags portNo : UInt16) (queueId : UInt32) :
    Option Message :=
  withFields (ccCreateStatsRequest header allocated transactionId .ofpstQueue 20 flags) (storeQueueStatsRequest portNo queueId)

/-- The five texts, each with the memory behind it. -/
structure DescStats where
  mfrDesc : Bytes
  hwDesc : Bytes
  swDesc : Bytes
  serialNum : Bytes
  dpDesc : Bytes

/-- The serial number has 32 bytes, and 256 are copied for it as well. -/
def DescStats.store (desc : DescStats) (data : Bytes) : Bytes :=
  let data := copyInto data 12 desc.mfrDesc 256
  let data := copyInto data 268 desc.hwDesc 256
  let data := copyInto data 524 desc.swDesc 256
  let data := copyInto data 780 desc.serialNum 256
  copyInto data 812 desc.dpDesc 256

def ccCreateDescStatsReply (header : CreateHeader) (allocated : Bool) (transactionId : UInt32) (flags : UInt16) (desc : DescStats) :
    Option Message :=
  withFields (ccCreateStatsReplyWith header allocated transactionId .ofpstDesc 1068 flags) desc.store

def storeAggregateStats (packetCount byteCount : UInt64) (flowCount : UInt32) (data : Bytes) : Bytes :=
  let data := storeNet data 12 8 packetCount.toNat
  let data := storeNet data 20 8 byteCount.toNat
  let data := storeNet data 28 4 flowCount.toNat
  storeNet data 32 4 0

def ccCreateAggregateStatsReply (header : CreateHeader) (allocated : Bool) (transactionId : UInt32) (flags : UInt16)
    (packetCount byteCount : UInt64) (flowCount : UInt32) : Option Message :=
  withFields (ccCreateStatsReplyWith header allocated transactionId .ofpstAggregate 36 flags)
    (storeAggregateStats packetCount byteCount flowCount)

def ccCreateBarrierRequest (header : CreateHeader) (allocated : Bool) (transactionId : UInt32) : Option Message :=
  header allocated transactionId .ofptBarrierRequest 8

def ccCreateBarrierReply (header : CreateHeader) (allocated : Bool) (transactionId : UInt32) : Option Message :=
  header allocated transactionId .ofptBarrierReply 8

def ccCreateQueueGetConfigRequest (header : CreateHeader) (allocated : Bool) (transactionId : UInt32) (port : UInt16) : Option Message :=
  withFields (header allocated transactionId .ofptQueueGetConfigRequest 12)
    (fun data => storeNet (storeNet data 8 2 port.toNat) 10 2 0)

/-- The calls. -/
inductive FixedMessage
  | hello
  | featuresRequest
  | getConfigRequest
  | getConfigReply (flags missSendLen : UInt16)
  | setConfig (flags missSendLen : UInt16)
  | flowRemoved (fields : FlowRemoved)
  | portStatus (reason : UInt8) (desc : Bytes)
  | portMod (fields : PortMod)
  | descStatsRequest (flags : UInt16)
  | flowStatsRequest (flags : UInt16) (request : FlowStatsRequest)
  | aggregateStatsRequest (flags : UInt16) (request : FlowStatsRequest)
  | tableStatsRequest (flags : UInt16)
  | portStatsRequest (flags portNo : UInt16)
  | queueStatsRequest (flags portNo : UInt16) (queueId : UInt32)
  | descStatsReply (flags : UInt16) (desc : DescStats)
  | aggregateStatsReply (flags : UInt16) (packetCount byteCount : UInt64) (flowCount : UInt32)
  | barrierRequest
  | barrierReply
  | queueGetConfigRequest (port : UInt16)

namespace FixedMessage

def create (header : CreateHeader) (allocated : Bool) (xid : UInt32) : FixedMessage → Option Message
  | hello => ccCreateHello header allocated xid
  | featuresRequest => ccCreateFeaturesRequest header allocated xid
  | getConfigRequest => ccCreateGetConfigRequest header allocated xid
  | getConfigReply flags missSendLen => ccCreateGetConfigReply header allocated xid flags missSendLen
  | setConfig flags missSendLen => Send.ccCreateSetConfig header allocated xid flags missSendLen
  | flowRemoved fields => ccCreateFlowRemoved header allocated xid fields
  | portStatus reason desc => ccCreatePortStatus header allocated xid reason desc
  | portMod fields => ccCreatePortModWith header allocated xid fields
  | descStatsRequest flags => ccCreateDescStatsRequest header allocated xid flags
  | flowStatsRequest flags request => ccCreateFlowStatsRequest header allocated xid flags request
  | aggregateStatsRequest flags request => ccCreateAggregateStatsRequest header allocated xid flags request
  | tableStatsRequest flags => ccCreateTableStatsRequest header allocated xid flags
  | portStatsRequest flags portNo => ccCreatePortStatsRequest header allocated xid flags portNo
  | queueStatsRequest flags portNo queueId => ccCreateQueueStatsRequest header allocated xid flags portNo queueId
  | descStatsReply flags desc => ccCreateDescStatsReply header allocated xid flags desc
  | aggregateStatsReply flags packetCount byteCount flowCount =>
    ccCreateAggregateStatsReply header allocated xid flags packetCount byteCount flowCount
  | barrierRequest => ccCreateBarrierRequest header allocated xid
  | barrierReply => ccCreateBarrierReply header allocated xid
  | queueGetConfigRequest port => ccCreateQueueGetConfigRequest header allocated xid port

def type : FixedMessage → OfpType
  | hello => .ofptHello
  | featuresRequest => .ofptFeaturesRequest
  | getConfigRequest => .ofptGetConfigRequest
  | getConfigReply _ _ => .ofptGetConfigReply
  | setConfig _ _ => .ofptSetConfig
  | flowRemoved _ => .ofptFlowRemoved
  | portStatus _ _ => .ofptPortStatus
  | portMod _ => .ofptPortMod
  | descStatsRequest _ | flowStatsRequest _ _ | aggregateStatsRequest _ _ | tableStatsRequest _
  | portStatsRequest _ _ | queueStatsRequest _ _ _ => .ofptStatsRequest
  | descStatsReply _ _ | aggregateStatsReply _ _ _ _ => .ofptStatsReply
  | barrierRequest => .ofptBarrierRequest
  | barrierReply => .ofptBarrierReply
  | queueGetConfigRequest _ => .ofptQueueGetConfigRequest

def length : FixedMessage → ℕ
  | hello | featuresRequest | getConfigRequest | barrierRequest | barrierReply => 8
  | getConfigReply _ _ | setConfig _ _ | descStatsRequest _ | tableStatsRequest _ | queueGetConfigRequest _ => 12
  | portStatsRequest _ _ | queueStatsRequest _ _ _ => 20
  | portMod _ => 32
  | aggregateStatsReply _ _ _ _ => 36
  | flowStatsRequest _ _ | aggregateStatsRequest _ _ => 56
  | portStatus _ _ => 64
  | flowRemoved _ => 88
  | descStatsReply _ _ => 1068

def storeStats (type : OfpStatsTypes) (flags : UInt16) (data : Bytes) : Bytes :=
  storeNet (storeNet data 8 2 type.value) 10 2 flags.toNat

/-- What is stored behind the header. -/
def fields : FixedMessage → Bytes → Bytes
  | hello | featuresRequest | getConfigRequest | barrierRequest | barrierReply => id
  | getConfigReply flags missSendLen | setConfig flags missSendLen => storeSwitchConfig flags missSendLen
  | flowRemoved fields => fields.store
  | portStatus reason desc => storePortStatus reason desc
  | portMod fields => fields.store
  | descStatsRequest flags => storeStats .ofpstDesc flags
  | flowStatsRequest flags request => fun data => request.store (storeStats .ofpstFlow flags data)
  | aggregateStatsRequest flags request => fun data => request.store (storeStats .ofpstAggregate flags data)
  | tableStatsRequest flags => storeStats .ofpstTable flags
  | portStatsRequest flags portNo => fun data => storePortStatsRequest portNo (storeStats .ofpstPort flags data)
  | queueStatsRequest flags portNo queueId =>
    fun data => storeQueueStatsRequest portNo queueId (storeStats .ofpstQueue flags data)
  | descStatsReply flags desc => fun data => desc.store (storeStats .ofpstDesc flags data)
  | aggregateStatsReply flags packetCount byteCount flowCount =>
    fun data => storeAggregateStats packetCount byteCount flowCount (storeStats .ofpstAggregate flags data)
  | queueGetConfigRequest port => fun data => storeNet (storeNet data 8 2 port.toNat) 10 2 0

theorem withFields_id (header : Option Message) : withFields header id = header := by
  cases header <;> rfl

theorem withFields_withFields (header : Option Message) (inner outer : Bytes → Bytes) :
    withFields (withFields header inner) outer = withFields header (fun data => outer (inner data)) := by
  cases header <;> rfl

theorem withFields_statsRequest (header : CreateHeader) (allocated : Bool) (xid : UInt32) (type : OfpStatsTypes) (length : ℕ)
    (flags : UInt16) (fields : Bytes → Bytes) :
    withFields (ccCreateStatsRequest header allocated xid type length flags) fields =
      withFields (header allocated xid .ofptStatsRequest length) (fun data => fields (storeStats type flags data)) :=
  withFields_withFields (header allocated xid .ofptStatsRequest length) (storeStats type flags) fields

theorem withFields_statsReply (header : CreateHeader) (allocated : Bool) (xid : UInt32) (type : OfpStatsTypes) (length : ℕ)
    (flags : UInt16) (fields : Bytes → Bytes) :
    withFields (ccCreateStatsReplyWith header allocated xid type length flags) fields =
      withFields (header allocated xid .ofptStatsReply length) (fun data => fields (storeStats type flags data)) :=
  withFields_withFields (header allocated xid .ofptStatsReply length) (storeStats type flags) fields

/-- Every builder is a header and its fields. -/
theorem create_eq (header : CreateHeader) (m : FixedMessage) (allocated : Bool) (xid : UInt32) :
    m.create header allocated xid = withFields (header allocated xid m.type m.length) m.fields := by
  cases m with
  | hello | featuresRequest | getConfigRequest | barrierRequest | barrierReply => exact (withFields_id _).symm
  | getConfigReply | setConfig | flowRemoved | portStatus | portMod | queueGetConfigRequest => rfl
  | descStatsRequest | tableStatsRequest => rfl
  | flowStatsRequest | aggregateStatsRequest | portStatsRequest | queueStatsRequest => exact withFields_statsRequest ..
  | descStatsReply | aggregateStatsReply => exact withFields_statsReply ..

/-- The fields are behind the header. -/
theorem fields_front (m : FixedMessage) (data : Bytes) {i : ℕ} (hi : i < 8) : m.fields data i = data i := by
  have hswitchConfig : ∀ flags missSendLen, storeSwitchConfig flags missSendLen data i = data i := fun _ _ =>
    (storeNet_outside (by omega)).trans (storeNet_outside (by omega))
  have hstats : ∀ type flags, storeStats type flags data i = data i := fun _ _ =>
    (storeNet_outside (by omega)).trans (storeNet_outside (by omega))
  have hrequest : ∀ (request : FlowStatsRequest) data, request.store data i = data i := fun _ _ =>
    (storeNet_outside (by omega)).trans <| (storeNet_outside (by omega)).trans <|
    (storeNet_outside (by omega)).trans (splice_before (by omega))
  cases m with
  | hello | featuresRequest | getConfigRequest | barrierRequest | barrierReply => rfl
  | getConfigReply flags missSendLen | setConfig flags missSendLen => exact hswitchConfig flags missSendLen
  | flowRemoved fields =>
    simp only [FixedMessage.fields,FlowRemoved.store]
    rw [storeNet_outside (by omega),storeNet_outside (by omega),storeNet_outside (by omega),
      storeNet_outside (by omega),storeNet_outside (by omega),storeNet_outside (by omega),
      storeNet_outside (by omega),storeNet_outside (by omega),storeNet_outside (by omega),
      storeNet_outside (by omega),splice_before hi]
  | portStatus reason desc =>
    exact (splice_before (by omega)).trans ((storeNet_outside (by omega)).trans (storeNet_outside (by omega)))
  | portMod fields =>
    simp only [FixedMessage.fields,PortMod.store]
    rw [copyInto,if_neg (by omega),storeNet_outside (by omega),storeNet_outside (by omega),
      storeNet_outside (by omega),copyInto,if_neg (by omega),storeNet_outside (by omega)]
  | descStatsRequest flags | tableStatsRequest flags => exact hstats _ flags
  | flowStatsRequest flags request | aggregateStatsRequest flags request =>
    exact (hrequest request _).trans (hstats _ flags)
  | portStatsRequest flags portNo =>
    exact (storeNet_outside (by omega)).trans ((storeNet_outside (by omega)).trans (hstats _ flags))
  | queueStatsRequest flags portNo queueId =>
    exact (storeNet_outside (by omega)).trans <| (storeNet_outside (by omega)).trans <|
      (storeNet_outside (by omega)).trans (hstats _ flags)
  | descStatsReply flags desc =>
    simp only [FixedMessage.fields,DescStats.store]
    rw [copyInto,if_neg (by omega),copyInto,if_neg (by omega),copyInto,if_neg (by omega),copyInto,if_neg (by omega),
      copyInto,if_neg (by omega)]
    exact hstats _ flags
  | aggregateStatsReply flags packetCount byteCount flowCount =>
    exact (storeNet_outside (by omega)).trans <| (storeNet_outside (by omega)).trans <|
      (storeNet_outside (by omega)).trans <| (storeNet_outside (by omega)).trans (hstats _ flags)
  | queueGetConfigRequest port => exact (storeNet_outside (by omega)).trans (storeNet_outside (by omega))

/-- What is built: the header says what the message is, and the fields are stored behind it. -/
structure Built (m : FixedMessage) (xid : UInt32) (message : Message) : Prop where
  size : message.length = m.length
  header : HasHeader message.data m.type m.length
  xid : be32 message.data 4 = xid.toNat
  fields : ∃ data, message.data = m.fields data

theorem length_lt (m : FixedMessage) : m.length < 65536 := by
  cases m <;> simp [length]

theorem eight_le_length (m : FixedMessage) : 8 ≤ m.length := by
  cases m <;> simp [length]

theorem create_built {header : CreateHeader} (hh : HeaderContract header) (m : FixedMessage) (xid : UInt32) :
    ∃ message, m.create header true xid = some message ∧ m.Built xid message := by
  obtain ⟨buffer,hbuffer,hsize,hheader,hxid,-⟩ := hh.granted xid m.type m.length m.length_lt
  refine ⟨{ buffer with data := m.fields buffer.data },?_,hsize,hheader.congr (fun i hi => m.fields_front _ hi),?_,_,rfl⟩
  · rw [create_eq,hbuffer]
    rfl
  · rw [← hxid,← netAt_four,← netAt_four]
    exact netAt_congr (fun i _ hu => m.fields_front _ (by omega))

end FixedMessage

/-! ## The fields, read back at their places -/

structure FlowRemoved.CarriedIn (flowRemoved : FlowRemoved) (data : Bytes) : Prop where
  m : matchAt data 8 = hostMatchAt flowRemoved.m 0
  cookie : netAt data 48 8 = flowRemoved.cookie.toNat
  priority : be16 data 56 = flowRemoved.priority.toNat
  reason : (data 58).toNat = flowRemoved.reason.toNat
  durationSec : be32 data 60 = flowRemoved.durationSec.toNat
  durationNsec : be32 data 64 = flowRemoved.durationNsec.toNat
  idleTimeout : be16 data 68 = flowRemoved.idleTimeout.toNat
  packetCount : netAt data 72 8 = flowRemoved.packetCount.toNat
  byteCount : netAt data 80 8 = flowRemoved.byteCount.toNat

structure StatsCarriedIn (type : OfpStatsTypes) (flags : UInt16) (data : Bytes) : Prop where
  type : be16 data 8 = type.value
  flags : be16 data 10 = flags.toNat

structure FlowStatsRequest.CarriedIn (request : FlowStatsRequest) (data : Bytes) : Prop where
  m : matchAt data 12 = hostMatchAt request.m 0
  tableId : (data 52).toNat = request.tableId.toNat
  outPort : be16 data 54 = request.outPort.toNat

/-- All five texts, also the one that is copied over the end of the one before. -/
structure DescStats.CarriedIn (desc : DescStats) (data : Bytes) : Prop where
  mfrDesc : ∀ i < 256, data (12+i) = desc.mfrDesc i
  hwDesc : ∀ i < 256, data (268+i) = desc.hwDesc i
  swDesc : ∀ i < 256, data (524+i) = desc.swDesc i
  serialNum : ∀ i < 32, data (780+i) = desc.serialNum i
  dpDesc : ∀ i < 256, data (812+i) = desc.dpDesc i

def FixedMessage.CarriedIn (data : Bytes) : FixedMessage → Prop
  | hello | featuresRequest | getConfigRequest | barrierRequest | barrierReply => True
  | getConfigReply flags missSendLen | setConfig flags missSendLen =>
    be16 data 8 = flags.toNat ∧ be16 data 10 = missSendLen.toNat
  | flowRemoved fields => fields.CarriedIn data
  | portStatus reason desc => (data 8).toNat = reason.toNat ∧ PhyPortCarried desc data 16
  | portMod fields => fields.CarriedIn data
  | descStatsRequest flags => StatsCarriedIn .ofpstDesc flags data
  | flowStatsRequest flags request => StatsCarriedIn .ofpstFlow flags data ∧ request.CarriedIn data
  | aggregateStatsRequest flags request => StatsCarriedIn .ofpstAggregate flags data ∧ request.CarriedIn data
  | tableStatsRequest flags => StatsCarriedIn .ofpstTable flags data
  | portStatsRequest flags portNo => StatsCarriedIn .ofpstPort flags data ∧ be16 data 12 = portNo.toNat
  | queueStatsRequest flags portNo queueId =>
    StatsCarriedIn .ofpstQueue flags data ∧ be16 data 12 = portNo.toNat ∧ be32 data 16 = queueId.toNat
  | descStatsReply flags desc => StatsCarriedIn .ofpstDesc flags data ∧ desc.CarriedIn data
  | aggregateStatsReply flags packetCount byteCount flowCount =>
    StatsCarriedIn .ofpstAggregate flags data ∧ netAt data 12 8 = packetCount.toNat ∧
      netAt data 20 8 = byteCount.toNat ∧ be32 data 28 = flowCount.toNat
  | queueGetConfigRequest port => be16 data 8 = port.toNat

section Carried
variable {data : Bytes}

theorem netAt_one (mem : Bytes) (o : ℕ) : netAt mem o 1 = (mem o).toNat := by
  simp [netAt]

theorem netAt_uint8 (mem : Bytes) (o : ℕ) (x : UInt8) : netAt (storeNet mem o 1 x.toNat) o 1 = x.toNat :=
  netAt_storeNet mem o x.toNat_lt

/-- A match is read back where it was converted to. -/
theorem matchAt_spliced {o : ℕ} {m : Bytes} (before : Bytes)
    (h : ∀ i < 40, data (o+i) = splice before o (htonMatch (window before o) m) (o+i)) :
    matchAt data o = hostMatchAt m 0 := by
  have hmatch : ofpMatch.Converted 0 m (window data o) := by
    refine (ofpMatch.converted_convert 0 m (window before o)).congr (fun i _ hi => ?_)
    have hi : i < 40 := by simpa [ofpMatch] using hi
    rw [window,h i hi,splice_at]
    rfl
  have hm : matchAt data (o+0) = hostMatchAt m 0 := matchAt_eq hmatch
  rwa [Nat.add_zero] at hm

theorem FlowRemoved.store_carriedIn (flowRemoved : FlowRemoved) (data : Bytes) :
    flowRemoved.CarriedIn (flowRemoved.store data) := by
  refine ⟨matchAt_spliced data (fun i hi => ?m),?cookie,?_,?reason,?_,?_,?_,?packetCount,?byteCount⟩
  case m =>
    simp only [FlowRemoved.store]
    rw [storeNet_outside (by omega),storeNet_outside (by omega),storeNet_outside (by omega),
      storeNet_outside (by omega),storeNet_outside (by omega),storeNet_outside (by omega),
      storeNet_outside (by omega),storeNet_outside (by omega),storeNet_outside (by omega),
      storeNet_outside (by omega)]
  case cookie | packetCount | byteCount =>
    simp only [FlowRemoved.store,netAt_storeNet_of_disjoint,Nat.reduceAdd,Nat.reduceLeDiff,true_or,netAt_uint64]
  case reason =>
    rw [← netAt_one]
    simp only [FlowRemoved.store,netAt_storeNet_of_disjoint,Nat.reduceAdd,Nat.reduceLeDiff,true_or,netAt_uint8]
  all_goals
    simp only [← netAt_two,← netAt_four,FlowRemoved.store,netAt_storeNet_of_disjoint,Nat.reduceAdd,
      Nat.reduceLeDiff,true_or,netAt_uint16,netAt_uint32]

theorem storeStats_carriedIn (type : OfpStatsTypes) (flags : UInt16) (data : Bytes) :
    StatsCarriedIn type flags (FixedMessage.storeStats type flags data) := by
  have htype : type.value < 65536 := by cases type <;> decide
  refine ⟨?_,be16_storeNet _ 10 flags.toNat_lt⟩
  exact (be16_storeNet_of_disjoint _ _ (Or.inl (Nat.le_refl 10))).trans (be16_storeNet data 8 htype)

theorem StatsCarriedIn.congr {type : OfpStatsTypes} {flags : UInt16} {data' : Bytes}
    (h : StatsCarriedIn type flags data) (he : ∀ i < 12, data' i = data i) : StatsCarriedIn type flags data' where
  type := by
    rw [← h.type,be16,be16,he 8 (by decide),he (8+1) (by decide)]
  flags := by
    rw [← h.flags,be16,be16,he 10 (by decide),he (10+1) (by decide)]

theorem FlowStatsRequest.store_front (request : FlowStatsRequest) (data : Bytes) {i : ℕ} (hi : i < 52) :
    request.store data i = splice data 12 (htonMatch (window data 12) request.m) i :=
  (storeNet_outside (by omega)).trans ((storeNet_outside (by omega)).trans (storeNet_outside (by omega)))

theorem FlowStatsRequest.store_carriedIn (request : FlowStatsRequest) (data : Bytes) :
    request.CarriedIn (request.store data) := by
  refine ⟨matchAt_spliced data (fun i hi => request.store_front data (by omega)),?_,?_⟩
  · rw [← netAt_one]
    simp only [FlowStatsRequest.store,netAt_storeNet_of_disjoint,Nat.reduceAdd,Nat.reduceLeDiff,true_or,netAt_uint8]
  · rw [← netAt_two]
    simp only [FlowStatsRequest.store,netAt_uint16]

theorem DescStats.store_front (desc : DescStats) (data : Bytes) {i : ℕ} (hi : i < 12) : desc.store data i = data i := by
  simp only [DescStats.store]
  rw [copyInto,if_neg (by omega),copyInto,if_neg (by omega),copyInto,if_neg (by omega),copyInto,if_neg (by omega),
    copyInto,if_neg (by omega)]

theorem copyInto_at {mem src : Bytes} {o length i : ℕ} (hi : i < length) : copyInto mem o src length (o+i) = src i := by
  rw [copyInto,if_pos (by omega),Nat.add_sub_cancel_left]

theorem copyInto_outside {mem src : Bytes} {o length i : ℕ} (hi : i < o ∨ o+length ≤ i) :
    copyInto mem o src length i = mem i := if_neg (by omega)

/-- The description of the datapath is copied last, over all that was copied too much. -/
theorem DescStats.store_carriedIn (desc : DescStats) (data : Bytes) : desc.CarriedIn (desc.store data) := by
  refine ⟨?_,?_,?_,?_,?_⟩ <;> intro i hi <;> simp only [DescStats.store]
  · rw [copyInto_outside (by omega),copyInto_outside (by omega),copyInto_outside (by omega),copyInto_outside (by omega),
      copyInto_at hi]
  · rw [copyInto_outside (by omega),copyInto_outside (by omega),copyInto_outside (by omega),copyInto_at hi]
  · rw [copyInto_outside (by omega),copyInto_outside (by omega),copyInto_at hi]
  · rw [copyInto_outside (by omega),copyInto_at (by omega)]
  · exact copyInto_at hi

theorem storePortStatus_carriedIn (reason : UInt8) (desc data : Bytes) :
    (storePortStatus reason desc data 8).toNat = reason.toNat ∧
      PhyPortCarried desc (storePortStatus reason desc data) 16 := by
  constructor
  · rw [← netAt_one]
    have hfront : netAt (storePortStatus reason desc data) 8 1 =
        netAt (storeNet (storeNet data 8 1 reason.toNat) 9 7 0) 8 1 :=
      netAt_congr (fun i _ hu => splice_before (by omega))
    rw [hfront,netAt_storeNet_of_disjoint _ _ (Or.inl (Nat.le_refl 9)),netAt_uint8]
  · refine phyPortCarried ((ofpPhyPort.converted_convert 0 desc
      (window (storeNet (storeNet data 8 1 reason.toNat) 9 7 0) 16)).congr (fun i _ _ => ?_))
    rw [window,storePortStatus,splice_at]
    rfl

/-- Every argument is carried by what is built. -/
theorem FixedMessage.fields_carriedIn (m : FixedMessage) (data : Bytes) : m.CarriedIn (m.fields data) := by
  have hstats := storeStats_carriedIn
  cases m with
  | hello | featuresRequest | getConfigRequest | barrierRequest | barrierReply => trivial
  | getConfigReply flags missSendLen | setConfig flags missSendLen =>
    refine ⟨?_,be16_storeNet _ 10 missSendLen.toNat_lt⟩
    exact (be16_storeNet_of_disjoint _ _ (Or.inl (Nat.le_refl 10))).trans (be16_storeNet data 8 flags.toNat_lt)
  | flowRemoved fields => exact fields.store_carriedIn data
  | portStatus reason desc => exact storePortStatus_carriedIn reason desc data
  | portMod fields => exact fields.store_carriedIn data
  | descStatsRequest flags | tableStatsRequest flags => exact hstats _ flags data
  | flowStatsRequest flags request | aggregateStatsRequest flags request =>
    refine ⟨(hstats _ flags data).congr (fun i hi => ?_),request.store_carriedIn _⟩
    exact (request.store_front _ (by omega)).trans (splice_before hi)
  | portStatsRequest flags portNo =>
    refine ⟨(hstats _ flags data).congr (fun i hi => ?_),?_⟩
    · exact (storeNet_outside (by omega)).trans (storeNet_outside (by omega))
    · exact (be16_storeNet_of_disjoint _ _ (Or.inl (Nat.le_refl 14))).trans (be16_storeNet _ 12 portNo.toNat_lt)
  | queueStatsRequest flags portNo queueId =>
    refine ⟨(hstats _ flags data).congr (fun i hi => ?_),?_,?_⟩
    · exact (storeNet_outside (by omega)).trans ((storeNet_outside (by omega)).trans (storeNet_outside (by omega)))
    · refine (be16_storeNet_of_disjoint _ _ (Or.inl (by decide))).trans ?_
      exact (be16_storeNet_of_disjoint _ _ (Or.inl (Nat.le_refl 14))).trans (be16_storeNet _ 12 portNo.toNat_lt)
    · rw [← netAt_four]
      exact netAt_uint32 _ 16 queueId
  | descStatsReply flags desc =>
    exact ⟨(hstats _ flags data).congr (fun i hi => desc.store_front _ hi),desc.store_carriedIn _⟩
  | aggregateStatsReply flags packetCount byteCount flowCount =>
    refine ⟨(hstats _ flags data).congr (fun i hi => ?_),?_,?_,?_⟩
    · exact (storeNet_outside (by omega)).trans <| (storeNet_outside (by omega)).trans <|
        (storeNet_outside (by omega)).trans (storeNet_outside (by omega))
    · simp only [FixedMessage.fields,storeAggregateStats,netAt_storeNet_of_disjoint,Nat.reduceAdd,Nat.reduceLeDiff,
        true_or,netAt_uint64]
    · simp only [FixedMessage.fields,storeAggregateStats,netAt_storeNet_of_disjoint,Nat.reduceAdd,Nat.reduceLeDiff,
        true_or,netAt_uint64]
    · rw [← netAt_four]
      simp only [FixedMessage.fields,storeAggregateStats,netAt_storeNet_of_disjoint,Nat.reduceAdd,Nat.reduceLeDiff,
        true_or,netAt_uint32]
  | queueGetConfigRequest port =>
    exact (be16_storeNet_of_disjoint _ _ (Or.inl (Nat.le_refl 10))).trans (be16_storeNet data 8 port.toNat_lt)

end Carried

/-- With a header at its contract a message of a fixed length is built whenever there is a
buffer, its header says what it is, and every argument is found in it again. -/
theorem fixedMessage_roundTrip {header : CreateHeader} (hh : HeaderContract header) (m : FixedMessage) (xid : UInt32) :
    ∃ message, m.create header true xid = some message ∧ m.Built xid message ∧ m.CarriedIn message.data := by
  obtain ⟨message,hmessage,hbuilt⟩ := m.create_built hh xid
  obtain ⟨data,hdata⟩ := hbuilt.fields
  exact ⟨message,hmessage,hbuilt,hdata ▸ m.fields_carriedIn data⟩

theorem fixedMessage_roundTrip_portStatus : ∃ message,
    (FixedMessage.portStatus 2 (fun o => UInt8.ofNat o)).create ccCreateHeader true 7 = some message ∧
      (FixedMessage.portStatus 2 (fun o => UInt8.ofNat o)).Built 7 message ∧
      (FixedMessage.portStatus 2 (fun o => UInt8.ofNat o)).CarriedIn message.data :=
  fixedMessage_roundTrip ccCreateHeader_contract (.portStatus 2 (fun o => UInt8.ofNat o)) 7

end OpenFlowController.Create
