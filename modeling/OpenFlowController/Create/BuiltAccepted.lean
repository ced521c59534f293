import OpenFlowController.Check.Acceptance
import OpenFlowController.Create.FixedMessages

/-! # Which built messages are accepted

The library checks none of the arguments of a builder. Its validators ask for some of
them, so a caller can build messages that the same library refuses. For every builder
the arguments that avoid it, exactly.
-/
namespace OpenFlowController.Create
open Memory Access Check Protocol Handler

/-- What `validate_flow_removed` demands, of the arguments in host order. -/
structure FlowRemoved.Accepted (flowRemoved : FlowRemoved) : Prop where
  matched : validateMatch (hostMatchAt flowRemoved.m 0) = .success
  priority : (hostMatchAt flowRemoved.m 0).Exact → flowRemoved.priority.toNat = ushrtMax
  reason : flowRemoved.reason.toNat ≤ ofprrDelete

structure FlowStatsRequest.Accepted (request : FlowStatsRequest) : Prop where
  matched : validateMatch (hostMatchAt request.m 0) = .success
  outPort : validatePhyPortNo request.outPort.toNat = .success

def FixedMessage.Accepted : FixedMessage → Prop
  | hello | featuresRequest | getConfigRequest | barrierRequest | barrierReply => True
  | getConfigReply flags _ | setConfig flags _ => flags.toNat ≤ ofpcFragMask
  | flowRemoved fields => fields.Accepted
  | portStatus reason desc => reason.toNat ≤ ofpprModify ∧ HostPhyPortAccepted desc
  | portMod fields => fields.Accepted
  | descStatsRequest flags | tableStatsRequest flags => flags = 0
  | flowStatsRequest flags request | aggregateStatsRequest flags request => flags = 0 ∧ request.Accepted
  | portStatsRequest flags portNo => flags = 0 ∧ validatePhyPortNo portNo.toNat = .success ∧
    (portNo.toNat ≤ ofppMax ∨ portNo.toNat = ofppNone ∨ portNo.toNat = ofppLocal)
  | queueStatsRequest flags portNo _ => flags = 0 ∧ validatePhyPortNo portNo.toNat = .success
  | descStatsReply flags _ | aggregateStatsReply flags _ _ _ => flags = 0
  | queueGetConfigRequest port => validatePhyPortNo port.toNat = .success

section Fixed
variable {m : FixedMessage} {message : Message} {xid : UInt32} {flags : UInt16}

theorem FixedMessage.Built.headerAccepted (h : m.Built xid message) {minLength maxLength : ℕ}
    (hmin : minLength ≤ m.length) (hmax : m.length ≤ maxLength) :
    HeaderAccepted message m.type minLength maxLength := by
  have h8 := m.eight_le_length
  rw [← h.size] at h8 hmin hmax
  exact HasHeader.accepted (h.size ▸ h.header) h8 hmin hmax

theorem uint16_eq_zero_iff : flags.toNat = 0 ↔ flags = 0 := UInt16.toNat_inj (b := 0)

theorem StatsCarriedIn.request_iff {type : OfpStatsTypes} {minLength maxLength : ℕ}
    (h : StatsCarriedIn type flags message.data)
    (hheader : HeaderAccepted message .ofptStatsRequest minLength maxLength) :
    StatsRequestAccepted message type minLength maxLength ↔ flags = 0 := by
  rw [← uint16_eq_zero_iff,← h.flags]
  exact ⟨fun ha => ha.flags,fun hf => ⟨hheader,h.type,hf⟩⟩

theorem StatsCarriedIn.single_iff {type : OfpStatsTypes} {bodyLength : ℕ} (h : StatsCarriedIn type flags message.data)
    (hheader : HeaderAccepted message .ofptStatsReply 12 (12+bodyLength)) :
    SingleReplyAccepted message bodyLength ↔ flags = 0 := by
  rw [← uint16_eq_zero_iff,← h.flags]
  exact ⟨fun ha => ha.2,fun hf => ⟨hheader,hf⟩⟩

theorem FlowStatsRequest.CarriedIn.accepted_iff {request : FlowStatsRequest} {type : OfpStatsTypes}
    (h : request.CarriedIn message.data) (hstats : StatsCarriedIn type flags message.data)
    (hheader : HeaderAccepted message .ofptStatsRequest 56 56) :
    MatchRequestAccepted message type ↔ flags = 0 ∧ request.Accepted := by
  rw [← hstats.request_iff hheader]
  constructor
  · intro ha
    exact ⟨ha.request,h.m ▸ ha.matched,h.outPort ▸ ha.outPort⟩
  · intro ha
    obtain ⟨hrequest,hmatched,houtPort⟩ := ha
    exact ⟨hrequest,h.m.symm ▸ hmatched,h.outPort.symm ▸ houtPort⟩

theorem FlowRemoved.CarriedIn.accepted_iff {flowRemoved : FlowRemoved} (h : flowRemoved.CarriedIn message.data)
    (hheader : HeaderAccepted message .ofptFlowRemoved 88 88) : FlowRemovedAccepted message ↔ flowRemoved.Accepted := by
  constructor
  · intro ha
    have hpriority := ha.priority
    rw [ExactPriority,h.m,h.priority] at hpriority
    exact ⟨h.m ▸ ha.matched,hpriority,h.reason ▸ ha.reason⟩
  · intro ha
    refine ⟨hheader,h.m.symm ▸ ha.matched,?_,h.reason.symm ▸ ha.reason⟩
    rw [ExactPriority,h.m,h.priority]
    exact ha.priority

theorem PortMod.CarriedIn.accepted_iff {portMod : PortMod} (h : portMod.CarriedIn message.data)
    (hheader : HeaderAccepted message .ofptPortMod 32 32) : PortModAccepted message ↔ portMod.Accepted := by
  constructor
  · intro ha
    exact ⟨h.portNo ▸ ha.portNo,h.portNo ▸ ha.physical,h.config ▸ ha.config,h.mask ▸ ha.mask,
      h.advertise ▸ ha.advertise⟩
  · intro ha
    exact ⟨hheader,h.portNo.symm ▸ ha.portNo,h.portNo.symm ▸ ha.physical,h.config.symm ▸ ha.config,
      h.mask.symm ▸ ha.mask,h.advertise.symm ▸ ha.advertise⟩

theorem statsReplyBodyAccepted_desc (h : be16 message.data 8 = OfpStatsTypes.ofpstDesc.value) :
    StatsReplyBodyAccepted message ↔ SingleReplyAccepted message 1056 := by
  rw [StatsReplyBodyAccepted,h,OfpStatsTypes.ofValue_value]

theorem statsReplyBodyAccepted_aggregate (h : be16 message.data 8 = OfpStatsTypes.ofpstAggregate.value) :
    StatsReplyBodyAccepted message ↔ SingleReplyAccepted message 24 := by
  rw [StatsReplyBodyAccepted,h,OfpStatsTypes.ofValue_value]

/-- The conditions of the type of a built message come down to its arguments. -/
theorem FixedMessage.Built.accepted_iff (h : m.Built xid message) (hc : m.CarriedIn message.data) :
    TypeAccepted message m.type ↔ m.Accepted := by
  cases m with
  | hello | featuresRequest | getConfigRequest | barrierRequest | barrierReply =>
    exact iff_of_true (h.headerAccepted (Nat.le_refl 8) (Nat.le_refl 8)) trivial
  | getConfigReply flags missSendLen | setConfig flags missSendLen =>
    have hheader := h.headerAccepted (Nat.le_refl 12) (Nat.le_refl 12)
    refine (and_iff_right hheader).trans ?_
    rw [hc.1]
    rfl
  | flowRemoved fields =>
    exact hc.accepted_iff (h.headerAccepted (Nat.le_refl 88) (Nat.le_refl 88))
  | portStatus reason desc =>
    have hheader := h.headerAccepted (Nat.le_refl 64) (Nat.le_refl 64)
    obtain ⟨hreason,hdesc⟩ := hc
    have hport := hdesc.accepted_iff
    constructor
    · exact fun ha => ⟨hreason ▸ ha.reason,hport.mp ha.desc⟩
    · exact fun ha => ⟨hheader,hreason.symm ▸ ha.1,hport.mpr ha.2⟩
  | portMod fields =>
    exact hc.accepted_iff (h.headerAccepted (Nat.le_refl 32) (Nat.le_refl 32))
  | descStatsRequest flags | tableStatsRequest flags =>
    have hheader := h.headerAccepted (Nat.le_refl 12) (Nat.le_refl 12)
    exact (statsRequestBodyAccepted_iff hc.type).trans (hc.request_iff hheader)
  | flowStatsRequest flags request | aggregateStatsRequest flags request =>
    have hheader := h.headerAccepted (Nat.le_refl 56) (Nat.le_refl 56)
    exact (statsRequestBodyAccepted_iff hc.1.type).trans (hc.2.accepted_iff hc.1 hheader)
  | portStatsRequest flags portNo =>
    have hheader := h.headerAccepted (Nat.le_refl 20) (Nat.le_refl 20)
    obtain ⟨hstats,hport⟩ := hc
    refine (statsRequestBodyAccepted_iff hstats.type).trans ?_
    constructor
    · exact fun ha => ⟨(hstats.request_iff hheader).mp ha.request,hport ▸ ha.portNo,hport ▸ ha.known⟩
    · exact fun ha => ⟨(hstats.request_iff hheader).mpr ha.1,hport.symm ▸ ha.2.1,hport.symm ▸ ha.2.2⟩
  | queueStatsRequest flags portNo queueId =>
    have hheader := h.headerAccepted (Nat.le_refl 20) (Nat.le_refl 20)
    obtain ⟨hstats,hport,-⟩ := hc
    refine (statsRequestBodyAccepted_iff hstats.type).trans ?_
    constructor
    · exact fun ha => ⟨(hstats.request_iff hheader).mp ha.request,hport ▸ ha.portNo⟩
    · exact fun ha => ⟨(hstats.request_iff hheader).mpr ha.1,hport.symm ▸ ha.2⟩
  | descStatsReply flags desc =>
    have hheader := h.headerAccepted (by decide : 12 ≤ 1068) (Nat.le_refl 1068)
    exact (statsReplyBodyAccepted_desc hc.1.type).trans (hc.1.single_iff hheader)
  | aggregateStatsReply flags packetCount byteCount flowCount =>
    have hheader := h.headerAccepted (by decide : 12 ≤ 36) (Nat.le_refl 36)
    exact (statsReplyBodyAccepted_aggregate hc.1.type).trans (hc.1.single_iff hheader)
  | queueGetConfigRequest port =>
    have hheader := h.headerAccepted (Nat.le_refl 12) (Nat.le_refl 12)
    refine (and_iff_right hheader).trans ?_
    rw [show be16 message.data 8 = port.toNat from hc]
    rfl

end Fixed

/-- With a header at its contract a message of a fixed length is accepted by the library
exactly when its arguments are what the validator of its type asks for. -/
theorem fixedMessage_accepted_iff {header : CreateHeader} (hh : HeaderContract header) (m : FixedMessage) (xid : UInt32) :
    ∃ message, m.create header true xid = some message ∧
      (Returns (validateOpenflowMessage message) message.data .success ↔ m.Accepted) := by
  obtain ⟨message,hmessage,hbuilt⟩ := m.create_built hh xid
  obtain ⟨data,hdata⟩ := hbuilt.fields
  have hcarried : m.CarriedIn message.data := hdata ▸ m.fields_carriedIn data
  refine ⟨message,hmessage,?_⟩
  rw [returns_validateOpenflowMessage,messageAccepted_iff hbuilt.header.type]
  exact hbuilt.accepted_iff hcarried

/-- Two of the four bits of the fragment handling, and one more. -/
theorem fixedMessage_accepted_setConfig :
    (∃ message, (FixedMessage.setConfig 2 65535).create ccCreateHeader true 7 = some message ∧
      (Returns (validateOpenflowMessage message) message.data .success ↔ (2 : UInt16).toNat ≤ ofpcFragMask)) ∧
    ∃ message, (FixedMessage.setConfig 4 65535).create ccCreateHeader true 7 = some message ∧
      (Returns (validateOpenflowMessage message) message.data .success ↔ (4 : UInt16).toNat ≤ ofpcFragMask) :=
  ⟨fixedMessage_accepted_iff ccCreateHeader_contract (.setConfig 2 65535) 7,
    fixedMessage_accepted_iff ccCreateHeader_contract (.setConfig 4 65535) 7⟩

/-! ## Messages with a payload -/

namespace PayloadBuilder

def type : PayloadBuilder → OfpType
  | error _ _ => .ofptError
  | echoRequest => .ofptEchoRequest
  | echoReply => .ofptEchoReply
  | vendor _ => .ofptVendor
  | packetIn _ => .ofptPacketIn
  | packetOut _ _ _ => .ofptPacketOut
  | vendorStatsRequest _ _ => .ofptStatsRequest
  | vendorStatsReply _ _ => .ofptStatsReply

/-- The bytes that are copied: of an error message all, once there are any. -/
def copied (payload : Option Message) : PayloadBuilder → ℕ
  | error _ _ => if payloadLength payload%65536 > 0 then payloadLength payload else 0
  | _ => payloadLength payload%65536

/-- What is copied ends where the message does. -/
def Contained (payload : Option Message) (builder : PayloadBuilder) : Prop :=
  builder.fixedPart+builder.copied payload ≤ 65535

def Accepted : PayloadBuilder → Prop
  | error _ _ | echoRequest | echoReply | vendor _ => True
  | packetIn fields => validatePhyPortNo fields.inPort.toNat = .success ∧ fields.reason.toNat ≤ ofprAction
  | packetOut _ inPort _ => validatePhyPortNo inPort.toNat = .success
  | vendorStatsRequest flags _ => flags = 0
  | vendorStatsReply flags _ => bitsOutside flags.toNat ofpsfReplyMore = 0

def CarriedIn (data : Bytes) : PayloadBuilder → Prop
  | error type code => be16 data 8 = type.toNat ∧ be16 data 10 = code.toNat
  | echoRequest | echoReply => True
  | vendor id => be32 data 8 = id.toNat
  | packetIn fields => be32 data 8 = fields.bufferId.toNat ∧ be16 data 12 = fields.totalLen.toNat ∧
    be16 data 14 = fields.inPort.toNat ∧ (data 16).toNat = fields.reason.toNat
  | packetOut bufferId inPort _ => be32 data 8 = bufferId.toNat ∧ be16 data 12 = inPort.toNat ∧ be16 data 14 = 0
  | vendorStatsRequest flags id | vendorStatsReply flags id =>
    StatsCarriedIn .ofpstVendor flags data ∧ be32 data 12 = id.toNat

/-- A packet to send that is too short for a frame is refused before anything is built. -/
def refused (ethFcsLength ethMinimumLength : ℕ) (payload : Option Message) : PayloadBuilder → Bool
  | packetOut bufferId _ _ => payloadRejected ethFcsLength ethMinimumLength bufferId payload
  | _ => false

/-- What is stored between the header and the payload. -/
def fields : PayloadBuilder → Bytes → Bytes
  | error type code, data => storeNet (storeNet data 8 2 type.toNat) 10 2 code.toNat
  | echoRequest, data | echoReply, data => data
  | vendor id, data => storeNet data 8 4 id.toNat
  | packetIn fields, data => fields.store data
  | packetOut bufferId inPort _, data => storeNet (storeNet (storeNet data 8 4 bufferId.toNat) 12 2 inPort.toNat) 14 2 0
  | vendorStatsRequest flags id, data | vendorStatsReply flags id, data =>
    storeNet (FixedMessage.storeStats .ofpstVendor flags data) 12 4 id.toNat

/-- The message says what it is, its fields are the arguments, behind them is what was copied
of the payload, and memory is as before from its end on. -/
structure Built (mem : Bytes) (xid : UInt32) (payload : Option Message) (builder : PayloadBuilder)
    (message : Message) : Prop where
  size : message.length = builder.fixedPart+builder.copied payload
  header : HasHeader message.data builder.type message.length
  xid : be32 message.data 4 = xid.toNat
  carried : builder.CarriedIn message.data
  tail : ∀ packet, payload = some packet → ∀ i < builder.copied payload,
    message.data (builder.fixedPart+i) = packet.data i
  outside : ∀ i, message.length ≤ i → message.data i = mem i

/-- A header in front of the memory, and the payload behind the fields. -/
structure Filled (mem : Bytes) (xid : UInt32) (payload : Option Message) (builder : PayloadBuilder)
    (message : Message) : Prop where
  size : message.length = builder.fixedPart+builder.copied payload
  placed : ∃ before, HasHeader before builder.type message.length ∧ be32 before 4 = xid.toNat ∧
    (∀ i, message.length ≤ i → before i = mem i) ∧
    placePayload (builder.copied payload) builder.fixedPart payload (builder.fields before) = some message.data

end PayloadBuilder

section Payload
variable {header : CreateHeader} {payload : Option Message} {mem : Bytes} {xid : UInt32} {builder : PayloadBuilder}

theorem laid_storeStats (type : OfpStatsTypes) (flags : UInt16) (buffer : Message) (mem : Bytes) :
    laid 12 { buffer with data := FixedMessage.storeStats type flags buffer.data } mem =
      FixedMessage.storeStats type flags (laid 12 buffer mem) := by
  funext i
  by_cases hi : i < 12
  · simp only [laid,FixedMessage.storeStats,storeNet,if_pos (Or.inl hi : i < 12 ∨ i < buffer.length)]
  · simp only [laid,FixedMessage.storeStats]
    rw [storeNet_outside (by omega),storeNet_outside (by omega),storeNet_outside (by omega),storeNet_outside (by omega)]
    rfl

theorem createWithPayload_eq {make : ℕ → Option Message} {buffer : Message} {fields : Bytes → Bytes}
    {front fixedPart : ℕ} {placed : Bytes}
    (hbuffer : make ((fixedPart+payloadLength payload%65536)%65536) = some buffer)
    (hplaced : placePayload (payloadLength payload%65536) fixedPart payload (fields (laid front buffer mem)) = some placed) :
    createWithPayload make front fixedPart fields mem payload = some { buffer with data := placed } := by
  simp only [createWithPayload,hbuffer,Option.bind_eq_bind,Option.bind_some,hplaced]
  rfl

namespace PayloadBuilder

theorem eight_le_fixedPart (builder : PayloadBuilder) : 8 ≤ builder.fixedPart := by
  cases builder <;> simp [fixedPart]

theorem fields_outside (builder : PayloadBuilder) (data : Bytes) {i : ℕ} (hi : i < 8 ∨ builder.fixedPart ≤ i) :
    builder.fields data i = data i := by
  cases builder with
  | error type code =>
    have hi : i < 8 ∨ 12 ≤ i := hi
    exact (storeNet_outside (by omega)).trans (storeNet_outside (by omega))
  | echoRequest | echoReply => rfl
  | vendor id => exact storeNet_outside hi
  | packetIn fields => exact fields.store_outside data i hi
  | packetOut bufferId inPort emptyList =>
    have hi : i < 8 ∨ 16 ≤ i := hi
    exact (storeNet_outside (by omega)).trans ((storeNet_outside (by omega)).trans (storeNet_outside (by omega)))
  | vendorStatsRequest flags id | vendorStatsReply flags id =>
    have hi : i < 8 ∨ 16 ≤ i := hi
    exact (storeNet_outside (by omega)).trans ((storeNet_outside (by omega)).trans (storeNet_outside (by omega)))

theorem copied_le (builder : PayloadBuilder) (payload : Option Message) :
    builder.copied payload ≤ payloadLength payload := by
  cases builder with
  | error type code =>
    simp only [copied]
    split
    · exact Nat.le_refl _
    · exact Nat.zero_le _
  | _ => exact Nat.mod_le _ _

/-- The length that is passed to `cc_create_header` counts all that is copied. -/
theorem Contained.cutLength (h : builder.Contained payload) :
    (builder.fixedPart+payloadLength payload%65536)%65536 = builder.fixedPart+builder.copied payload := by
  cases builder with
  | error type code =>
    have h : 12+(if payloadLength payload%65536 > 0 then payloadLength payload else 0) ≤ 65535 := h
    change (12+payloadLength payload%65536)%65536 =
      12+(if payloadLength payload%65536 > 0 then payloadLength payload else 0)
    split at h <;> rename_i hany
    · rw [if_pos hany,Nat.mod_eq_of_lt (by omega : payloadLength payload < 65536),Nat.mod_eq_of_lt (by omega)]
    · rw [if_neg hany,show payloadLength payload%65536 = 0 by omega]
  | _ => exact Nat.mod_eq_of_lt (Nat.lt_succ_of_le h)

/-- What every builder comes to when its header is granted: the payload is placed behind the
fields, and these are stored behind the header. -/
theorem filled_of_fresh {buffer : Message} (hroom : builder.Contained payload) {front : ℕ} (hfront : 8 ≤ front)
    (hpart : front ≤ builder.fixedPart)
    (hfresh : Fresh buffer xid builder.type ((builder.fixedPart+payloadLength payload%65536)%65536)) (mem : Bytes) :
    ∃ placed, placePayload (builder.copied payload) builder.fixedPart payload (builder.fields (laid front buffer mem)) =
        some placed ∧ builder.Filled mem xid payload { buffer with data := placed } := by
  obtain ⟨placed,hplaced⟩ := exists_placePayload (builder.copied_le payload) builder.fixedPart
    (builder.fields (laid front buffer mem))
  have hsize : buffer.length = builder.fixedPart+builder.copied payload := hfresh.size.trans hroom.cutLength
  have hlaid : ∀ i < 8, laid front buffer mem i = buffer.data i := fun i hi => if_pos (Or.inl (by omega))
  have hheader : HasHeader (laid front buffer mem) builder.type buffer.length :=
    hfresh.size.symm ▸ hfresh.header.congr hlaid
  have hxid : be32 (laid front buffer mem) 4 = xid.toNat := by
    rw [← hfresh.xid,← netAt_four,← netAt_four]
    exact netAt_congr (fun i _ hu => hlaid i (by omega))
  have hmem : ∀ i, buffer.length ≤ i → laid front buffer mem i = mem i := fun i hi => if_neg (by omega)
  exact ⟨placed,hplaced,hsize,_,hheader,hxid,hmem,hplaced⟩

/-- Where the whole of the fields is stored behind a plain header. -/
theorem createWithPayload_filled (hh : HeaderContract header) (builder : PayloadBuilder)
    (hroom : builder.Contained payload) (hcopied : builder.copied payload = payloadLength payload%65536) (mem : Bytes)
    (xid : UInt32) :
    ∃ message, createWithPayload (header true xid builder.type) 8 builder.fixedPart builder.fields mem payload =
      some message ∧ builder.Filled mem xid payload message := by
  obtain ⟨buffer,hbuffer,hfresh⟩ := hh.granted xid builder.type
    ((builder.fixedPart+payloadLength payload%65536)%65536) (Nat.mod_lt _ (by decide))
  obtain ⟨placed,hplaced,hfilled⟩ := filled_of_fresh hroom (Nat.le_refl 8) builder.eight_le_fixedPart hfresh mem
  exact ⟨_,createWithPayload_eq hbuffer (hcopied ▸ hplaced),hfilled⟩

/-- The builders for a vendor's statistics differ in their header only. -/
theorem vendorStats_filled (hh : HeaderContract header) (builder : PayloadBuilder) {make : ℕ → Option Message}
    {flags : UInt16} {id : UInt32} (hroom : builder.Contained payload)
    (hfields : ∀ data, builder.fields data = storeNet (FixedMessage.storeStats .ofpstVendor flags data) 12 4 id.toNat)
    (hpart : builder.fixedPart = 16) (hcopied : builder.copied payload = payloadLength payload%65536)
    (hmake : ∀ length, make length =
      withFields (header true xid builder.type length) (FixedMessage.storeStats .ofpstVendor flags)) (mem : Bytes) :
    ∃ message, createWithPayload make 12 16 (fun buffer => storeNet buffer 12 4 id.toNat) mem payload = some message ∧
      builder.Filled mem xid payload message := by
  obtain ⟨buffer,hbuffer,hfresh⟩ := hh.granted xid builder.type
    ((builder.fixedPart+payloadLength payload%65536)%65536) (Nat.mod_lt _ (by decide))
  let stats := FixedMessage.storeStats .ofpstVendor flags
  have hstats : make ((16+payloadLength payload%65536)%65536) = some { buffer with data := stats buffer.data } := by
    rw [hmake,← hpart]
    exact congrArg (withFields · stats) hbuffer
  obtain ⟨placed,hplaced,hfilled⟩ := filled_of_fresh hroom (show 8 ≤ 12 by decide) (by omega) hfresh mem
  rw [hfields,hpart,hcopied,← laid_storeStats] at hplaced
  exact ⟨_,createWithPayload_eq hstats hplaced,hfilled⟩

theorem ccCreateError_filled (hh : HeaderContract header) {type code : UInt16} (hroom : (error type code).Contained payload)
    (mem : Bytes) (xid : UInt32) :
    ∃ message, ccCreateError header mem true xid type code payload = some message ∧
      (error type code).Filled mem xid payload message := by
  obtain ⟨buffer,hbuffer,hfresh⟩ := hh.granted xid .ofptError ((12+payloadLength payload%65536)%65536)
    (Nat.mod_lt _ (by decide))
  obtain ⟨placed,hplaced,hfilled⟩ := filled_of_fresh hroom (Nat.le_refl 8) (show 8 ≤ 12 by decide) hfresh mem
  refine ⟨_,?_,hfilled⟩
  simp only [ccCreateError,hbuffer,Option.bind_eq_bind,Option.bind_some]
  simp only [copied] at hplaced
  by_cases hany : payloadLength payload%65536 > 0
  · rw [if_pos hany] at hplaced ⊢
    exact congrArg (fun copied => copied.bind (fun data => some { buffer with data })) hplaced
  · rw [if_neg hany] at hplaced ⊢
    exact congrArg (fun copied => copied.bind (fun data => some { buffer with data })) hplaced

theorem packetOut_filled (hh : HeaderContract header) {ethFcsLength ethMinimumLength : ℕ}
    {getActionsLength : OpenflowActions → ℕ} (hget : SumsLengths getActionsLength) (mem : Bytes) (xid : UInt32)
    {bufferId : UInt32} {inPort : UInt16} {emptyList : Bool}
    (hroom : (packetOut bufferId inPort emptyList).Contained payload)
    (hkept : payloadRejected ethFcsLength ethMinimumLength bufferId payload = false) :
    ∃ message, packetOutOver header ethFcsLength ethMinimumLength getActionsLength mem true xid bufferId inPort
        (noActions emptyList) payload = some (.buffer message) ∧
      (packetOut bufferId inPort emptyList).Filled mem xid payload message := by
  obtain ⟨message,hmessage,hfilled⟩ := createWithPayload_filled hh (packetOut bufferId inPort emptyList) hroom rfl mem xid
  refine ⟨message,?_,hfilled⟩
  rw [packetOutOver_noActions hget mem true xid inPort emptyList hkept]
  exact congrArg (·.map PacketOut.buffer) hmessage

/-- Every call with a buffer for its header comes back with a filled message, unless it
refuses. -/
theorem run_filled (hh : HeaderContract header) {getActionsLength : OpenflowActions → ℕ}
    (hget : SumsLengths getActionsLength) {ethFcsLength ethMinimumLength : ℕ} (mem : Bytes) (xid : UInt32)
    (hkept : builder.refused ethFcsLength ethMinimumLength payload = false) (hroom : builder.Contained payload) :
    ∃ message, builder.run header ethFcsLength ethMinimumLength getActionsLength mem true xid payload =
      some (some message) ∧ builder.Filled mem xid payload message := by
  have hplain := fun hcopied => createWithPayload_filled hh builder hroom hcopied mem xid
  cases builder with
  | error type code =>
    obtain ⟨message,hmessage,hfilled⟩ := ccCreateError_filled hh hroom mem xid
    refine ⟨message,?_,hfilled⟩
    rw [run,hmessage,Option.map_some]
  | echoRequest =>
    obtain ⟨message,hmessage,hfilled⟩ := hplain rfl
    exact ⟨message,congrArg some hmessage,hfilled⟩
  | echoReply =>
    obtain ⟨message,hmessage,hfilled⟩ := hplain rfl
    refine ⟨message,?_,hfilled⟩
    rw [run,echoReplyOver,show createWithPayload (header true xid .ofptEchoReply) 8 8 id mem payload =
      some message from hmessage]
  | vendor id | packetIn fields =>
    obtain ⟨message,hmessage,hfilled⟩ := hplain rfl
    exact ⟨message,congrArg (·.map some) hmessage,hfilled⟩
  | packetOut bufferId inPort emptyList =>
    obtain ⟨message,hmessage,hfilled⟩ := packetOut_filled hh hget mem xid hroom hkept
    exact ⟨message,congrArg (·.map PacketOut.message) hmessage,hfilled⟩
  | vendorStatsRequest flags id =>
    obtain ⟨message,hmessage,hfilled⟩ := vendorStats_filled hh (vendorStatsRequest flags id) hroom (fun _ => rfl) rfl rfl
      (fun _ => rfl) mem
    exact ⟨message,congrArg (·.map some) hmessage,hfilled⟩
  | vendorStatsReply flags id =>
    obtain ⟨message,hmessage,hfilled⟩ := vendorStats_filled hh (vendorStatsReply flags id) hroom (fun _ => rfl) rfl rfl
      (fun _ => rfl) mem
    exact ⟨message,congrArg (·.map some) hmessage,hfilled⟩

theorem fields_carriedIn {before data : Bytes} (h : ∀ i < builder.fixedPart, data i = builder.fields before i) :
    builder.CarriedIn data := by
  have hnet : ∀ {o width}, o+width ≤ builder.fixedPart → netAt data o width = netAt (builder.fields before) o width :=
    fun ho => netAt_congr (fun i _ hu => h i (Nat.lt_of_lt_of_le hu ho))
  cases builder with
  | error type code =>
    simp only [fixedPart] at hnet
    constructor <;> rw [← netAt_two,hnet (by decide)]
    · simp only [fields,netAt_storeNet_of_disjoint,Nat.reduceAdd,Nat.reduceLeDiff,true_or,netAt_uint16]
    · exact netAt_uint16 _ 10 code
  | echoRequest | echoReply => trivial
  | vendor id =>
    simp only [fixedPart] at hnet
    rw [CarriedIn,← netAt_four,hnet (by decide)]
    exact netAt_uint32 _ 8 id
  | packetIn fields =>
    simp only [fixedPart] at hnet
    rw [CarriedIn,← netAt_one,← netAt_two,← netAt_two,← netAt_four,hnet (by decide),hnet (by decide),hnet (by decide),
      hnet (by decide)]
    simp only [PayloadBuilder.fields,PacketIn.store,netAt_storeNet_of_disjoint,Nat.reduceAdd,Nat.reduceLeDiff,true_or,
      netAt_uint8,netAt_uint16,netAt_uint32,and_true]
  | packetOut bufferId inPort emptyList =>
    simp only [fixedPart] at hnet
    rw [CarriedIn,← netAt_two,← netAt_two,← netAt_four,hnet (by decide),hnet (by decide),hnet (by decide)]
    simp only [fields,netAt_storeNet_of_disjoint,Nat.reduceAdd,Nat.reduceLeDiff,true_or,netAt_uint16,netAt_uint32,
      true_and]
    exact netAt_storeNet _ 14 (by decide)
  | vendorStatsRequest flags id | vendorStatsReply flags id =>
    simp only [fixedPart] at h hnet
    refine ⟨(storeStats_carriedIn .ofpstVendor flags before).congr (fun i hi => ?_),?_⟩
    · rw [h i (Nat.lt_trans hi (by decide))]
      exact storeNet_outside (by omega)
    · rw [← netAt_four,hnet (by decide)]
      exact netAt_uint32 _ 12 id

theorem Filled.built {message : Message} (h : builder.Filled mem xid payload message) :
    builder.Built mem xid payload message := by
  obtain ⟨before,hheader,hxid,hmem,hplaced⟩ := h.placed
  have h8 := builder.eight_le_fixedPart
  have hsize := h.size
  have hfixed : ∀ i < builder.fixedPart, message.data i = builder.fields before i := fun i hi =>
    placePayload_outside hplaced (Or.inl hi)
  have hfront : ∀ i < 8, message.data i = before i := fun i hi =>
    (hfixed i (by omega)).trans (builder.fields_outside before (Or.inl hi))
  refine ⟨hsize,hheader.congr hfront,?_,fields_carriedIn hfixed,?_,fun i hi => ?_⟩
  · rw [← hxid,← netAt_four,← netAt_four]
    exact netAt_congr (fun i _ hu => hfront i (by omega))
  · intro packet hpacket i hi
    exact placePayload_inside (hpacket ▸ hplaced) (hpacket ▸ hi)
  · rw [placePayload_outside hplaced (Or.inr (by omega)),builder.fields_outside before (Or.inr (by omega)),hmem i hi]

/-- Nothing of the payload is looked at. -/
theorem Built.accepted_iff {message : Message} (h : builder.Built mem xid payload message)
    (hroom : builder.Contained payload) : MessageAccepted message ↔ builder.Accepted := by
  have h8 := builder.eight_le_fixedPart
  have hsize := h.size
  have hmost : message.length ≤ ushrtMax := hsize ▸ hroom
  have hheader : ∀ minLength, minLength ≤ builder.fixedPart → HeaderAccepted message builder.type minLength ushrtMax :=
    fun minLength hmin => HasHeader.accepted h.header (by omega) (by omega) hmost
  have hc := h.carried
  rw [messageAccepted_iff h.header.type]
  cases builder with
  | error type code => exact iff_of_true (hheader 12 (Nat.le_refl 12)) trivial
  | echoRequest | echoReply => exact iff_of_true (hheader 8 (Nat.le_refl 8)) trivial
  | vendor id => exact iff_of_true (hheader 12 (Nat.le_refl 12)) trivial
  | packetIn fields =>
    obtain ⟨-,-,hport,hreason⟩ := hc
    constructor
    · exact fun ha => ⟨hport ▸ ha.inPort,hreason ▸ ha.reason⟩
    · exact fun ha => ⟨hheader 18 (Nat.le_refl 18),hport.symm ▸ ha.1,hreason.symm ▸ ha.2⟩
  | packetOut bufferId inPort emptyList =>
    obtain ⟨-,hport,hactions⟩ := hc
    refine (and_iff_right (hheader 16 (Nat.le_refl 16))).trans ?_
    rw [hport,hactions]
    exact and_iff_left ⟨0,.refl,Nat.le_refl 0⟩
  | vendorStatsRequest flags id =>
    obtain ⟨hstats,-⟩ := hc
    exact (statsRequestBodyAccepted_iff hstats.type).trans (hstats.request_iff (hheader 16 (Nat.le_refl 16)))
  | vendorStatsReply flags id =>
    obtain ⟨hstats,-⟩ := hc
    change StatsReplyBodyAccepted message ↔ _
    rw [StatsReplyBodyAccepted,hstats.type,OfpStatsTypes.ofValue_value]
    refine (and_iff_right (hheader 12 (show 12 ≤ 16 by decide))).trans ?_
    rw [hstats.flags]
    rfl

end PayloadBuilder

/-- With a header at its contract a message with a payload is built by every call that does
not refuse it and has room for what it copies, and the library accepts it exactly when the
arguments are what its validator asks for. The payload may be cut: that is accepted too. -/
theorem payloadBuilder_accepted_iff (hh : HeaderContract header) {getActionsLength : OpenflowActions → ℕ}
    (hget : SumsLengths getActionsLength) (ethFcsLength ethMinimumLength : ℕ) (builder : PayloadBuilder) (mem : Bytes)
    (xid : UInt32) (payload : Option Message) (hkept : builder.refused ethFcsLength ethMinimumLength payload = false)
    (hroom : builder.Contained payload) :
    ∃ message, builder.run header ethFcsLength ethMinimumLength getActionsLength mem true xid payload =
        some (some message) ∧ builder.Built mem xid payload message ∧
      (Returns (validateOpenflowMessage message) message.data .success ↔ builder.Accepted) := by
  obtain ⟨message,hmessage,hfilled⟩ := PayloadBuilder.run_filled hh hget mem xid hkept hroom
  have hbuilt := hfilled.built
  refine ⟨message,hmessage,hbuilt,?_⟩
  rw [returns_validateOpenflowMessage]
  exact hbuilt.accepted_iff hroom

/-- Four bytes are left of 65540. -/
theorem payloadBuilder_accepted_truncatedEcho :
    ∃ message, PayloadBuilder.echoRequest.run ccCreateHeader 4 64
        (fun actions => totalSize (fun action => le16 action 2) actions.list) (fun _ => 0) true 1
        (some ⟨fun _ => 7,65540⟩) = some (some message) ∧
      PayloadBuilder.echoRequest.Built (fun _ => 0) 1 (some ⟨fun _ => 7,65540⟩) message ∧
      (Returns (validateOpenflowMessage message) message.data .success ↔ PayloadBuilder.echoRequest.Accepted) :=
  payloadBuilder_accepted_iff ccCreateHeader_contract (fun _ _ => rfl) 4 64 .echoRequest (fun _ => 0) 1
    (some ⟨fun _ => 7,65540⟩) rfl (by unfold PayloadBuilder.Contained; decide)

end Payload
end OpenFlowController.Create
