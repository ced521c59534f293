import OpenFlowController.Create.ActionMessages
import OpenFlowController.Create.Extents

/-! # Builders that carry a payload

The length of the payload is cut to 16 bits before the fixed part is added and the
sum is cut again. As with the lists, a message is written into memory of any
contents. Here `cc_create_header` is a parameter with a contract.
-/
namespace OpenFlowController.Create
open Memory Check Protocol Handler

/-- What most of these builders do. The buffer of the header is not compared with
NULL before it is used. -/
def createWithPayload (header : ℕ → Option Message) (front fixedPart : ℕ) (fields : Bytes → Bytes) (mem : Bytes)
    (payload : Option Message) : Option Message := do
  let dataLength := payloadLength payload%65536
  let buffer ← header ((fixedPart+dataLength)%65536)
  return { buffer with data := ← placePayload dataLength fixedPart payload (fields (laid front buffer mem)) }

/-- Whether there is a payload is decided by the length of 16 bits, but all of it is
copied. -/
def ccCreateError (header : CreateHeader) (mem : Bytes) (allocated : Bool) (xid : UInt32) (type code : UInt16)
    (data : Option Message) : Option Message := do
  let dataLen := payloadLength data%65536
  let buffer ← header allocated xid .ofptError ((12+dataLen)%65536)
  let fields := storeNet (storeNet (laid 8 buffer mem) 8 2 type.toNat) 10 2 code.toNat
  let copied ← if dataLen > 0 then placePayload (payloadLength data) 12 data fields else some fields
  return { buffer with data := copied }

def ccCreateVendor (header : CreateHeader) (mem : Bytes) (allocated : Bool) (transactionId vendor : UInt32)
    (data : Option Message) : Option Message :=
  createWithPayload (header allocated transactionId .ofptVendor) 8 12
    (fun buffer => storeNet buffer 8 4 vendor.toNat) mem data

structure PacketIn where
  bufferId : UInt32
  totalLen : UInt16
  inPort : UInt16
  reason : UInt8

def PacketIn.store (packetIn : PacketIn) (data : Bytes) : Bytes :=
  let data := storeNet data 8 4 packetIn.bufferId.toNat
  let data := storeNet data 12 2 packetIn.totalLen.toNat
  let data := storeNet data 14 2 packetIn.inPort.toNat
  let data := storeNet data 16 1 packetIn.reason.toNat
  storeNet data 17 1 0

def ccCreatePacketIn (header : CreateHeader) (mem : Bytes) (allocated : Bool) (transactionId : UInt32)
    (packetIn : PacketIn) (data : Option Message) : Option Message :=
  createWithPayload (header allocated transactionId .ofptPacketIn) 8 18 packetIn.store mem data

def ccCreateStatsRequest (header : CreateHeader) (allocated : Bool) (transactionId : UInt32) (type : OfpStatsTypes)
    (length : ℕ) (flags : UInt16) : Option Message := do
  let buffer ← header allocated transactionId .ofptStatsRequest length
  return { buffer with data := storeNet (storeNet buffer.data 8 2 type.value) 10 2 flags.toNat }

def ccCreateVendorStatsRequest (header : CreateHeader) (mem : Bytes) (allocated : Bool) (transactionId : UInt32)
    (flags : UInt16) (vendor : UInt32) (body : Option Message) : Option Message :=
  createWithPayload (fun length => ccCreateStatsRequest header allocated transactionId .ofpstVendor length flags) 12 16
    (fun buffer => storeNet buffer 12 4 vendor.toNat) mem body

def ccCreateVendorStatsReply (header : CreateHeader) (mem : Bytes) (allocated : Bool) (transactionId : UInt32)
    (flags : UInt16) (vendor : UInt32) (body : Option Message) : Option Message :=
  createWithPayload (fun length => ccCreateStatsReplyWith header allocated transactionId .ofpstVendor length flags) 12 16
    (fun buffer => storeNet buffer 12 4 vendor.toNat) mem body

/-! The three builders the handlers and senders use, in memory of any contents. -/

def echoRequestOver (header : CreateHeader) (mem : Bytes) (allocated : Bool) (xid : UInt32) (buf : Option Message) :
    Option Message := createWithPayload (header allocated xid .ofptEchoRequest) 8 8 id mem buf

/-- Without a buffer for the header only an empty payload gets as far as an answer. -/
def echoReplyOver (header : CreateHeader) (mem : Bytes) (allocated : Bool) (xid : UInt32) (buf : Option Message) :
    Option (Option Message) :=
  match createWithPayload (header allocated xid .ofptEchoReply) 8 8 id mem buf with
  | none => if payloadLength buf%65536 > 0 then none else some none
  | some echoReply => some (some echoReply)

def packetOutOver (header : CreateHeader) (ethFcsLength ethMinimumLength : ℕ)
    (getActionsLength : OpenflowActions → ℕ) (mem : Bytes) (allocated : Bool) (transactionId bufferId : UInt32)
    (inPort : UInt16) (actions : Option OpenflowActions) (data : Option Message) : Option PacketOut := do
  let dataLength := payloadLength data%65536
  if payloadRejected ethFcsLength ethMinimumLength bufferId data then return .ccError
  let length := actionsLength getActionsLength actions
  let buffer ← header allocated transactionId .ofptPacketOut ((16+length+dataLength)%65536)
  let fields := storeNet (storeNet (storeNet (laid 8 buffer mem) 8 4 bufferId.toNat) 12 2 inPort.toNat) 14 2 length
  let filled ← fillActions length 16 actions fields
  return .buffer { buffer with data := ← placePayload dataLength (16+length) data filled }

/-- The calls. Without actions means NULL or an empty list of actions. -/
inductive PayloadBuilder
  | error (type code : UInt16)
  | echoRequest
  | echoReply
  | vendor (vendor : UInt32)
  | packetIn (fields : PacketIn)
  | packetOut (bufferId : UInt32) (inPort : UInt16) (emptyList : Bool)
  | vendorStatsRequest (flags : UInt16) (vendor : UInt32)
  | vendorStatsReply (flags : UInt16) (vendor : UInt32)

def noActions (emptyList : Bool) : Option OpenflowActions := if emptyList then some ⟨[]⟩ else none

/-- `CC_ERROR` is a failure that is reported. -/
def PacketOut.message : PacketOut → Option Message
  | .ccError => none
  | .buffer message => some message

namespace PayloadBuilder

def fixedPart : PayloadBuilder → ℕ
  | error _ _ | vendor _ => 12
  | echoRequest | echoReply => 8
  | packetIn _ => 18
  | packetOut _ _ _ | vendorStatsRequest _ _ | vendorStatsReply _ _ => 16

/-- A call that comes back returns a message or reports failure. -/
def run (header : CreateHeader) (ethFcsLength ethMinimumLength : ℕ) (getActionsLength : OpenflowActions → ℕ)
    (mem : Bytes) (allocated : Bool) (xid : UInt32) (payload : Option Message) :
    PayloadBuilder → Option (Option Message)
  | error type code => (ccCreateError header mem allocated xid type code payload).map some
  | echoRequest => some (echoRequestOver header mem allocated xid payload)
  | echoReply => echoReplyOver header mem allocated xid payload
  | vendor id => (ccCreateVendor header mem allocated xid id payload).map some
  | packetIn fields => (ccCreatePacketIn header mem allocated xid fields payload).map some
  | packetOut bufferId inPort emptyList =>
    (packetOutOver header ethFcsLength ethMinimumLength getActionsLength mem allocated xid bufferId inPort
      (noActions emptyList) payload).map PacketOut.message
  | vendorStatsRequest flags id => (ccCreateVendorStatsRequest header mem allocated xid flags id payload).map some
  | vendorStatsReply flags id => (ccCreateVendorStatsReply header mem allocated xid flags id payload).map some

/-- Failure is reported, or the sum has room in 16 bits and the buffer is there. -/
def Fits (ethFcsLength ethMinimumLength : ℕ) (allocated : Bool) (payload : Option Message) (builder : PayloadBuilder) : Prop :=
  match builder with
  | echoRequest => allocated = true → 8+payloadLength payload ≤ 65535
  | echoReply => if allocated then 8+payloadLength payload ≤ 65535 else payloadLength payload%65536 = 0
  | packetOut bufferId _ _ => payloadRejected ethFcsLength ethMinimumLength bufferId payload = false →
      allocated = true ∧ 16+payloadLength payload ≤ 65535
  | builder => allocated = true ∧ builder.fixedPart+payloadLength payload ≤ 65535

end PayloadBuilder

/-- The message is the fixed part and the whole payload, and memory is as before
from its end on. -/
structure KeepsPayload (fixedPart : ℕ) (payload : Option Message) (mem : Bytes) (message : Message) : Prop where
  length : message.length = fixedPart+payloadLength payload
  lengthField : be16 message.data 2 = fixedPart+payloadLength payload
  tail : ∀ packet, payload = some packet → ∀ i < packet.length, message.data (fixedPart+i) = packet.data i
  inside : ∀ i, fixedPart+payloadLength payload ≤ i → message.data i = mem i

def PayloadBuilder.Keeps (header : CreateHeader) (ethFcsLength ethMinimumLength : ℕ)
    (getActionsLength : OpenflowActions → ℕ) (allocated : Bool) (xid : UInt32) (payload : Option Message)
    (builder : PayloadBuilder) : Prop :=
  ∀ mem, ∃ outcome,
    builder.run header ethFcsLength ethMinimumLength getActionsLength mem allocated xid payload = some outcome ∧
      ∀ message, outcome = some message → KeepsPayload builder.fixedPart payload mem message

/-- What the two ways to a header have in common. -/
structure MakesHeader (front : ℕ) (header : ℕ → Option Message) : Prop where
  behind : 8 ≤ front
  made : ∀ length < 65536, ∃ buffer, header length = some buffer ∧ buffer.length = length ∧ be16 buffer.data 2 = length

/-- What a builder with a buffer for its header comes to: the length is the cut one,
and with room for all nothing is lost. -/
structure Carries (fixedPart : ℕ) (payload : Option Message) (mem : Bytes) (message : Message) : Prop where
  length : message.length = (fixedPart+payloadLength payload%65536)%65536
  keeps : fixedPart+payloadLength payload ≤ 65535 → KeepsPayload fixedPart payload mem message

section Rules
variable {header : CreateHeader} {front fixedPart : ℕ} {payload : Option Message} {mem : Bytes}
variable {allocated : Bool} {xid : UInt32}

theorem HeaderContract.makesHeader (hh : HeaderContract header) (xid : UInt32) (type : OfpType) :
    MakesHeader 8 (header true xid type) := by
  refine ⟨Nat.le_refl 8,fun length hlt => ?_⟩
  obtain ⟨buffer,hbuffer,hsize,hheader⟩ := hh.granted xid type length hlt
  exact ⟨buffer,hbuffer,hsize,hheader.length⟩

theorem HeaderContract.makesHeader_statsReply (hh : HeaderContract header) (xid : UInt32) (type : OfpStatsTypes)
    (flags : UInt16) : MakesHeader 12 (fun length => ccCreateStatsReplyWith header true xid type length flags) := by
  refine ⟨by decide,fun length hlt => ?_⟩
  obtain ⟨buffer,hbuffer,hfresh⟩ := hh.statsReply_fresh xid type flags hlt
  exact ⟨buffer,hbuffer,hfresh.size,hfresh.header.length⟩

theorem HeaderContract.makesHeader_statsRequest (hh : HeaderContract header) (xid : UInt32) (type : OfpStatsTypes)
    (flags : UInt16) : MakesHeader 12 (fun length => ccCreateStatsRequest header true xid type length flags) := by
  refine ⟨by decide,fun length hlt => ?_⟩
  obtain ⟨buffer,hbuffer,hsize,hheader⟩ := hh.granted xid .ofptStatsRequest length hlt
  let data := storeNet (storeNet buffer.data 8 2 type.value) 10 2 flags.toNat
  refine ⟨{ buffer with data },by rw [ccCreateStatsRequest,hbuffer]; rfl,hsize,?_⟩
  rw [← hheader.length]
  exact (be16_storeNet_of_disjoint _ _ (Or.inl (by decide))).trans
    (be16_storeNet_of_disjoint _ _ (Or.inl (by decide)))

/-- Fields that are behind the length of the header and in front of the payload. -/
theorem keepsPayload_of_placed {buffer : Message} {filled placed : Bytes} (h8 : 8 ≤ front) (hfront : front ≤ fixedPart)
    (hsize : buffer.length = fixedPart+payloadLength payload) (hfield : be16 buffer.data 2 = buffer.length)
    (hfilled : ∀ i, i < 8 ∨ fixedPart ≤ i → filled i = laid front buffer mem i)
    (hplaced : placePayload (payloadLength payload) fixedPart payload filled = some placed) :
    KeepsPayload fixedPart payload mem { buffer with data := placed } := by
  have hheader : ∀ i < 8, placed i = buffer.data i := by
    intro i hi
    rw [placePayload_outside hplaced (Or.inl (by omega)),hfilled i (Or.inl hi)]
    exact if_pos (Or.inl (by omega))
  have hsame : be16 placed 2 = be16 buffer.data 2 := by
    rw [be16,be16,hheader 2 (by decide),hheader (2+1) (by decide)]
  refine ⟨hsize,hsame.trans (hfield.trans hsize),?_,fun i hi => ?_⟩
  · rintro packet rfl i hi
    exact placePayload_inside hplaced hi
  · refine (placePayload_outside hplaced (Or.inr hi)).trans ?_
    rw [hfilled i (Or.inr (by omega))]
    exact if_neg (by omega)

theorem createWithPayload_carries {make : ℕ → Option Message} {fields : Bytes → Bytes} (hh : MakesHeader front make)
    (hfront : front ≤ fixedPart)
    (hfields : ∀ data i, i < 8 ∨ fixedPart ≤ i → fields data i = data i) (mem : Bytes) (payload : Option Message) :
    ∃ message, createWithPayload make front fixedPart fields mem payload = some message ∧
      Carries fixedPart payload mem message := by
  obtain ⟨buffer,hbuffer,hsize,hfield⟩ := hh.made ((fixedPart+payloadLength payload%65536)%65536)
    (Nat.mod_lt _ (by decide))
  obtain ⟨placed,hplaced⟩ := exists_placePayload (Nat.mod_le (payloadLength payload) 65536) fixedPart
    (fields (laid front buffer mem))
  refine ⟨{ buffer with data := placed },?_,hsize,fun hfits => ?_⟩
  · simp only [createWithPayload,hbuffer,Option.bind_eq_bind,Option.bind_some,hplaced]
    rfl
  · rw [Nat.mod_eq_of_lt (by omega : payloadLength payload < 65536)] at hplaced hsize
    rw [Nat.mod_eq_of_lt (by omega)] at hsize
    exact keepsPayload_of_placed hh.behind hfront hsize (by omega) (hfields _) hplaced

theorem createWithPayload_refused {make : ℕ → Option Message} {fields : Bytes → Bytes} (h : ∀ length, make length = none) :
    createWithPayload make front fixedPart fields mem payload = none := by
  rw [createWithPayload,h]
  rfl

/-- The length tells whether the message is whole. -/
theorem Carries.keeps_iff {message : Message} (h : Carries fixedPart payload mem message) :
    KeepsPayload fixedPart payload mem message ↔ fixedPart+payloadLength payload ≤ 65535 := by
  refine ⟨fun hkeeps => ?_,h.keeps⟩
  have hlength := h.length
  rw [hkeeps.length] at hlength
  omega

theorem echo_carries (hh : HeaderContract header) (xid : UInt32) (type : OfpType) (mem : Bytes) (buf : Option Message) :
    ∃ message, createWithPayload (header true xid type) 8 8 id mem buf = some message ∧ Carries 8 buf mem message :=
  createWithPayload_carries (hh.makesHeader xid type) (Nat.le_refl 8) (fun _ _ _ => rfl) mem buf

theorem ccCreateError_carries (hh : HeaderContract header) (mem : Bytes) (xid : UInt32) (type code : UInt16)
    (data : Option Message) :
    ∃ message, ccCreateError header mem true xid type code data = some message ∧ Carries 12 data mem message := by
  obtain ⟨buffer,hbuffer,hsize,hfield⟩ := (hh.makesHeader xid .ofptError).made
    ((12+payloadLength data%65536)%65536) (Nat.mod_lt _ (by decide))
  let fields := storeNet (storeNet (laid 8 buffer mem) 8 2 type.toNat) 10 2 code.toNat
  have hfields : ∀ i, i < 8 ∨ 12 ≤ i → fields i = laid 8 buffer mem i := fun i hi =>
    (storeNet_outside (by omega)).trans (storeNet_outside (by omega))
  obtain ⟨placed,hplaced⟩ := exists_placePayload (Nat.le_refl (payloadLength data)) 12 fields
  have hcopied : ∃ copied, (if payloadLength data%65536 > 0 then placePayload (payloadLength data) 12 data fields
      else some fields) = some copied ∧ (12+payloadLength data ≤ 65535 → copied = placed) := by
    split
    · exact ⟨placed,hplaced,fun _ => rfl⟩
    · refine ⟨fields,rfl,fun hfits => ?_⟩
      rw [placePayload,if_neg (by omega)] at hplaced
      exact Option.some.inj hplaced
  obtain ⟨copied,hcopied,hwhole⟩ := hcopied
  refine ⟨{ buffer with data := copied },?_,hsize,fun hfits => ?_⟩
  · simp only [ccCreateError,hbuffer,Option.bind_eq_bind,Option.bind_some]
    by_cases hpos : payloadLength data%65536 > 0
    · rw [if_pos hpos] at hcopied ⊢
      exact congrArg (fun copied => copied.bind (fun data => some { buffer with data })) hcopied
    · rw [if_neg hpos] at hcopied ⊢
      exact congrArg (fun copied => copied.bind (fun data => some { buffer with data })) hcopied
  · rw [Nat.mod_eq_of_lt (by omega : payloadLength data < 65536),Nat.mod_eq_of_lt (by omega)] at hsize
    rw [hwhole hfits]
    exact keepsPayload_of_placed (Nat.le_refl 8) (by decide) hsize (by omega) hfields hplaced

/-- Without actions it is a builder like the others. -/
theorem packetOutOver_noActions {ethFcsLength ethMinimumLength : ℕ} {getActionsLength : OpenflowActions → ℕ}
    (hget : SumsLengths getActionsLength) (mem : Bytes) (allocated : Bool) (xid : UInt32) {bufferId : UInt32}
    (inPort : UInt16) (emptyList : Bool) {data : Option Message}
    (hkept : payloadRejected ethFcsLength ethMinimumLength bufferId data = false) :
    packetOutOver header ethFcsLength ethMinimumLength getActionsLength mem allocated xid bufferId inPort
        (noActions emptyList) data =
      (createWithPayload (header allocated xid .ofptPacketOut) 8 16
        (fun buffer => storeNet (storeNet (storeNet buffer 8 4 bufferId.toNat) 12 2 inPort.toNat) 14 2 0) mem
        data).map .buffer := by
  have hlength : actionsLength getActionsLength (noActions emptyList) = 0 := by
    cases emptyList with
    | false => rfl
    | true => exact congrArg (·%65536) (hget ⟨[]⟩ (Nat.zero_le _))
  rw [packetOutOver,if_neg (by simp [hkept]),hlength]
  simp only [createWithPayload,Option.bind_eq_bind,Option.map_bind,Nat.add_zero]
  refine congrArg (Option.bind _) (funext fun buffer => ?_)
  rw [Function.comp_apply,Option.map_bind]
  rfl

theorem packetOutOver_carries (hh : HeaderContract header) {ethFcsLength ethMinimumLength : ℕ}
    {getActionsLength : OpenflowActions → ℕ} (hget : SumsLengths getActionsLength) (mem : Bytes) (xid : UInt32)
    {bufferId : UInt32} (inPort : UInt16) (emptyList : Bool) {data : Option Message}
    (hkept : payloadRejected ethFcsLength ethMinimumLength bufferId data = false) :
    ∃ message, packetOutOver header ethFcsLength ethMinimumLength getActionsLength mem true xid bufferId inPort
        (noActions emptyList) data = some (.buffer message) ∧ Carries 16 data mem message := by
  have hfields : ∀ data : Bytes, ∀ i, i < 8 ∨ 16 ≤ i →
      storeNet (storeNet (storeNet data 8 4 bufferId.toNat) 12 2 inPort.toNat) 14 2 0 i = data i := fun data i hi =>
    (storeNet_outside (by omega)).trans <| (storeNet_outside (by omega)).trans (storeNet_outside (by omega))
  obtain ⟨message,hmessage,hcarries⟩ := createWithPayload_carries (hh.makesHeader xid .ofptPacketOut)
    (show 8 ≤ 16 by decide) hfields mem data
  refine ⟨message,?_,hcarries⟩
  rw [packetOutOver_noActions hget mem true xid inPort emptyList hkept,hmessage,Option.map_some]

namespace PayloadBuilder
variable {ethFcsLength ethMinimumLength : ℕ} {getActionsLength : OpenflowActions → ℕ} {builder : PayloadBuilder}

theorem keeps_of_failure
    (h : ∀ mem, builder.run header ethFcsLength ethMinimumLength getActionsLength mem allocated xid payload = some none) :
    builder.Keeps header ethFcsLength ethMinimumLength getActionsLength allocated xid payload :=
  fun mem => ⟨none,h mem,nofun⟩

theorem not_keeps_of_crash
    (h : ∀ mem, builder.run header ethFcsLength ethMinimumLength getActionsLength mem allocated xid payload = none) :
    ¬ builder.Keeps header ethFcsLength ethMinimumLength getActionsLength allocated xid payload := by
  intro hkeeps
  obtain ⟨outcome,hrun,-⟩ := hkeeps (fun _ => 0)
  rw [h] at hrun
  cases hrun

theorem keeps_iff_of_message
    (h : ∀ mem, ∃ message, builder.run header ethFcsLength ethMinimumLength getActionsLength mem allocated xid payload =
      some (some message) ∧ Carries builder.fixedPart payload mem message) :
    builder.Keeps header ethFcsLength ethMinimumLength getActionsLength allocated xid payload ↔
      builder.fixedPart+payloadLength payload ≤ 65535 := by
  constructor
  · intro hkeeps
    obtain ⟨outcome,hrun,hmessage⟩ := hkeeps (fun _ => 0)
    obtain ⟨message,hrun',hcarries⟩ := h (fun _ => 0)
    obtain rfl := Option.some.inj (hrun'.symm.trans hrun)
    exact hcarries.keeps_iff.mp (hmessage message rfl)
  · intro hfits mem
    obtain ⟨message,hrun,hcarries⟩ := h mem
    refine ⟨some message,hrun,fun message' hsome => ?_⟩
    obtain rfl := Option.some.inj hsome
    exact hcarries.keeps_iff.mpr hfits

/-- The builders that use their buffer without a comparison with NULL. -/
theorem keeps_iff_unchecked
    (hnone : ∀ mem, builder.run header ethFcsLength ethMinimumLength getActionsLength mem false xid payload = none)
    (h : ∀ mem, ∃ message, builder.run header ethFcsLength ethMinimumLength getActionsLength mem true xid payload =
      some (some message) ∧ Carries builder.fixedPart payload mem message) (allocated : Bool) :
    builder.Keeps header ethFcsLength ethMinimumLength getActionsLength allocated xid payload ↔
      allocated = true ∧ builder.fixedPart+payloadLength payload ≤ 65535 := by
  cases allocated with
  | false => exact iff_of_false (not_keeps_of_crash hnone) (by simp)
  | true => exact (keeps_iff_of_message h).trans (and_iff_right rfl).symm

/-- Those of them that are a header and `createWithPayload`. -/
theorem keeps_iff_createWithPayload (builder : PayloadBuilder) (make : Bool → ℕ → Option Message)
    {fields : Bytes → Bytes}
    (hrun : ∀ mem allocated, builder.run header ethFcsLength ethMinimumLength getActionsLength mem allocated xid payload =
      (createWithPayload (make allocated) front builder.fixedPart fields mem payload).map some)
    (hnone : ∀ length, make false length = none) (hmade : MakesHeader front (make true))
    (hfront : front ≤ builder.fixedPart)
    (hfields : ∀ data i, i < 8 ∨ builder.fixedPart ≤ i → fields data i = data i) (allocated : Bool) :
    builder.Keeps header ethFcsLength ethMinimumLength getActionsLength allocated xid payload ↔
      allocated = true ∧ builder.fixedPart+payloadLength payload ≤ 65535 := by
  refine keeps_iff_unchecked (fun mem => ?_) (fun mem => ?_) allocated
  · rw [hrun,createWithPayload_refused hnone,Option.map_none]
  · obtain ⟨message,hmessage,hcarries⟩ := createWithPayload_carries hmade hfront hfields mem payload
    refine ⟨message,?_,hcarries⟩
    rw [hrun,hmessage,Option.map_some]

/-- Without a buffer failure is reported. -/
theorem echoRequest_keeps_iff (hh : HeaderContract header) (allocated : Bool) :
    echoRequest.Keeps header ethFcsLength ethMinimumLength getActionsLength allocated xid payload ↔
      echoRequest.Fits ethFcsLength ethMinimumLength allocated payload := by
  cases allocated with
  | false =>
    refine iff_of_true (keeps_of_failure (fun mem => ?_)) nofun
    rw [run,echoRequestOver,createWithPayload_refused (hh.refused xid .ofptEchoRequest)]
  | true =>
    rw [Fits,forall_prop_of_true rfl]
    refine keeps_iff_of_message (fun mem => ?_)
    obtain ⟨message,hmessage,hcarries⟩ := echo_carries hh xid .ofptEchoRequest mem payload
    exact ⟨message,congrArg some hmessage,hcarries⟩

theorem echoReply_keeps_iff (hh : HeaderContract header) (allocated : Bool) :
    echoReply.Keeps header ethFcsLength ethMinimumLength getActionsLength allocated xid payload ↔
      echoReply.Fits ethFcsLength ethMinimumLength allocated payload := by
  cases allocated with
  | false =>
    have hrun : ∀ mem, echoReply.run header ethFcsLength ethMinimumLength getActionsLength mem false xid payload =
        if payloadLength payload%65536 > 0 then none else some none := by
      intro mem
      rw [run,echoReplyOver,createWithPayload_refused (hh.refused xid .ofptEchoReply)]
    by_cases hzero : payloadLength payload%65536 = 0
    · exact iff_of_true (keeps_of_failure (fun mem => (hrun mem).trans (if_neg (by omega)))) hzero
    · exact iff_of_false (not_keeps_of_crash (fun mem => (hrun mem).trans (if_pos (by omega)))) hzero
  | true =>
    refine keeps_iff_of_message (fun mem => ?_)
    obtain ⟨message,hmessage,hcarries⟩ := echo_carries hh xid .ofptEchoReply mem payload
    refine ⟨message,?_,hcarries⟩
    rw [run,echoReplyOver,hmessage]

/-- A rejected packet is a failure that is reported before a buffer is asked for. -/
theorem packetOut_keeps_iff (hh : HeaderContract header) (hget : SumsLengths getActionsLength) (bufferId : UInt32)
    (inPort : UInt16) (emptyList allocated : Bool) :
    (packetOut bufferId inPort emptyList).Keeps header ethFcsLength ethMinimumLength getActionsLength allocated xid payload ↔
      (packetOut bufferId inPort emptyList).Fits ethFcsLength ethMinimumLength allocated payload := by
  cases hrejected : payloadRejected ethFcsLength ethMinimumLength bufferId payload with
  | true =>
    refine iff_of_true (keeps_of_failure (fun mem => ?_)) (by simp [Fits,hrejected])
    rw [run,packetOutOver,if_pos hrejected]
    rfl
  | false =>
    rw [Fits,hrejected,forall_prop_of_true rfl]
    refine keeps_iff_unchecked (fun mem => ?_) (fun mem => ?_) allocated
    · rw [run,packetOutOver,if_neg (by simp [hrejected])]
      simp only [hh.refused,Option.bind_eq_bind,Option.bind_none,Option.map_none]
    · obtain ⟨message,hmessage,hcarries⟩ := packetOutOver_carries hh hget mem xid inPort emptyList hrejected
      refine ⟨message,?_,hcarries⟩
      rw [run,hmessage]
      rfl

end PayloadBuilder

theorem PacketIn.store_outside (packetIn : PacketIn) (data : Bytes) (i : ℕ) (hi : i < 8 ∨ 18 ≤ i) :
    packetIn.store data i = data i :=
  (storeNet_outside (by omega)).trans <| (storeNet_outside (by omega)).trans <|
  (storeNet_outside (by omega)).trans <| (storeNet_outside (by omega)).trans (storeNet_outside (by omega))

/-- With a header at its contract: the exact calls that keep the whole payload or report failure. -/
theorem PayloadBuilder.keeps_iff_fits (hh : HeaderContract header) {getActionsLength : OpenflowActions → ℕ}
    (hget : SumsLengths getActionsLength) (ethFcsLength ethMinimumLength : ℕ) (builder : PayloadBuilder)
    (allocated : Bool) (xid : UInt32) (payload : Option Message) :
    builder.Keeps header ethFcsLength ethMinimumLength getActionsLength allocated xid payload ↔
      builder.Fits ethFcsLength ethMinimumLength allocated payload := by
  have hstored : ∀ (o value : ℕ) (data : Bytes) (i : ℕ), i < o ∨ o+4 ≤ i → storeNet data o 4 value i = data i :=
    fun _ _ _ _ hi => storeNet_outside hi
  cases builder with
  | error type code =>
    refine keeps_iff_unchecked (fun mem => ?_) (fun mem => ?_) allocated
    · rw [run,ccCreateError,hh.refused]
      rfl
    · obtain ⟨message,hmessage,hcarries⟩ := ccCreateError_carries hh mem xid type code payload
      refine ⟨message,?_,hcarries⟩
      rw [run,hmessage,Option.map_some]
  | vendor id =>
    exact (vendor id).keeps_iff_createWithPayload (fun allocated => header allocated xid .ofptVendor) (fun _ _ => rfl)
      (hh.refused xid .ofptVendor) (hh.makesHeader xid .ofptVendor) (show 8 ≤ 12 by decide) (hstored 8 id.toNat)
      allocated
  | packetIn packetIn =>
    exact (PayloadBuilder.packetIn packetIn).keeps_iff_createWithPayload
      (fun allocated => header allocated xid .ofptPacketIn) (fun _ _ => rfl) (hh.refused xid .ofptPacketIn)
      (hh.makesHeader xid .ofptPacketIn) (show 8 ≤ 18 by decide) packetIn.store_outside allocated
  | vendorStatsRequest flags id =>
    exact (vendorStatsRequest flags id).keeps_iff_createWithPayload
      (fun allocated length => ccCreateStatsRequest header allocated xid .ofpstVendor length flags) (fun _ _ => rfl)
      (fun length => by rw [ccCreateStatsRequest,hh.refused]; rfl) (hh.makesHeader_statsRequest xid .ofpstVendor flags)
      (show 12 ≤ 16 by decide) (fun data i hi => hstored 12 id.toNat data i (hi.imp_left (by omega))) allocated
  | vendorStatsReply flags id =>
    exact (vendorStatsReply flags id).keeps_iff_createWithPayload
      (fun allocated length => ccCreateStatsReplyWith header allocated xid .ofpstVendor length flags) (fun _ _ => rfl)
      (fun length => by rw [ccCreateStatsReplyWith,hh.refused]; rfl) (hh.makesHeader_statsReply xid .ofpstVendor flags)
      (show 12 ≤ 16 by decide) (fun data i hi => hstored 12 id.toNat data i (hi.imp_left (by omega))) allocated
  | echoRequest => exact echoRequest_keeps_iff hh allocated
  | echoReply => exact echoReply_keeps_iff hh allocated
  | packetOut bufferId inPort emptyList => exact packetOut_keeps_iff hh hget bufferId inPort emptyList allocated

end Rules
end OpenFlowController.Create
