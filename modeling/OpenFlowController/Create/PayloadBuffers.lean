import OpenFlowController.Create.HeaderBuffer
import OpenFlowController.Create.Payloads

/-! # Payloads and the buffer of the header

The builders of messages with a payload once more, on `cc_create_header` as it is. What
they store goes through the data pointer of the buffer they get from it, and this buffer
has no data.
-/
namespace OpenFlowController.Create
open Memory Buffers Check Protocol Handler

/-- Bytes to be stored behind `buffer->data`, with their offsets. -/
abbrev Stores := List (ℕ × List UInt8)

def storeAll (data : Pointer) : Stores → ContentStore → Option ContentStore
  | [], s => some s
  | (offset,bytes) :: stores, s => do storeAll data stores (← s.write (← advance data offset) bytes)

/-- Where there is something to store NULL is followed like any other pointer. -/
def storeThrough (stores : Stores) : Option ℕ → ContentStore → Option (Option ℕ × ContentStore)
  | none, s => if stores = [] then some (none,s) else none
  | some buffer, s => do
    let b ← s.buffers.load buffer
    return (some buffer,← storeAll b.data stores s)

/-- Whether `malloc` grants the block of the header, and what was in it before. -/
structure HeaderBlock where
  granted : Bool
  junk : ℕ → UInt8

/-- The header, and what is stored behind it. -/
def createWithStores (nullChecked : Bool) (block : HeaderBlock) (xid : UInt32) (type : OfpType) (length : ℕ)
    (stores : Stores) (s : ContentStore) : Option (Option ℕ × ContentStore) := do
  let (buffer,s) ← ccCreateHeaderIn block.granted block.junk xid (UInt8.ofNat type.value) (UInt16.ofNat length) s
  if nullChecked && buffer.isNone then return (none,s)
  storeThrough stores buffer s

def net16 (x : ℕ) : List UInt8 := [byte16 x 0,byte16 x 1]

def net32 (x : UInt32) : List UInt8 := [byte32 x 0,byte32 x 1,byte32 x 2,byte32 x 3]

/-- `memcpy` of `count` bytes of the payload, if its length cut to 16 bits is not 0. -/
def payloadStores (offset count : ℕ) (payload : Option Message) : Stores :=
  match payload with
  | none => []
  | some data => if data.length%65536 > 0 then [(offset,(List.range count).map data.data)] else []

section Builders
variable (block : HeaderBlock) (xid : UInt32) (payload : Option Message)

def ccCreateErrorIn (type code : UInt16) : ContentStore → Option (Option ℕ × ContentStore) :=
  let dataLen := payloadLength payload%65536
  createWithStores false block xid .ofptError (12+dataLen)
    ([(8,net16 type.toNat),(10,net16 code.toNat)]++payloadStores 12 (payloadLength payload) payload)

def ccCreateEchoRequestIn : ContentStore → Option (Option ℕ × ContentStore) :=
  let dataLength := payloadLength payload%65536
  createWithStores true block xid .ofptEchoRequest (8+dataLength) (payloadStores 8 dataLength payload)

def ccCreateEchoReplyIn : ContentStore → Option (Option ℕ × ContentStore) :=
  let dataLength := payloadLength payload%65536
  createWithStores false block xid .ofptEchoReply (8+dataLength) (payloadStores 8 dataLength payload)

def ccCreateVendorIn (vendor : UInt32) : ContentStore → Option (Option ℕ × ContentStore) :=
  let dataLength := payloadLength payload%65536
  createWithStores false block xid .ofptVendor (12+dataLength)
    ([(8,net32 vendor)]++payloadStores 12 dataLength payload)

def ccCreatePacketInIn (packetIn : PacketIn) : ContentStore → Option (Option ℕ × ContentStore) :=
  let dataLength := payloadLength payload%65536
  createWithStores false block xid .ofptPacketIn (18+dataLength)
    ([(8,net32 packetIn.bufferId),(12,net16 packetIn.totalLen.toNat),(14,net16 packetIn.inPort.toNat),
      (16,[packetIn.reason]),(17,[0])]++payloadStores 18 dataLength payload)

/-- Without actions there is nothing to convert, whatever their length is said to be. -/
def ccCreatePacketOutIn (ethFcsLength ethMinimumLength : ℕ) (getActionsLength : OpenflowActions → ℕ)
    (bufferId : UInt32) (inPort : UInt16) (emptyList : Bool) (s : ContentStore) : Option (Option ℕ × ContentStore) :=
  let dataLength := payloadLength payload%65536
  if payloadRejected ethFcsLength ethMinimumLength bufferId payload then some (none,s)
  else
    let length := actionsLength getActionsLength (noActions emptyList)
    createWithStores false block xid .ofptPacketOut (16+length+dataLength)
      ([(8,net32 bufferId),(12,net16 inPort.toNat),(14,net16 length)]++payloadStores (16+length) dataLength payload) s

def ccCreateVendorStatsRequestIn (flags : UInt16) (vendor : UInt32) : ContentStore → Option (Option ℕ × ContentStore) :=
  let dataLength := payloadLength payload%65536
  createWithStores false block xid .ofptStatsRequest (16+dataLength)
    ([(8,net16 OfpStatsTypes.ofpstVendor.value),(10,net16 flags.toNat),(12,net32 vendor)]++
      payloadStores 16 dataLength payload)

def ccCreateVendorStatsReplyIn (flags : UInt16) (vendor : UInt32) : ContentStore → Option (Option ℕ × ContentStore) :=
  let dataLength := payloadLength payload%65536
  createWithStores false block xid .ofptStatsReply (16+dataLength)
    ([(8,net16 OfpStatsTypes.ofpstVendor.value),(10,net16 flags.toNat),(12,net32 vendor)]++
      payloadStores 16 dataLength payload)

end Builders

namespace PayloadBuilder

/-- A call that comes back returns a buffer or reports failure. -/
def runIn (ethFcsLength ethMinimumLength : ℕ) (getActionsLength : OpenflowActions → ℕ) (block : HeaderBlock)
    (xid : UInt32) (payload : Option Message) : PayloadBuilder → ContentStore → Option (Option ℕ × ContentStore)
  | error type code => ccCreateErrorIn block xid payload type code
  | echoRequest => ccCreateEchoRequestIn block xid payload
  | echoReply => ccCreateEchoReplyIn block xid payload
  | vendor id => ccCreateVendorIn block xid payload id
  | packetIn fields => ccCreatePacketInIn block xid payload fields
  | packetOut bufferId inPort emptyList =>
    ccCreatePacketOutIn block xid payload ethFcsLength ethMinimumLength getActionsLength bufferId inPort emptyList
  | vendorStatsRequest flags id => ccCreateVendorStatsRequestIn block xid payload flags id
  | vendorStatsReply flags id => ccCreateVendorStatsReplyIn block xid payload flags id

end PayloadBuilder

/-- The buffer is the fixed part and the whole payload, and its header says so. -/
structure HoldsPayload (s : ContentStore) (b : Buffer) (bytes : List UInt8) (fixedPart : ℕ)
    (payload : Option Message) : Prop where
  length : b.length = fixedPart+payloadLength payload
  data : s.read b.data b.length = some bytes
  lengthField : be16 (fun i => bytes.getD i 0) 2 = fixedPart+payloadLength payload
  tail : ∀ packet, payload = some packet → bytes.drop fixedPart = (List.range packet.length).map packet.data

namespace PayloadBuilder

/-- The call comes back, and with a buffer only if it holds the payload. A store outside a
block does not come back. -/
def KeepsIn (ethFcsLength ethMinimumLength : ℕ) (getActionsLength : OpenflowActions → ℕ) (block : HeaderBlock)
    (xid : UInt32) (payload : Option Message) (s : ContentStore) (builder : PayloadBuilder) : Prop :=
  ∃ created s', builder.runIn ethFcsLength ethMinimumLength getActionsLength block xid payload s = some (created,s') ∧
    ∀ buffer, created = some buffer → ∃ b bytes, s'.buffers.load buffer = some b ∧
      HoldsPayload s' b bytes builder.fixedPart payload

/-- The calls that report failure. -/
def Reports (ethFcsLength ethMinimumLength : ℕ) (granted : Bool) (payload : Option Message) : PayloadBuilder → Prop
  | echoRequest => granted = false
  | echoReply => granted = false ∧ payloadLength payload%65536 = 0
  | packetOut bufferId _ _ => payloadRejected ethFcsLength ethMinimumLength bufferId payload = true
  | _ => False

end PayloadBuilder

section Rules
variable {s s' : ContentStore} {block : HeaderBlock} {xid : UInt32} {payload : Option Message} {stores : Stores}

theorem ContentStore.write_buffers {p : Pointer} {bytes : List UInt8} (h : s.write p bytes = some s') :
    s'.buffers = s.buffers := by
  unfold ContentStore.write at h
  split at h
  · rw [Option.some.inj h]
  · cases p with
    | none => cases h
    | some p =>
      simp only [Option.bind_eq_bind,Option.bind_eq_some_iff,Option.ite_none_right_eq_some] at h
      obtain ⟨old,-,-,h⟩ := h
      rw [← Option.some.inj h]

theorem storeHeader_buffers {header : Pointer} {type : UInt8} {length : UInt16}
    (h : storeHeader header xid type length s = some s') : s'.buffers = s.buffers := by
  simp only [storeHeader,ContentStore.memset,Option.bind_eq_bind,Option.bind_eq_some_iff] at h
  obtain ⟨s₁,h₁,s₂,h₂,p₁,-,s₃,h₃,p₂,-,s₄,h₄,p₄,-,h⟩ := h
  rw [ContentStore.write_buffers h,ContentStore.write_buffers h₄,ContentStore.write_buffers h₃,
    ContentStore.write_buffers h₂,ContentStore.write_buffers h₁]

theorem storeAll_buffers {data : Pointer} (h : storeAll data stores s = some s') : s'.buffers = s.buffers := by
  induction stores generalizing s with
  | nil => rw [← Option.some.inj h]
  | cons store stores ih =>
    obtain ⟨offset,bytes⟩ := store
    simp only [storeAll,Option.bind_eq_bind,Option.bind_eq_some_iff] at h
    obtain ⟨p,-,s₁,hwrite,hrest⟩ := h
    rw [ih hrest,ContentStore.write_buffers hwrite]

/-- Whatever the length, the buffer that is returned is empty. -/
theorem ccCreateHeaderIn_empty {junk : ℕ → UInt8} {type : UInt8} {length : UInt16} {created : Option ℕ}
    (h : ccCreateHeaderIn true junk xid type length s = some (created,s')) :
    ∃ buffer, created = some buffer ∧ s'.buffers.load buffer = some ⟨none,none,0⟩ := by
  let empty : ContentStore := { s with buffers := s.buffers.alloc ⟨none,none,0⟩ }
  have hempty : empty.buffers.load s.buffers.next = some ⟨none,none,0⟩ := Heap.load_alloc_next _ _
  simp only [ccCreateHeaderIn,ContentStore.allocBuffer,Option.bind_eq_bind] at h
  rw [ContentStore.appendBackBuffer_empty hempty rfl,ContentStore.allocBufferWithLength,
    ContentStore.malloc_granted (mallocGrants_uint16 true length),Option.bind_some,if_neg (Option.some_ne_none _),
    Option.bind_eq_some_iff] at h
  obtain ⟨stored,hstored,h⟩ := h
  obtain ⟨rfl,rfl⟩ := Prod.mk.inj (Option.some.inj h)
  refine ⟨s.buffers.next,rfl,?_⟩
  rw [storeHeader_buffers hstored]
  exact (Heap.load_alloc_of_ne _ _ (Heap.ne_next hempty)).trans hempty

/-- With a block for the header: if the call comes back at all, then with an empty buffer. -/
theorem createWithStores_empty {nullChecked : Bool} {type : OfpType} {length : ℕ} {created : Option ℕ}
    (hgranted : block.granted = true)
    (h : createWithStores nullChecked block xid type length stores s = some (created,s')) :
    ∃ buffer, created = some buffer ∧ s'.buffers.load buffer = some ⟨none,none,0⟩ := by
  simp only [createWithStores,hgranted,Option.bind_eq_bind,Option.bind_eq_some_iff,Prod.exists] at h
  obtain ⟨made,s₁,hheader,h⟩ := h
  obtain ⟨buffer,rfl,hempty⟩ := ccCreateHeaderIn_empty hheader
  simp only [Option.isNone_some,Bool.and_false,Bool.false_eq_true,if_false,storeThrough,hempty,Option.bind_eq_bind,
    Option.bind_some,Option.bind_eq_some_iff] at h
  obtain ⟨s₂,hstores,h⟩ := h
  obtain ⟨rfl,rfl⟩ := Prod.mk.inj (Option.some.inj h)
  exact ⟨buffer,rfl,by rw [storeAll_buffers hstores]; exact hempty⟩

theorem createWithStores_refused (nullChecked : Bool) (type : OfpType) (length : ℕ) (stores : Stores)
    (s : ContentStore) (hrefused : block.granted = false) :
    ∃ s', createWithStores nullChecked block xid type length stores s =
      if nullChecked = true ∨ stores = [] then some (none,s') else none := by
  obtain ⟨s',hheader⟩ := ccCreateHeaderIn_refused block.junk xid (UInt8.ofNat type.value) (UInt16.ofNat length) s
  refine ⟨s',?_⟩
  simp only [createWithStores,hrefused,hheader,Option.bind_eq_bind,Option.bind_some,Option.isNone_none,Bool.and_true,
    storeThrough]
  cases nullChecked <;> simp

theorem payloadStores_eq_nil_iff (offset count : ℕ) : payloadStores offset count payload = [] ↔
    payloadLength payload%65536 = 0 := by
  cases payload with
  | none => simp [payloadStores,payloadLength]
  | some data => simp [payloadStores,payloadLength]

namespace PayloadBuilder
variable {ethFcsLength ethMinimumLength : ℕ} {getActionsLength : OpenflowActions → ℕ} {builder : PayloadBuilder}

theorem not_holdsPayload_empty {bytes : List UInt8} (builder : PayloadBuilder) :
    ¬ HoldsPayload s ⟨none,none,0⟩ bytes builder.fixedPart payload := by
  intro h
  have hlength := h.length
  cases builder <;> simp only [fixedPart] at hlength <;> omega

/-- A builder that is a header with stores behind it: it can only do right by reporting failure. -/
theorem keepsIn_iff_of_stores {nullChecked : Bool} {type : OfpType} {length : ℕ}
    (hrun : builder.runIn ethFcsLength ethMinimumLength getActionsLength block xid payload s =
      createWithStores nullChecked block xid type length stores s) :
    builder.KeepsIn ethFcsLength ethMinimumLength getActionsLength block xid payload s ↔
      block.granted = false ∧ (nullChecked = true ∨ stores = []) := by
  cases hgranted : block.granted with
  | true =>
    refine iff_of_false (fun h => ?_) (by simp)
    obtain ⟨created,s',hcreated,hholds⟩ := h
    obtain ⟨buffer,rfl,hempty⟩ := createWithStores_empty hgranted (hrun.symm.trans hcreated)
    obtain ⟨b,bytes,hload,hb⟩ := hholds buffer rfl
    obtain rfl := Option.some.inj (hempty.symm.trans hload)
    exact builder.not_holdsPayload_empty hb
  | false =>
    obtain ⟨s',hrefused⟩ := createWithStores_refused nullChecked type length stores s hgranted
    rw [KeepsIn,hrun,hrefused]
    by_cases hreported : nullChecked = true ∨ stores = []
    · exact iff_of_true ⟨none,s',if_pos hreported,nofun⟩ ⟨rfl,hreported⟩
    · simp [hreported]

theorem keepsIn_iff_reports (ethFcsLength ethMinimumLength : ℕ) (getActionsLength : OpenflowActions → ℕ)
    (builder : PayloadBuilder) (block : HeaderBlock) (xid : UInt32) (payload : Option Message) (s : ContentStore) :
    builder.KeepsIn ethFcsLength ethMinimumLength getActionsLength block xid payload s ↔
      builder.Reports ethFcsLength ethMinimumLength block.granted payload := by
  cases builder with
  | echoRequest => exact (keepsIn_iff_of_stores rfl).trans (and_iff_left (Or.inl rfl))
  | echoReply =>
    refine (keepsIn_iff_of_stores rfl).trans (and_congr_right (fun _ => ?_))
    rw [payloadStores_eq_nil_iff]
    simp
  | packetOut bufferId inPort emptyList =>
    cases hrejected : payloadRejected ethFcsLength ethMinimumLength bufferId payload with
    | true =>
      refine iff_of_true ⟨none,s,?_,nofun⟩ hrejected
      rw [runIn,ccCreatePacketOutIn,if_pos hrejected]
    | false =>
      let length := actionsLength getActionsLength (noActions emptyList)
      have hrun : (packetOut bufferId inPort emptyList).runIn ethFcsLength ethMinimumLength getActionsLength block xid
          payload s = createWithStores false block xid .ofptPacketOut (16+length+payloadLength payload%65536)
          ([(8,net32 bufferId),(12,net16 inPort.toNat),(14,net16 length)]++
            payloadStores (16+length) (payloadLength payload%65536) payload) s := by
        rw [runIn,ccCreatePacketOutIn,if_neg (by simp [hrejected])]
      exact (keepsIn_iff_of_stores hrun).trans (iff_of_false (by simp) (by simp [Reports,hrejected]))
  | error | vendor | packetIn | vendorStatsRequest | vendorStatsReply =>
    exact (keepsIn_iff_of_stores rfl).trans (iff_of_false (by simp) id)

end PayloadBuilder

/-- On the header as it is, the calls that keep the payload or report failure are those that
report it. On a header at its contract they would be those that have room for everything. -/
theorem payloadBuilder_keeps_iff {getActionsLength : OpenflowActions → ℕ} (hget : SumsLengths getActionsLength)
    (ethFcsLength ethMinimumLength : ℕ) (builder : PayloadBuilder) (xid : UInt32) (payload : Option Message) :
    (∀ block s, builder.KeepsIn ethFcsLength ethMinimumLength getActionsLength block xid payload s ↔
      builder.Reports ethFcsLength ethMinimumLength block.granted payload) ∧
    ∀ header, HeaderContract header → ∀ allocated,
      (builder.Keeps header ethFcsLength ethMinimumLength getActionsLength allocated xid payload ↔
        builder.Fits ethFcsLength ethMinimumLength allocated payload) :=
  ⟨fun block s => builder.keepsIn_iff_reports ethFcsLength ethMinimumLength getActionsLength block xid payload s,
    fun _ hh allocated => builder.keeps_iff_fits hh hget ethFcsLength ethMinimumLength allocated xid payload⟩

end Rules

def lengthsOf (actions : OpenflowActions) : ℕ := totalSize (fun action => le16 action 2) actions.list

/-- Five bytes: failure is reported where there is no block, and a good header would be enough. -/
theorem payloadBuilder_keeps_shortEcho :
    PayloadBuilder.echoRequest.KeepsIn 4 64 lengthsOf ⟨false,fun _ => 0⟩ 1 (some ⟨fun _ => 7,5⟩) noBuffers ∧
    PayloadBuilder.echoRequest.Keeps ccCreateHeader 4 64 lengthsOf true 1 (some ⟨fun _ => 7,5⟩) := by
  obtain ⟨hin,hat⟩ := payloadBuilder_keeps_iff (fun _ _ => rfl : SumsLengths lengthsOf) 4 64 .echoRequest 1
    (some ⟨fun _ => 7,5⟩)
  exact ⟨(hin ⟨false,fun _ => 0⟩ noBuffers).mpr rfl,(hat ccCreateHeader ccCreateHeader_contract true).mpr (fun _ => by decide)⟩

/-- Of a payload of 65536 bytes nothing is left: the request that comes back is empty, and with a
header at its contract it would be the header alone. -/
theorem longEcho_not_keeps :
    ¬ PayloadBuilder.echoRequest.KeepsIn 4 64 lengthsOf ⟨true,fun _ => 0⟩ 1 (some ⟨fun _ => 7,65536⟩) noBuffers ∧
    ¬ PayloadBuilder.echoRequest.Keeps ccCreateHeader 4 64 lengthsOf true 1 (some ⟨fun _ => 7,65536⟩) := by
  constructor
  · rw [PayloadBuilder.keepsIn_iff_reports]
    simp [PayloadBuilder.Reports]
  · have hget : SumsLengths lengthsOf := fun _ _ => rfl
    rw [PayloadBuilder.keeps_iff_fits ccCreateHeader_contract hget]
    exact fun h => absurd (h rfl) (by decide)

end OpenFlowController.Create
