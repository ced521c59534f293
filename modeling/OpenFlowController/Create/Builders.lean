import OpenFlowController.Check.Statistics
import OpenFlowController.Handler.TransInfo
import OpenFlowController.Memory.Converted

/-! # What a message builder starts from

Every builder asks `cc_create_header` for its buffer and fills in the rest behind
the header. A structure in host order is the bytes it consists of; a list of them
stands for the chain of `list_element`s, and no list for NULL.
-/
namespace OpenFlowController.Create
open Memory Check Protocol Handler

/-- The buffer of the header is not compared with NULL before it is used. -/
def ccCreateStatsReplyWith (header : CreateHeader) (allocated : Bool) (transactionId : UInt32) (type : OfpStatsTypes)
    (length : ℕ) (flags : UInt16) : Option Message := do
  let buffer ← header allocated transactionId .ofptStatsReply length
  return { buffer with data := storeNet (storeNet buffer.data 8 2 type.value) 10 2 flags.toNat }

def ccCreateStatsReply : Bool → UInt32 → OfpStatsTypes → ℕ → UInt16 → Option Message :=
  ccCreateStatsReplyWith ccCreateHeader

structure HasHeader (data : Bytes) (type : OfpType) (length : ℕ) : Prop where
  version : (data 0).toNat = ofpVersion
  type : (data 1).toNat = type.value
  length : be16 data 2 = length

/-- Of the requested length, and zero except for the header. -/
structure Fresh (buffer : Message) (xid : UInt32) (type : OfpType) (length : ℕ) : Prop where
  size : buffer.length = length
  header : HasHeader buffer.data type length
  xid : be32 buffer.data 4 = xid.toNat
  zero : ∀ i, 8 ≤ i → i < length → buffer.data i = 0

/-- What the builders rely on: `cc_create_header` returns NULL where it gets no buffer, and
otherwise the buffer it was asked for. The header is stored whatever the length. -/
structure HeaderContract (header : CreateHeader) : Prop where
  refused : ∀ xid type length, header false xid type length = none
  granted : ∀ xid type, ∀ length < 65536, ∃ buffer, header true xid type length = some buffer ∧
    Fresh buffer xid type length

theorem HasHeader.congr {data data' : Bytes} {type : OfpType} {length : ℕ} (h : HasHeader data type length)
    (he : ∀ i < 8, data' i = data i) : HasHeader data' type length := by
  refine ⟨?_,?_,?_⟩
  · rw [he 0 (by decide)]
    exact h.version
  · rw [he 1 (by decide)]
    exact h.type
  · rw [be16,he 2 (by decide),he (2+1) (by decide)]
    exact h.length

theorem HasHeader.accepted {message : Message} {type : OfpType} {minLength maxLength : ℕ}
    (h : HasHeader message.data type message.length) (h8 : 8 ≤ message.length)
    (hmin : minLength ≤ message.length) (hmax : message.length ≤ maxLength) :
    HeaderAccepted message type minLength maxLength :=
  ⟨h8,h.version,h.type,h.length,hmin,hmax⟩

theorem ccCreateHeader_fresh (transactionId : UInt32) (type : OfpType) {length : ℕ} (hl : length < 65536) :
    ∃ buffer, ccCreateHeader true transactionId type length = some buffer ∧ Fresh buffer transactionId type length := by
  refine ⟨_,rfl,rfl,⟨rfl,?_,?_⟩,?xid,fun i h8 _ => ?zero⟩
  case xid =>
    have hlt := transactionId.toNat_lt
    have hbyte : ∀ i, (byte32 transactionId i).toNat = transactionId.toNat/256^(3-i)%256 := fun i => UInt8.toNat_ofNat'
    simp [be32,be16,hbyte]
    omega
  case zero =>
    simp only
    rw [if_neg (by omega),if_neg (by omega),if_neg (by omega),if_neg (by omega)]
  · cases type <;> rfl
  · have h₂ : (byte16 length (2-2)).toNat = length/256 := by
      simp [byte16]
      omega
    have h₃ : (byte16 length (2+1-2)).toNat = length%256 := by
      simp [byte16]
    simp only [be16,Nat.reduceAdd,Nat.reduceLT,if_true,OfNat.ofNat_ne_zero,if_false,Nat.reduceEqDiff] at h₂ h₃ ⊢
    rw [h₂,h₃]
    omega

theorem ccCreateHeader_contract : HeaderContract ccCreateHeader where
  refused _ _ _ := rfl
  granted xid type _ hl := ccCreateHeader_fresh xid type hl

theorem HeaderContract.fresh {header : CreateHeader} (h : HeaderContract header) {allocated : Bool} {xid : UInt32}
    {type : OfpType} {length : ℕ} {buffer : Message} (hl : length < 65536)
    (hbuffer : header allocated xid type length = some buffer) : Fresh buffer xid type length := by
  cases allocated with
  | false =>
    rw [h.refused] at hbuffer
    cases hbuffer
  | true =>
    obtain ⟨buffer',hbuffer',hfresh⟩ := h.granted xid type length hl
    obtain rfl := Option.some.inj (hbuffer'.symm.trans hbuffer)
    exact hfresh

/-- Whatever was built has the id it was built for. -/
theorem HeaderContract.xid {header : CreateHeader} (h : HeaderContract header) {allocated : Bool} {xid : UInt32}
    {type : OfpType} {length : ℕ} {buffer : Message} (hl : length < 65536)
    (hbuffer : header allocated xid type length = some buffer) : be32 buffer.data 4 = xid.toNat :=
  (h.fresh hl hbuffer).xid

theorem HeaderContract.isSome {header : CreateHeader} (h : HeaderContract header) {length : ℕ} (hl : length < 65536)
    (allocated : Bool) (xid : UInt32) (type : OfpType) : (header allocated xid type length).isSome = allocated := by
  cases allocated with
  | false => rw [h.refused,Option.isSome_none]
  | true =>
    obtain ⟨buffer,hbuffer,-⟩ := h.granted xid type length hl
    rw [hbuffer,Option.isSome_some]

/-- The two fields behind the header are set as well. -/
structure StatsReplyFresh (buffer : Message) (type : OfpStatsTypes) (length : ℕ) (flags : UInt16) : Prop where
  size : buffer.length = length
  header : HasHeader buffer.data .ofptStatsReply length
  type : be16 buffer.data 8 = type.value
  flags : be16 buffer.data 10 = flags.toNat

theorem HeaderContract.statsReply_fresh {header : CreateHeader} (h : HeaderContract header) (transactionId : UInt32)
    (type : OfpStatsTypes) {length : ℕ} (flags : UInt16) (hl : length < 65536) :
    ∃ buffer, ccCreateStatsReplyWith header true transactionId type length flags = some buffer ∧
      StatsReplyFresh buffer type length flags := by
  obtain ⟨buffer,hbuffer,hsize,hheader⟩ := h.granted transactionId .ofptStatsReply length hl
  have htype : type.value < 65536 := by cases type <;> decide
  let data := storeNet (storeNet buffer.data 8 2 type.value) 10 2 flags.toNat
  have hframe : ∀ i < 8, data i = buffer.data i := fun i hi =>
    (storeNet_outside (by omega)).trans (storeNet_outside (by omega))
  refine ⟨{ buffer with data },by rw [ccCreateStatsReplyWith,hbuffer]; rfl,hsize,hheader.congr hframe,?_,
    be16_storeNet _ 10 flags.toNat_lt⟩
  rw [← be16_storeNet buffer.data 8 htype]
  exact be16_storeNet_of_disjoint _ _ (Or.inl (Nat.le_refl 10))

theorem ccCreateStatsReply_fresh (transactionId : UInt32) (type : OfpStatsTypes) {length : ℕ} (flags : UInt16)
    (hl : length < 65536) : ∃ buffer, ccCreateStatsReply true transactionId type length flags = some buffer ∧
      StatsReplyFresh buffer type length flags :=
  ccCreateHeader_contract.statsReply_fresh transactionId type flags hl

/-- Whatever body is filled in, the part in front of it is accepted. -/
theorem StatsReplyFresh.accepted {buffer : Message} {type : OfpStatsTypes} {length : ℕ} {flags : UInt16}
    {data : Bytes} (h : StatsReplyFresh buffer type length flags) (hframe : ∀ i < 12, data i = buffer.data i)
    (hflags : bitsOutside flags.toNat ofpsfReplyMore = 0) (hleast : 12 ≤ length) (hmost : length ≤ 65535) :
    be16 data 2 = buffer.length ∧ StatsReplyAccepted { buffer with data } := by
  have hheader : HasHeader data .ofptStatsReply buffer.length :=
    h.size ▸ h.header.congr (fun i hi => hframe i (Nat.lt_trans hi (by decide)))
  have hsize := h.size
  have hf : be16 data 10 = flags.toNat := by
    rw [← h.flags,be16,be16,hframe 10 (by decide),hframe (10+1) (by decide)]
  have hmost' : buffer.length ≤ ushrtMax := hsize ▸ hmost
  refine ⟨hheader.length,HasHeader.accepted hheader (by simp only [hsize]; omega) (by simp only [hsize]; omega) hmost',?_⟩
  rw [hf]
  exact hflags

end OpenFlowController.Create
